import DocumentStore.Access.Connection
set_option autoImplicit false

/-!
# Walking through the results of a query

A walk asks for one page at a time, when an entity is pulled and none is at hand.  Each page starts
where the one before it ended; the walk ends with the last page, with the query's limit, or with the
first failure, which it passes on.
-/

namespace DocumentStore

/-- How far a walk has come. -/
structure Walk where
  policy : Policy
  /-- The query, with the start of the next page. -/
  query : EntityQuery
  /-- The most entities of a page, at least one. -/
  pageSize : Nat
  /-- How many entities may still be fetched, if the query has a limit. -/
  remaining : Option Nat
  /-- Entities fetched and not yet pulled. -/
  atHand : List Entity
  /-- Whether no page remains to be fetched. -/
  done : Bool
  deriving DecidableEq

/-- The next item of a walk or stream, if there is one, and what is left of it. -/
structure Pulled (ω : Type) where
  item : Option (Outcome Entity)
  rest : ω

namespace Walk

/-- A walk from the start of a query. -/
def start (policy : Policy) (query : EntityQuery) (pageSize : Nat) : Walk :=
  { policy, query, pageSize := max pageSize 1, remaining := query.limit, atHand := [], done := false }

/-- The limit of the next page. -/
def nextLimit (w : Walk) : Nat :=
  match w.remaining with
  | some n => min n w.pageSize
  | none => w.pageSize

/-- Whether no further page is asked for. -/
def isOver (w : Walk) : Bool := w.done || w.nextLimit == 0

/-- The walk after a page has arrived. -/
def arrive (w : Walk) (page : Page) : Walk :=
  let fetched := page.entities.length
  { w with
    query := { w.query with start := page.endCursor }
    remaining := w.remaining.map (· - fetched)
    atHand := page.entities
    done := !page.more || fetched == 0 || page.endCursor.isNone }

/-- The walk that has ended. -/
def finish (w : Walk) : Walk := { w with atHand := [], done := true }

/-- The next entity among those at hand. -/
def takeAtHand (w : Walk) : Pulled Walk :=
  match w.atHand with
  | e :: rest => ⟨some (.ok e), { w with atHand := rest }⟩
  | [] => ⟨none, w.finish⟩

/-- The next entity; a page is fetched if none is at hand.  A page without entities is the last. -/
def pull (w : Walk) (c : Connection) : Pulled Walk × Connection :=
  match w.atHand with
  | _ :: _ => (w.takeAtHand, c)
  | [] =>
    if w.isOver then (⟨none, w.finish⟩, c)
    else
      match Connection.runQuery w.policy { w.query with limit := some w.nextLimit } c with
      | (.error e, c) => (⟨some (.error e), w.finish⟩, c)
      | (.ok page, c) => ((w.arrive page).takeAtHand, c)

/-- A bound for the number of entities still to come from a store of `size` documents. -/
def bound (size : Nat) (w : Walk) : Nat := w.atHand.length + size

/-- Pulls entities until the walk ends.  The fuel counts the pulls. -/
def collectFrom : Nat → Walk → Action Connection (List Entity)
  | 0, _ => pure []
  | fuel + 1, w => fun c =>
    match w.pull c with
    | (⟨none, _⟩, c) => (.ok [], c)
    | (⟨some (.error e), _⟩, c) => (.error e, c)
    | (⟨some (.ok e), w⟩, c) =>
      match collectFrom fuel w c with
      | (.ok rest, c) => (.ok (e :: rest), c)
      | (.error e, c) => (.error e, c)

/-- Every entity still to come, unless there is a failure. -/
def collect (w : Walk) : Action Connection (List Entity) := fun c =>
  collectFrom (w.bound c.store.size + 1) w c

end Walk

end DocumentStore
