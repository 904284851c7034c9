import DocumentStore.Sorted.Stable
import DocumentStore.Store.Basic
set_option autoImplicit false

/-!
# Calls on the store

A call is counted, then fails if a failure waits for it, then is refused if it carries more items
than the limit, and only then takes effect.
-/

namespace DocumentStore.Store

/-- Fails with the first failure that waits at `point`, which is then gone. -/
def takeFailure (point : FailurePoint) : Action Store Unit := fun s =>
  match s.failures.find? (·.1 = point) with
  | some (_, message) =>
    (.error (.backend point.describe message),
      { s with failures := s.failures.eraseP (·.1 = point) })
  | none => (.ok (), s)

/-- Counts a call and lets a waiting failure happen. -/
def enter (kind : CallKind) : Action Store Unit := do
  Action.modify fun s => { s with calls := s.calls.bump kind }
  takeFailure (.call kind)

/-- Refuses more items than a limit. -/
def guardLimit (limit requested : Nat) : Action Store Unit :=
  if limit < requested then Action.fail (.batchLimitExceeded limit requested) else pure ()

/-- The entities of keys, one answer for each key in order. -/
def lookup (keys : List Key) : Action Store (List (Option Entity)) := do
  enter .lookup
  guardLimit (← Action.gets (·.limits.read)) keys.length
  Action.gets fun s => keys.map s.find?

/-- Inserts or overwrites entities, in order. -/
def put (batch : List Entity) : Action Store Unit := do
  enter .put
  guardLimit (← Action.gets (·.limits.write)) batch.length
  Action.modify fun s => batch.foldl put1 s

/-- Deletes keys; one that is not there is passed over. -/
def delete (keys : List Key) : Action Store Unit := do
  enter .delete
  guardLimit (← Action.gets (·.limits.write)) keys.length
  Action.modify fun s => keys.foldl delete1 s

/-- Every entity a query asks for, in its order. -/
def results (s : Store) (q : EntityQuery) : List Entity :=
  let selected := s.entities.filter q.selects
  if q.order.isEmpty then selected else Sorted.stable (SortKey.compareAll q.order) selected

/-- The page of a query that begins after `offset` results. -/
def page (s : Store) (q : EntityQuery) (offset : Nat) : Page :=
  let found := s.results q
  let offset := min offset found.length
  let room := min s.pageLimit (found.length - offset)
  let count := match q.limit with
    | some limit => min limit room
    | none => room
  let taken := (found.drop offset).take count
  { entities := if q.keysOnly then taken.map (·.keyOnly) else taken
    endCursor := some (.ofOffset (offset + count))
    more := offset + count < found.length }

/-- The number of results before the start of a query. -/
def startOffset (q : EntityQuery) : Outcome Nat :=
  match q.start with
  | none => .ok 0
  | some cursor =>
    match cursor.offset? with
    | some offset => .ok offset
    | none => .error (.backend "query" ("invalid cursor " ++ Text.quoted cursor.token))

/-- One page of the results of a query. -/
def runQuery (q : EntityQuery) : Action Store Page := do
  enter .query
  let offset ← Action.ofOutcome (startOffset q)
  Action.gets fun s => s.page q offset

/-- The namespaces that hold a document, ascending. -/
def listNamespaces : Action Store (List Namespace) := do
  takeFailure .listNamespaces
  Action.gets namespaces

end DocumentStore.Store
