import DocumentStore.Access.Session
set_option autoImplicit false

/-!
# Connections and their transactions

Every operation of a handle runs on its connection.  If the handle has an open transaction, the
operation's calls go there.  Otherwise, under the transactional policy, the operation has a
transaction of its own, committed if all calls succeed and rolled back if not; without the policy
its calls go straight to the store.  A closed connection refuses operations and new transactions.
-/

namespace DocumentStore

/-- The transaction of a handle: the open one, or how the last one ended. -/
inductive Slot where
  | idle
  | active (t : Transaction)
  | committed
  | rolledBack
  deriving DecidableEq, Inhabited

namespace Slot

/-- Whether a transaction is open. -/
def isActive : Slot → Bool
  | .active _ => true
  | _ => false

/-- The state of the slot by name. -/
def describe : Slot → String
  | .idle => "Idle"
  | .active _ => "Active"
  | .committed => "Committed"
  | .rolledBack => "RolledBack"

end Slot

/-- How the operations of a handle reach the store. -/
structure Policy where
  limits : BatchLimits
  /-- Whether each operation has a transaction of its own. -/
  transactional : Bool
  deriving DecidableEq, Repr, Inhabited

/-- What the operations of a handle work on. -/
structure Connection where
  store : Store
  metrics : Metrics
  closed : Bool
  slot : Slot

namespace Connection

/-- The session of calls in a given transaction, or in none. -/
def session (c : Connection) (t : Option Transaction) : Session := ⟨c.store, t, c.metrics⟩

/-- The connection after the calls of a session. -/
def after (c : Connection) (s : Session) : Connection :=
  { c with store := s.store, metrics := s.metrics }

/-- Runs calls in the handle's open transaction. -/
def executeIn {α : Type} (operation : OperationKind) (t : Transaction) (body : Action Session α) :
    Action Connection α := fun c =>
  match body (c.session (some t)) with
  | (r, s) =>
    (r.mapError (·.inOperation operation), { c.after s with slot := .active (s.transaction.getD t) })

/-- Runs calls straight on the store. -/
def executeDirectly {α : Type} (label : String) (body : Action Session α) : Action Connection α :=
  fun c =>
    match body (c.session none) with
    | (r, s) => (r.mapError (·.withContext label), c.after s)

/-- Runs calls and then commits what they staged. -/
def thenCommit {α : Type} (body : Action Session α) : Action Session α := do
  let a ← body
  Session.onTransaction Staging.commit
  return a

/-- Runs calls in a transaction of their own. -/
def executeAlone {α : Type} (operation : OperationKind) (label : String) (body : Action Session α) :
    Action Connection α := fun c =>
  match Store.beginTransaction c.store with
  | (.error e, store) => (.error (e.inOperation operation), { c with store })
  | (.ok t, store) =>
    match thenCommit body ({ c with store }.session (some t)) with
    | (.ok a, s) =>
      let c := c.after s.releaseTransaction
      (.ok a, { c with metrics := c.metrics.record true })
    | (.error e, s) =>
      let (_, s) := Session.onTransaction Staging.rollback s
      let c := c.after s.releaseTransaction
      (.error ((e.withContext label).inOperation operation),
        { c with metrics := c.metrics.record false })

/-- Runs the calls of one operation under the handle's policy. -/
def execute {α : Type} (policy : Policy) (operation : OperationKind) (label : String)
    (body : Action Session α) : Action Connection α := fun c =>
  if c.closed then (.error .closed, c)
  else
    match c.slot with
    | .active t => executeIn operation t body c
    | _ =>
      if policy.transactional then executeAlone operation label body c
      else executeDirectly label body c

/-! ## Operations of one kind of call -/

/-- The entities of keys, one answer for each key in order. -/
def lookup (policy : Policy) (keys : List Key) (label : String) :
    Action Connection (List (Option Entity)) :=
  execute policy .read label (Session.lookup policy.limits keys)

/-- Inserts or overwrites entities. -/
def put (policy : Policy) (batch : List Entity) (label : String) : Action Connection Unit :=
  execute policy .write label (Session.put policy.limits batch)

/-- Deletes keys. -/
def delete (policy : Policy) (keys : List Key) (label : String) : Action Connection Unit :=
  execute policy .write label (Session.delete policy.limits keys)

/-- One page of the results of a query. -/
def runQuery (policy : Policy) (q : EntityQuery) : Action Connection Page :=
  execute policy .read q.describe (Session.runQuery q)

/-! ## Explicit transactions -/

/-- Opens the handle's transaction. -/
def beginScope : Action Connection Unit := fun c =>
  if c.closed then (.error .closed, c)
  else
    match c.slot with
    | .active _ => (.error .transactionAlreadyActive, c)
    | _ =>
      match Store.beginTransaction c.store with
      | (.ok t, store) => (.ok (), { c with store, slot := .active t })
      | (.error e, store) => (.error e, { c with store, slot := .idle })

/-- Commits the handle's transaction.  A failed commit is rolled back and reported as such. -/
def commitScope : Action Connection Unit := fun c =>
  match c.slot with
  | .active t =>
    match Staging.commit ⟨c.store, t⟩ with
    | (.ok (), g) =>
      (.ok (), { c with
        store := g.store.release g.transaction
        metrics := c.metrics.record true
        slot := .committed })
    | (.error e, g) =>
      let (_, g) := Staging.rollback g
      (.error (e.inOperation .commit), { c with
        store := g.store.release g.transaction
        metrics := c.metrics.record false
        slot := .rolledBack })
  | _ => (.error .noActiveTransaction, c)

/-- Rolls the handle's transaction back.  It is released even if the store refuses. -/
def rollbackScope : Action Connection Unit := fun c =>
  match c.slot with
  | .active t =>
    match Staging.rollback ⟨c.store, t⟩ with
    | (r, g) =>
      (r.mapError (·.inOperation .rollback), { c with
        store := g.store.release g.transaction
        metrics := c.metrics.record false
        slot := .rolledBack })
  | _ => (.error .noActiveTransaction, c)

/-- Gives the handle's transaction up without asking the store. -/
def dropScope (c : Connection) : Connection :=
  match c.slot with
  | .active t =>
    { c with
      store := c.store.release t
      metrics := c.metrics.record false
      slot := .rolledBack }
  | _ => c

/-- Closes the connection. -/
def close (c : Connection) : Connection := { c with closed := true }

end Connection

end DocumentStore
