import DocumentStore.Store.Calls
set_option autoImplicit false

/-!
# Transactions of the store

A transaction stages writes: the last one for each key, a removal being one without properties.  It
sees its own writes in lookups, while queries see committed documents only.  A commit applies the
staged writes together; a failed one leaves the transaction open.  A transaction that is given up
unfinished is released, and its writes are lost.
-/

namespace DocumentStore

/-- The writes of a transaction that are not applied yet. -/
structure Transaction where
  staged : SortedMap Key (Option Properties)
  finished : Bool
  deriving DecidableEq

instance : Inhabited Transaction := ⟨⟨∅, false⟩⟩

/-- A store and one of its transactions. -/
structure Staging where
  store : Store
  transaction : Transaction

/-- Begins a transaction. -/
def Store.beginTransaction : Action Store Transaction := do
  Store.takeFailure .start
  Action.modify fun s => { s with active := s.active + 1 }
  return ⟨∅, false⟩

/-- Gives up a transaction: unless it is finished, it is no longer active. -/
def Store.release (s : Store) (t : Transaction) : Store :=
  if t.finished then s else { s with active := s.active - 1 }

namespace Staging

/-- A call of the store itself. -/
def onStore {α : Type} (x : Action Store α) : Action Staging α :=
  Action.onPart (·.store) (fun g s => { g with store := s }) x

/-- Refuses a finished transaction. -/
def ensureActive : Action Staging Unit := do
  if (← Action.gets (·.transaction.finished)) then Action.fail .transactionFinished

/-- An entity as the transaction sees it. -/
def view (t : Transaction) (k : Key) (committed : Option Entity) : Option Entity :=
  match t.staged.get? k with
  | some write => write.map fun p => ⟨k, p⟩
  | none => committed

/-- The entities of keys, staged writes included. -/
def lookup (keys : List Key) : Action Staging (List (Option Entity)) := do
  ensureActive
  let found ← onStore (Store.lookup keys)
  Action.gets fun g => (keys.zip found).map fun (k, e) => view g.transaction k e

/-- Stages a write. -/
def stage (t : Transaction) (k : Key) (write : Option Properties) : Transaction :=
  { t with staged := t.staged.insert k write }

/-- Stages entities, in order. -/
def put (batch : List Entity) : Action Staging Unit := do
  ensureActive
  onStore do
    Store.enter .put
    Store.guardLimit (← Action.gets (·.limits.write)) batch.length
  Action.modify fun g =>
    { g with transaction := batch.foldl (fun t e => stage t e.key (some e.properties)) g.transaction }

/-- Stages removals, in order. -/
def delete (keys : List Key) : Action Staging Unit := do
  ensureActive
  onStore do
    Store.enter .delete
    Store.guardLimit (← Action.gets (·.limits.write)) keys.length
  Action.modify fun g =>
    { g with transaction := keys.foldl (fun t k => stage t k none) g.transaction }

/-- One page of the results of a query, from committed documents. -/
def runQuery (q : EntityQuery) : Action Staging Page := do
  ensureActive
  onStore (Store.runQuery q)

/-- A staged write applied to documents. -/
def applyWrite (documents : SortedMap Key Properties) (k : Key) (write : Option Properties) :
    SortedMap Key Properties :=
  match write with
  | some p => documents.insert k p
  | none => documents.erase k

/-- Every staged write applied to documents, in key order. -/
def applyStaged (documents : SortedMap Key Properties) (t : Transaction) :
    SortedMap Key Properties :=
  t.staged.entries.foldl (fun documents w => applyWrite documents w.1 w.2) documents

/-- Ends the transaction and discards what is staged. -/
def finish (g : Staging) : Staging :=
  { store := g.store.release g.transaction, transaction := ⟨∅, true⟩ }

/-- Applies the staged writes and ends the transaction. -/
def commit : Action Staging Unit := do
  ensureActive
  onStore (Store.takeFailure .commit)
  Action.modify fun g =>
    finish { g with store :=
      { g.store with documents := applyStaged g.store.documents g.transaction } }

/-- Ends the transaction without applying anything. -/
def rollback : Action Staging Unit := do
  onStore (Store.takeFailure .rollback)
  ensureActive
  Action.modify finish

end Staging

end DocumentStore
