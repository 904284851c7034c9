import DocumentStore.Access.Metrics
import DocumentStore.Store.Transaction
set_option autoImplicit false

/-!
# The calls of one operation

An operation's calls go to one transaction, or straight to the store.  Bulk calls are split into
chunks of at most a limit, in order, and the first failing chunk ends them.  Every call is observed.
-/

namespace DocumentStore

/-- Where the calls of an operation go, and what they change. -/
structure Session where
  store : Store
  /-- The transaction of the calls, unless they go straight to the store. -/
  transaction : Option Transaction
  metrics : Metrics

/-- Parts of `n` items, the last one shorter; parts of one item if `n` is zero. -/
def chunks {α : Type} (n : Nat) : List α → List (List α)
  | [] => []
  | a :: rest => (a :: rest.take (n - 1)) :: chunks n (rest.drop (n - 1))
termination_by l => l.length
decreasing_by simp only [List.length_cons, List.length_drop]; omega

theorem flatten_chunks {α : Type} (n : Nat) (l : List α) : (chunks n l).flatten = l := by
  fun_induction chunks n l with
  | case1 => rfl
  | case2 a rest ih => simp [ih, List.take_append_drop]

theorem length_le_of_mem_chunks {α : Type} {n : Nat} {l c : List α} (h : c ∈ chunks n l) :
    c.length ≤ max n 1 := by
  fun_induction chunks n l with
  | case1 => simp at h
  | case2 a rest ih =>
    rcases List.mem_cons.mp h with rfl | h
    · simp; omega
    · exact ih h

namespace Session

/-- Whether the calls go to a transaction. -/
def isTransactional (s : Session) : Bool := s.transaction.isSome

/-- A call on the store or on the transaction, observed. -/
def call {α : Type} (kind : CallKind) (direct : Action Store α) (staged : Action Staging α) :
    Action Session α := fun s =>
  match s.transaction with
  | none =>
    match direct s.store with
    | (r, store) => (r, { s with store, metrics := s.metrics.observe kind r.isOk })
  | some t =>
    match staged ⟨s.store, t⟩ with
    | (r, g) =>
      (r, { store := g.store, transaction := some g.transaction,
            metrics := s.metrics.observe kind r.isOk })

/-- One lookup call for each chunk of keys. -/
def lookupChunks : List (List Key) → Action Session (List (Option Entity))
  | [] => pure []
  | keys :: rest => do
    let found ← call .lookup (Store.lookup keys) (Staging.lookup keys)
    let more ← lookupChunks rest
    return found ++ more

/-- The entities of keys, one answer for each key in order. -/
def lookup (limits : BatchLimits) (keys : List Key) : Action Session (List (Option Entity)) :=
  lookupChunks (chunks limits.read keys)

/-- One put call for each chunk of entities. -/
def putChunks : List (List Entity) → Action Session Unit
  | [] => pure ()
  | batch :: rest => do
    call .put (Store.put batch) (Staging.put batch)
    Action.modify fun s => { s with metrics := s.metrics.accept batch.length }
    putChunks rest

/-- Inserts or overwrites entities, in order. -/
def put (limits : BatchLimits) (batch : List Entity) : Action Session Unit :=
  putChunks (chunks limits.write batch)

/-- One delete call for each chunk of keys. -/
def deleteChunks : List (List Key) → Action Session Unit
  | [] => pure ()
  | keys :: rest => do
    call .delete (Store.delete keys) (Staging.delete keys)
    deleteChunks rest

/-- Deletes keys, in order. -/
def delete (limits : BatchLimits) (keys : List Key) : Action Session Unit :=
  deleteChunks (chunks limits.write keys)

/-- One page of the results of a query. -/
def runQuery (q : EntityQuery) : Action Session Page :=
  call .query (Store.runQuery q) (Staging.runQuery q)

/-- An action of the session's transaction; without one nothing happens. -/
def onTransaction (x : Action Staging Unit) : Action Session Unit := fun s =>
  match s.transaction with
  | none => (.ok (), s)
  | some t =>
    match x ⟨s.store, t⟩ with
    | (r, g) => (r, { s with store := g.store, transaction := some g.transaction })

/-- Gives up the session's transaction. -/
def releaseTransaction (s : Session) : Session :=
  match s.transaction with
  | none => s
  | some t => { s with store := s.store.release t, transaction := none }

end Session

end DocumentStore
