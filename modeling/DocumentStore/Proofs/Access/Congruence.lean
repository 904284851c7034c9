import DocumentStore.Proofs.Access.Simulation
import DocumentStore.Proofs.Store.Congruence
set_option autoImplicit false

/-!
# Connections that calls cannot tell apart

The calls of an operation run alike on connections whose stores are related by a congruence, wherever
they go: straight to the store, to a transaction of their own, or to the handle's open one.  So do
the beginnings and ends of explicit transactions.  The counters of the connections are not compared,
since nothing that a call does depends on them.
-/

namespace DocumentStore

open DocumentStore.Action (Respects)

variable {visible : Key → Prop} {queries : EntityQuery → Prop} {related : Store → Store → Prop}

/-! ## Sessions -/

/-- Whether the stores are related and the transactions, if there are any, have staged the same. -/
structure Session.Related (related : Store → Store → Prop) (s s' : Session) : Prop where
  store : related s.store s'.store
  transaction : s.transaction = s'.transaction

namespace Session

variable {α : Type}

theorem call_related (kind : CallKind) {direct : Action Store α} {staged : Action Staging α}
    (hdirect : Respects related direct) (hstaged : Respects (Staging.Related related) staged) :
    Respects (Related related) (call kind direct staged) := by
  intro s s' h
  unfold call
  rw [← h.transaction]
  cases ht : s.transaction with
  | none =>
    obtain ⟨r, store, store', hr, hr', hstore⟩ := (hdirect _ _ h.store).exists_eq
    simp only [hr, hr']
    exact ⟨rfl, hstore, rfl⟩
  | some t =>
    obtain ⟨r, g, g', hr, hr', hg⟩ := (hstaged ⟨s.store, t⟩ ⟨s'.store, t⟩ ⟨h.store, rfl⟩).exists_eq
    simp only [hr, hr']
    exact ⟨rfl, hg.store, congrArg some hg.transaction⟩

theorem onTransaction_related {x : Action Staging Unit} (hx : Respects (Staging.Related related) x) :
    Respects (Related related) (onTransaction x) := by
  intro s s' h
  unfold onTransaction
  rw [← h.transaction]
  cases ht : s.transaction with
  | none => exact ⟨rfl, h⟩
  | some t =>
    obtain ⟨r, g, g', hr, hr', hg⟩ := (hx ⟨s.store, t⟩ ⟨s'.store, t⟩ ⟨h.store, rfl⟩).exists_eq
    simp only [hr, hr']
    exact ⟨rfl, hg.store, congrArg some hg.transaction⟩

section Congruence

variable (hcong : Store.Congruence visible queries related)

include hcong

theorem lookupChunks_related {parts : List (List Key)}
    (hparts : ∀ keys ∈ parts, ∀ k ∈ keys, visible k) :
    Respects (Related related) (lookupChunks parts) := by
  induction parts with
  | nil => exact .pure []
  | cons keys rest ih =>
    obtain ⟨hkeys, hrest⟩ := List.forall_mem_cons.mp hparts
    exact (call_related .lookup (hcong.lookup hkeys) (hcong.stagedLookup hkeys)).bind
      fun _ => (ih hrest).bind fun _ => .pure _

theorem lookup_related (limits : BatchLimits) {keys : List Key}
    (hkeys : ∀ k ∈ keys, visible k) : Respects (Related related) (lookup limits keys) := by
  refine lookupChunks_related hcong fun part hpart k hk => hkeys k ?_
  rw [← flatten_chunks limits.read keys]
  exact List.mem_flatten_of_mem hpart hk

theorem putChunks_related (parts : List (List Entity)) :
    Respects (Related related) (putChunks parts) := by
  induction parts with
  | nil => exact .pure ()
  | cons batch rest ih =>
    exact (call_related .put (hcong.put batch) (hcong.stagedPut batch)).bind fun _ =>
      (Respects.modify fun _ _ h => ⟨h.store, h.transaction⟩).bind fun _ => ih

theorem deleteChunks_related (parts : List (List Key)) :
    Respects (Related related) (deleteChunks parts) := by
  induction parts with
  | nil => exact .pure ()
  | cons keys rest ih =>
    exact (call_related .delete (hcong.delete keys) (hcong.stagedDelete keys)).bind fun _ => ih

theorem runQuery_related {q : EntityQuery} (hq : queries q) :
    Respects (Related related) (runQuery q) :=
  call_related .query (hcong.runQuery hq) (hcong.stagedQuery hq)

theorem Related.release {s s' : Session} (h : Related related s s') :
    Related related s.releaseTransaction s'.releaseTransaction := by
  unfold releaseTransaction
  rw [← h.transaction]
  cases ht : s.transaction with
  | none => exact h
  | some t => exact ⟨hcong.release h.store t, rfl⟩

end Congruence

end Session

/-! ## Calls outside explicit transactions -/

namespace Connection

variable {α : Type} {body : Action Session α} {x : Action Connection α}

/-- Whether an action has the same outcome on connections with related stores, and leaves both with
related stores and otherwise as they were, but for the counters. -/
def Parallel (related : Store → Store → Prop) (x : Action Connection α) : Prop :=
  ∀ c c' : Connection, related c.store c'.store →
    ∃ (r : Outcome α) (store store' : Store) (metrics metrics' : Metrics),
      x c = (r, { c with store, metrics }) ∧
      x c' = (r, { c' with store := store', metrics := metrics' }) ∧ related store store'

theorem executeDirectly_parallel (hbody : Respects (Session.Related related) body) (label : String) :
    Parallel related (executeDirectly label body) := by
  intro c c' h
  obtain ⟨r, s, s', hr, hr', hs⟩ := (hbody (c.session none) (c'.session none) ⟨h, rfl⟩).exists_eq
  unfold executeDirectly
  rw [hr, hr']
  exact ⟨_, _, _, _, _, rfl, rfl, hs.store⟩

theorem executeAlone_parallel (hcong : Store.Congruence visible queries related)
    (hbody : Respects (Session.Related related) body) (operation : OperationKind) (label : String) :
    Parallel related (executeAlone operation label body) := by
  have hwhole : Respects (Session.Related related) (thenCommit body) :=
    hbody.bind fun _ => (Session.onTransaction_related hcong.commit).bind fun _ => .pure _
  intro c c' h
  unfold executeAlone
  obtain ⟨begun, store, store', hb, hb', hstore⟩ := (hcong.beginTransaction _ _ h).exists_eq
  rw [hb, hb']
  cases begun with
  | error e => exact ⟨_, _, _, _, _, rfl, rfl, hstore⟩
  | ok t =>
    obtain ⟨r, s, s', hr, hr', hs⟩ := (hwhole ({ c with store }.session (some t))
      ({ c' with store := store' }.session (some t)) ⟨hstore, rfl⟩).exists_eq
    dsimp only
    rw [hr, hr']
    cases r with
    | ok a => exact ⟨_, _, _, _, _, rfl, rfl, (hs.release hcong).store⟩
    | error e =>
      obtain ⟨-, hback⟩ := Session.onTransaction_related hcong.rollback s s' hs
      exact ⟨_, _, _, _, _, rfl, rfl, (hback.release hcong).store⟩

/-! ## Calls in any state of the connection -/

/-- Whether two connections have related stores, and the same explicit transaction or none. -/
structure Related (related : Store → Store → Prop) (c c' : Connection) : Prop where
  closed : c.closed = c'.closed
  slot : c.slot = c'.slot
  store : related c.store c'.store

theorem Parallel.respects (h : Parallel related x) : Respects (Related related) x := by
  intro c c' hc
  obtain ⟨r, store, store', metrics, metrics', hr, hr', hstore⟩ := h c c' hc.store
  rw [hr, hr']
  exact ⟨rfl, hc.closed, hc.slot, hstore⟩

theorem executeIn_related (hbody : Respects (Session.Related related) body)
    (operation : OperationKind) (t : Transaction) :
    Respects (Related related) (executeIn operation t body) := by
  intro c c' h
  obtain ⟨r, s, s', hr, hr', hs⟩ :=
    (hbody (c.session (some t)) (c'.session (some t)) ⟨h.store, rfl⟩).exists_eq
  unfold executeIn
  rw [hr, hr']
  exact ⟨rfl, h.closed, congrArg (Slot.active <| Option.getD · t) hs.transaction, hs.store⟩

/-- The calls of one operation. -/
theorem execute_related (hcong : Store.Congruence visible queries related)
    (hbody : Respects (Session.Related related) body) (policy : Policy) (operation : OperationKind)
    (label : String) : Respects (Related related) (execute policy operation label body) := by
  intro c c' h
  unfold execute
  rw [← h.closed, ← h.slot]
  split
  · exact ⟨rfl, h⟩
  · split
    · exact executeIn_related hbody operation _ c c' h
    · split
      · exact (executeAlone_parallel hcong hbody operation label).respects c c' h
      · exact (executeDirectly_parallel hbody label).respects c c' h

/-! ## Explicit transactions -/

section Scopes

variable (hcong : Store.Congruence visible queries related)

include hcong

theorem beginScope_related : Respects (Related related) beginScope := by
  intro c c' h
  unfold beginScope
  rw [← h.closed, ← h.slot]
  split
  · exact ⟨rfl, h⟩
  · split
    · exact ⟨rfl, h⟩
    · obtain ⟨r, store, store', hr, hr', hstore⟩ := (hcong.beginTransaction _ _ h.store).exists_eq
      rw [hr, hr']
      cases r with
      | ok t => exact ⟨rfl, rfl, rfl, hstore⟩
      | error e => exact ⟨rfl, rfl, rfl, hstore⟩

theorem commitScope_related : Respects (Related related) commitScope := by
  intro c c' h
  unfold commitScope
  rw [← h.slot]
  cases c.slot with
  | active t =>
    obtain ⟨r, g, g', hr, hr', hg⟩ :=
      (hcong.commit ⟨c.store, t⟩ ⟨c'.store, t⟩ ⟨h.store, rfl⟩).exists_eq
    dsimp only
    rw [hr, hr']
    cases r with
    | ok _ => exact ⟨rfl, h.closed, rfl, hcong.released hg⟩
    | error e => exact ⟨rfl, h.closed, rfl, hcong.released (hcong.rollback g g' hg).state⟩
  | idle | committed | rolledBack => exact ⟨rfl, h⟩

theorem rollbackScope_related : Respects (Related related) rollbackScope := by
  intro c c' h
  unfold rollbackScope
  rw [← h.slot]
  cases c.slot with
  | active t =>
    obtain ⟨r, g, g', hr, hr', hg⟩ :=
      (hcong.rollback ⟨c.store, t⟩ ⟨c'.store, t⟩ ⟨h.store, rfl⟩).exists_eq
    dsimp only
    rw [hr, hr']
    exact ⟨rfl, h.closed, rfl, hcong.released hg⟩
  | idle | committed | rolledBack => exact ⟨rfl, h⟩

theorem Related.dropScope {c c' : Connection} (h : Related related c c') :
    Related related c.dropScope c'.dropScope := by
  unfold Connection.dropScope
  rw [← h.slot]
  cases hslot : c.slot with
  | active t => exact ⟨h.closed, rfl, hcong.release h.store t⟩
  | idle | committed | rolledBack => exact h

end Scopes

/-! ## Calls as a simulation -/

/-- Under one policy, calls on connections that differ in the counters alone have the same outcomes. -/
theorem related_simulation (policy : Policy) :
    Simulation (Related Store.SameState) Eq policy policy := by
  have hcong := Store.SameState.congruence
  have hmatches {α : Type} {x : Action Connection α} (hx : Respects (Related Store.SameState) x) :
      Action.Matches (Related Store.SameState) Eq Eq x x := by
    intro c c' h
    obtain ⟨r, t, t', hr, hr', ht⟩ := (hx c c' h).exists_eq
    rw [hr, hr']
    exact ⟨.refl (fun _ => rfl) (fun _ => rfl) r, ht⟩
  exact {
    refl := fun _ => rfl
    size := fun h => congrArg SortedMap.size h.store.documents.symm
    lookup := fun keys label => hmatches <| execute_related hcong
      (Session.lookup_related hcong policy.limits fun _ _ => trivial) policy .read label
    put := fun batch label => hmatches <| execute_related hcong
      (Session.putChunks_related hcong _) policy .write label
    delete := fun keys label => hmatches <| execute_related hcong
      (Session.deleteChunks_related hcong _) policy .write label
    runQuery := fun q => hmatches <| execute_related hcong
      (Session.runQuery_related hcong trivial) policy .read q.describe }

end Connection

end DocumentStore
