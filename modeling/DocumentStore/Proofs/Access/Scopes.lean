import DocumentStore.Proofs.Access.Atomic
import DocumentStore.Proofs.Access.Chains
set_option autoImplicit false

/-!
# What calls do to open transactions

The calls of operations neither open nor end the transaction of a handle, and give up every
transaction that they begin themselves.  The transaction of a handle is opened and ended by
`beginScope`, `commitScope`, `rollbackScope` and `dropScope` alone, and ended by the last three
whatever the store answers.
-/

namespace DocumentStore

/-- Whether the transaction in a slot, if there is one, can still be used. -/
def Slot.Usable (slot : Slot) : Prop := ∀ t, slot = .active t → t.finished = false

theorem Slot.Usable.of_isActive_eq_false {slot : Slot} (h : slot.isActive = false) :
    slot.Usable := by
  rintro t rfl
  cases h

theorem Store.takeFailure_backend {point : FailurePoint} {s s' : Store} {e : StorageError}
    (h : takeFailure point s = (.error e, s')) : ∃ message, e = .backend point.describe message := by
  unfold takeFailure at h
  split at h
  · exact ⟨_, (Except.error.inj (congrArg Prod.fst h)).symm⟩
  · cases h

namespace Connection

/-! ## Calls -/

/-- Whether the number of open transactions, and whether there is one here, are as before. -/
structure KeepsScope (c c' : Connection) : Prop where
  closed : c'.closed = c.closed
  active : c'.store.active = c.store.active
  isActive : c'.slot.isActive = c.slot.isActive
  usable : c'.slot.Usable

section Calls

variable {α : Type} {body : Action Session α} {ws : List Write} {c : Connection}

theorem executeIn_keepsScope (hbody : Session.Performs body ws) {t : Transaction}
    (ht : c.slot = .active t) (husable : c.slot.Usable) (operation : OperationKind) :
    KeepsScope c (executeIn operation t body c).2 := by
  have hfinished := husable t ht
  have hunfinished : (c.session (some t)).Unfinished := .of_some rfl hfinished
  obtain ⟨done, -, ⟨ht', hdata⟩, -⟩ := (hbody _ hunfinished).effect
  unfold executeIn
  dsimp only
  refine ⟨rfl, hdata.active, (congrArg Slot.isActive ht).symm, ?_⟩
  intro t' hslot
  rw [ht'] at hslot
  obtain rfl := Slot.active.inj hslot
  exact (Staging.stageAll_finished ..).trans hfinished

theorem executeDirectly_keepsScope (hbody : Session.Performs body ws) (husable : c.slot.Usable)
    (label : String) : KeepsScope c (executeDirectly label body c).2 := by
  have hunfinished : (c.session none).Unfinished := .of_none rfl
  obtain ⟨done, -, ⟨-, hdata⟩, -⟩ := (hbody _ hunfinished).effect
  exact ⟨rfl, hdata.active, rfl, husable⟩

theorem executeAlone_keepsScope (hbody : Session.Performs body ws) (husable : c.slot.Usable)
    (operation : OperationKind) (label : String) :
    KeepsScope c (executeAlone operation label body c).2 := by
  obtain ⟨hall, -⟩ := executeAlone_allOrNothing hbody operation label c
  refine ⟨hall.closed, ?_, congrArg Slot.isActive hall.slot, hall.slot ▸ husable⟩
  cases hr : (executeAlone operation label body c).1 with
  | error e => exact (hall.undone e hr).1.active
  | ok a => exact (hall.done a hr).1.active

theorem execute_keepsScope (hbody : Session.Performs body ws) (husable : c.slot.Usable)
    (policy : Policy) (operation : OperationKind) (label : String) :
    KeepsScope c (execute policy operation label body c).2 := by
  unfold execute
  split
  · exact ⟨rfl, rfl, rfl, husable⟩
  · cases hslot : c.slot with
    | active t => exact executeIn_keepsScope hbody hslot husable operation
    | idle | committed | rolledBack =>
      dsimp only
      split
      · exact executeAlone_keepsScope hbody husable operation label
      · exact executeDirectly_keepsScope hbody husable label

theorem KeepsScope.trans {c' c'' : Connection} (h : KeepsScope c c') (h' : KeepsScope c' c'') :
    KeepsScope c c'' where
  closed := h'.closed.trans h.closed
  active := h'.active.trans h.active
  isActive := h'.isActive.trans h.isActive
  usable := h'.usable

theorem Chain.keepsScope {policy : Policy} {allowed : Write → Prop} {c' : Connection}
    (h : Chain policy allowed c c') (husable : c.slot.Usable) : KeepsScope c c' := by
  induction h with
  | refl => exact ⟨rfl, rfl, rfl, husable⟩
  | lookup keys label _ ih =>
    exact ih.trans (execute_keepsScope (Session.lookup_performs _ keys) ih.usable policy .read label)
  | query q _ ih =>
    exact ih.trans (execute_keepsScope (Session.runQuery_performs q) ih.usable policy .read _)
  | put batch label _ _ ih =>
    exact ih.trans (execute_keepsScope (Session.put_performs _ batch) ih.usable policy .write label)
  | delete keys label _ _ ih =>
    exact ih.trans
      (execute_keepsScope (Session.delete_performs _ keys) ih.usable policy .write label)

end Calls

/-! ## Opening -/

section Opening

variable {c : Connection}

theorem beginScope_active {t : Transaction} (hopen : c.closed = false) (h : c.slot = .active t) :
    beginScope c = (.error .transactionAlreadyActive, c) := by
  rw [beginScope, if_neg (by simp [hopen]), h]

/-- Without an open transaction one is opened, unless the store fails to begin one. -/
theorem beginScope_inactive (hopen : c.closed = false) (h : c.slot.isActive = false) :
    (∃ c', beginScope c = (.ok (), c') ∧ c'.closed = false ∧ c'.slot.isActive = true ∧
        c'.slot.Usable ∧ c'.store.active = c.store.active + 1) ∨
      ∃ point message c', beginScope c = (.error (.backend point message), c') ∧
        KeepsScope c c' := by
  have hdata := Store.sameData_takeFailure .start c.store
  unfold beginScope
  rw [if_neg (by simp [hopen])]
  split
  · next t hslot =>
    rw [hslot] at h
    cases h
  · rw [Store.beginTransaction, Action.bind_apply]
    rcases hr : Store.takeFailure .start c.store with ⟨e | _, store⟩ <;> rw [hr] at hdata
    · obtain ⟨message, rfl⟩ := Store.takeFailure_backend hr
      exact .inr ⟨_, message, _, rfl, rfl, hdata.active, h.symm, .of_isActive_eq_false rfl⟩
    · refine .inl ⟨_, rfl, hopen, rfl, ?_, congrArg (· + 1) hdata.active⟩
      intro t ht
      obtain rfl := Slot.active.inj ht
      rfl

end Opening

/-! ## Ending -/

/-- Whether an open transaction has been ended and given up. -/
structure EndsScope (c c' : Connection) : Prop where
  closed : c'.closed = c.closed
  active : c'.store.active = c.store.active - 1
  isActive : c'.slot.isActive = false

section Ending

variable {c : Connection} {t : Transaction}

/-- A transaction is no longer counted once it is rolled back and given up, also if the store
refused to roll it back. -/
theorem active_release_rollback (store : Store) (hfinished : t.finished = false) :
    ((Staging.rollback ⟨store, t⟩).2.store.release (Staging.rollback ⟨store, t⟩).2.transaction).active
      = store.active - 1 := by
  have hdata := Store.sameData_takeFailure .rollback store
  rw [Staging.rollback_unfinished (g := ⟨store, t⟩) hfinished]
  rcases hr : Store.takeFailure .rollback store with ⟨e | _, store'⟩ <;> rw [hr] at hdata
  · dsimp only
    rw [Store.release_unfinished _ hfinished]
    exact congrArg (· - 1) hdata.active
  · simp only [Staging.finish, Store.release_unfinished _ hfinished, Store.release_finished]
    exact congrArg (· - 1) hdata.active

theorem commitScope_ends (ht : c.slot = .active t) (hfinished : t.finished = false) :
    EndsScope c (commitScope c).2 ∧ (commitScope c).1 ≠ .error .noActiveTransaction := by
  have hdata := Store.sameData_takeFailure .commit c.store
  unfold commitScope
  rw [ht]
  dsimp only
  rw [Staging.commit_unfinished (g := ⟨c.store, t⟩) hfinished]
  rcases hr : Store.takeFailure .commit c.store with ⟨e | _, store⟩ <;> rw [hr] at hdata
  · refine ⟨⟨rfl, ?_, rfl⟩, fun heq => by cases heq⟩
    exact (active_release_rollback store hfinished).trans (congrArg (· - 1) hdata.active)
  · refine ⟨⟨rfl, ?_, rfl⟩, fun heq => by cases heq⟩
    simp only [Staging.finish, Store.release_unfinished _ hfinished, Store.release_finished]
    exact congrArg (· - 1) hdata.active

theorem rollbackScope_ends (ht : c.slot = .active t) (hfinished : t.finished = false) :
    EndsScope c (rollbackScope c).2 ∧ (rollbackScope c).1 ≠ .error .noActiveTransaction := by
  unfold rollbackScope
  rw [ht]
  refine ⟨⟨rfl, active_release_rollback c.store hfinished, rfl⟩, ?_⟩
  dsimp only
  cases (Staging.rollback ⟨c.store, t⟩).1 <;> exact fun heq => by cases heq

theorem dropScope_ends (ht : c.slot = .active t) (hfinished : t.finished = false) :
    EndsScope c c.dropScope := by
  unfold dropScope
  rw [ht]
  exact ⟨rfl, congrArg (·.active) (Store.release_unfinished c.store hfinished), rfl⟩

end Ending

end Connection

end DocumentStore
