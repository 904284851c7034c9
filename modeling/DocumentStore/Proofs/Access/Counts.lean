import DocumentStore.Proofs.Access.Serving
import Mathlib.Algebra.Order.Floor.Div
set_option autoImplicit false

/-!
# Counted calls

The store counts every call it is asked for.  `CallCounts.bumps` says that some calls of one kind were
added and no others.  Work that is done in parts of at most `p` items takes `n ⌈/⌉ p` calls for `n`
items: one for the first part and then those for the rest.
-/

namespace DocumentStore

/-- Items that are more than none take one part and then the parts of the rest. -/
theorem ceilDiv_eq_succ {n p : Nat} (hp : 0 < p) (hn : 0 < n) : n ⌈/⌉ p = (n - p) ⌈/⌉ p + 1 := by
  simp only [Nat.ceilDiv_eq_add_pred_div]
  rcases Nat.le_total n p with hle | hle
  · have hnone : n - p + p - 1 < p := by omega
    have hsplit : n + p - 1 = n - 1 + p := by omega
    rw [Nat.div_eq_of_lt hnone, hsplit, Nat.add_div_right _ hp, Nat.div_eq_of_lt (by omega)]
  · have hsplit : n + p - 1 = n - p + p - 1 + p := by omega
    rw [hsplit, Nat.add_div_right _ hp]

namespace CallCounts

/-- So many more calls of one kind. -/
def bumps (c : CallCounts) (kind : CallKind) : Nat → CallCounts
  | 0 => c
  | n + 1 => (c.bump kind).bumps kind n

@[simp] theorem bumps_zero (c : CallCounts) (kind : CallKind) : c.bumps kind 0 = c := rfl

theorem bumps_bumps (c : CallCounts) (kind : CallKind) (n m : Nat) :
    (c.bumps kind n).bumps kind m = c.bumps kind (n + m) := by
  induction n generalizing c with
  | zero => rw [Nat.zero_add, bumps_zero]
  | succ n ih => rw [Nat.succ_add, bumps, bumps, ih]

theorem of_bump (c : CallCounts) (kind k : CallKind) :
    (c.bump kind).of k = c.of k + if k = kind then 1 else 0 := by
  cases kind <;> cases k <;> rfl

/-- The calls of the one kind are more by as many, and those of the others are as many as before. -/
theorem of_bumps (c : CallCounts) (kind k : CallKind) (n : Nat) :
    (c.bumps kind n).of k = c.of k + if k = kind then n else 0 := by
  induction n generalizing c with
  | zero => simp
  | succ n ih =>
    rw [bumps, ih, of_bump]
    split <;> omega

end CallCounts

/-! ## Calls of operations that read -/

namespace Store

theorem calls_admission (kind : CallKind) (count : Nat) (s : Store) :
    (admission kind count s).2.calls = s.calls.bump kind := by
  rw [admission_apply]
  dsimp only
  split
  · rfl
  · split
    · split <;> rfl
    · rfl

theorem calls_runQuery (q : EntityQuery) (s : Store) :
    (runQuery q s).2.calls = s.calls.bump .query := by
  rw [runQuery_eq, Action.bind_apply, ← calls_admission .query 0 s]
  rcases admission .query 0 s with ⟨_ | _, s'⟩
  · rfl
  · dsimp only
    rw [Action.bind_apply, Action.ofOutcome]
    cases startOffset q <;> rfl

end Store

/-- Calls that are counted in a certain way, straight on a store that answers or in a transaction. -/
def Session.CountedAs {α : Type} (store : Store) (body : Action Session α)
    (count : CallCounts → CallCounts) : Prop :=
  ∀ s : Session, Store.Calm store s.store → (∀ t, s.transaction = some t → t.finished = false) →
    (body s).2.store.calls = count s.store.calls

theorem Session.runQuery_countedAs (store : Store) (q : EntityQuery) :
    CountedAs store (Session.runQuery q) (·.bump .query) := by
  intro s _ hunfinished
  have hcalls := Store.calls_runQuery q s.store
  rw [Session.runQuery, Session.call]
  cases ht : s.transaction with
  | none => exact hcalls
  | some t =>
    dsimp only
    rw [Staging.runQuery_unfinished (hunfinished t ht)]
    exact hcalls

namespace Connection.Serves

variable {α : Type} {store : Store} {c : Connection} {body : Action Session α} {a : α}
  {count : CallCounts → CallCounts}

/-- An operation that reads makes the calls of its body and no others, under either policy. -/
theorem calls_execute (h : Serves store c) (hbody : Session.ReadsAs store body a)
    (hcount : Session.CountedAs store body count) (policy : Policy) (operation : OperationKind)
    (label : String) :
    (Connection.execute policy operation label body c).2.store.calls = count c.store.calls := by
  have hstraight : (Connection.executeDirectly label body c).2.store.calls = count c.store.calls :=
    hcount (c.session none) h.calm (by intro t ht; cases ht)
  have halone : (Connection.executeAlone operation label body c).2.store.calls =
      count c.store.calls := by
    have hcalls := hcount c.begun h.begun_calm c.begun_unfinished
    obtain ⟨s', hrun, hcalm, htransaction⟩ := hbody c.begun h.begun_calm c.begun_unfinished
    obtain ⟨c', hexecute, -, hkept⟩ := h.alone hrun hcalm htransaction operation label
    rw [hrun] at hcalls
    rw [hexecute]
    exact hkept.trans hcalls
  rw [Connection.execute, if_neg (by simp [h.isOpen])]
  cases hslot : c.slot with
  | active t =>
    refine hcount (c.session (some t)) h.calm fun t' ht => ?_
    exact h.unfinished t' (by rw [hslot, Option.some.inj ht])
  | idle | committed | rolledBack =>
    dsimp only
    split
    · exact halone
    · exact hstraight

/-- Asking for a page is one call. -/
theorem calls_runQuery (h : Serves store c) (policy : Policy) {q : EntityQuery} {offset : Nat}
    (hstart : Store.startOffset q = .ok offset) :
    (Connection.runQuery policy q c).2.store.calls = c.store.calls.bump .query :=
  h.calls_execute (Session.runQuery_readsAs hstart) (Session.runQuery_countedAs store q) policy .read
    q.describe

end Connection.Serves

end DocumentStore
