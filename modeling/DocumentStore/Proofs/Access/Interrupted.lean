import DocumentStore.Proofs.Access.Chunks
import DocumentStore.Proofs.Access.Paging
import DocumentStore.Proofs.Access.Wrote
import DocumentStore.Proofs.Store.Removal
set_option autoImplicit false

/-!
# Pages and deletions that fail

Straight on the store every page of a walk and every part of a bulk deletion is a call of its own, and
each can meet a failure that waited for it.  A pull that fails has changed nothing, and says so.  A
deletion that fails has deleted what came before the part that failed, and nothing else.
-/

namespace DocumentStore

/-! ## Pages -/

theorem Store.page_congr {s s' : Store} (h : SameData s s') (q : EntityQuery) (offset : Nat) :
    s'.page q offset = s.page q offset := by
  simp only [page, results_congr h.documents q, h.pageLimit]

/-- A query that starts at a place is answered with the page from there, or refused. -/
theorem Store.runQuery_cases {q : EntityQuery} {offset : Nat} (hstart : startOffset q = .ok offset)
    (s : Store) :
    ∃ s', SameData s s' ∧
      (runQuery q s = (.ok (s.page q offset), s') ∨ ∃ e, runQuery q s = (.error e, s')) := by
  have hdata := sameData_admission .query 0 s
  rw [runQuery_eq]
  rcases hr : admission .query 0 s with ⟨e | _, s'⟩ <;> rw [hr] at hdata
  · exact ⟨s', hdata, .inr ⟨e, Action.bind_error hr⟩⟩
  · refine ⟨s', hdata, .inl ?_⟩
    rw [Action.bind_ok hr, Action.bind_apply, Action.ofOutcome, hstart, ← page_congr hdata]
    rfl

namespace Connection

variable {policy : Policy} {c c' : Connection}

/-- The connection after others have let its store fail later. -/
def told (c : Connection) (failures : List (FailurePoint × String)) : Connection :=
  { c with store := c.store.told failures }

theorem wrote_told (c : Connection) (failures : List (FailurePoint × String)) :
    Wrote [] c (c.told failures) := by
  refine ⟨rfl, rfl, ?_⟩
  rw [told, Store.told_eq]
  exact ⟨rfl, rfl, rfl, rfl⟩

theorem Direct.of_wrote {ws : List Write} (hc : c.Direct policy) (h : Wrote ws c c') :
    c'.Direct policy :=
  ⟨h.closed.trans hc.isOpen, h.slot ▸ hc.inactive, hc.policy⟩

/-- Straight on the store a query gives the page from its start, or fails and is counted. -/
theorem Direct.runQuery_cases (hc : c.Direct policy) {q : EntityQuery} {offset : Nat}
    (hstart : Store.startOffset q = .ok offset) :
    ∃ r c', runQuery policy q c = (r, c') ∧ Wrote [] c c' ∧
      ((r = .ok (c.store.page q offset) ∧ c'.metrics.failures = c.metrics.failures) ∨
        ∃ e, r = .error e ∧ c'.metrics.failures = c.metrics.failures.bump .query) := by
  obtain ⟨store, hdata, hquery | ⟨e, hquery⟩⟩ := Store.runQuery_cases hstart c.store <;>
    rw [runQuery, execute_of_inactive hc.isOpen hc.inactive, if_neg (by simp [hc.policy]),
      executeDirectly, Session.runQuery, Session.call] <;>
    dsimp only [session] <;>
    rw [hquery]
  · exact ⟨_, _, rfl, ⟨rfl, rfl, hdata⟩, .inl ⟨rfl, rfl⟩⟩
  · exact ⟨_, _, rfl, ⟨rfl, rfl, hdata⟩, .inr ⟨_, rfl, rfl⟩⟩

end Connection

namespace Walk

open Connection (Wrote)

variable {store : Store} {w : Walk} {rest : List Entity} {c : Connection}

/-- What a pull gives that can meet a failure: the first of the entities to come, or the failure. -/
inductive Meets (store : Store) (policy : Policy) (rest : List Entity) (c : Connection) :
    Pulled Walk × Connection → Prop
  | given {w' : Walk} {c' : Connection} (hwrote : Wrote [] c c')
    (hcounted : c'.metrics.failures = c.metrics.failures) (hpolicy : w'.policy = policy)
    (hpending : w'.Pending store rest.tail) :
    Meets store policy rest c (⟨rest.head?.map .ok, w'⟩, c')
  | failed {e : StorageError} {w' : Walk} {c' : Connection} (hwrote : Wrote [] c c')
    (hcounted : c'.metrics.failures = c.metrics.failures.bump .query) :
    Meets store policy rest c (⟨some (.error e), w'⟩, c')

/-- A pull straight on a store with the same data. -/
theorem Pending.pull_meets (h : Pending store w rest) (hstore : store.WellSized)
    (hc : c.Direct w.policy) (hdata : Store.SameData store c.store) :
    Meets store w.policy rest c (w.pull c) := by
  have hpolicy := w.pull_policy c
  rcases w.pull_cases c with ⟨hat, hp⟩ | ⟨hat, hover, hp⟩ | ⟨hat, hover, r, c', hr, hfetched⟩
  · obtain ⟨hitem, hpending⟩ := h.takeAtHand_eq fun hnone => absurd hnone hat
    rw [hp] at hpolicy ⊢
    rcases htake : w.takeAtHand with ⟨item, w'⟩
    rw [htake] at hitem hpending hpolicy
    obtain rfl : item = _ := hitem
    exact .given (.refl c) rfl hpolicy hpending
  · rw [hp, h.of_isOver hat hover]
    exact .given (.refl c) rfl rfl h.finish
  · obtain ⟨offset, hstart, hrest⟩ := h.place
    rw [hat, List.nil_append] at hrest
    obtain ⟨r', c'', hquery, hwrote, hcases⟩ := hc.runQuery_cases
      (q := { w.query with limit := some w.nextLimit }) hstart
    obtain ⟨rfl, rfl⟩ := Prod.mk.inj (hr.symm.trans hquery)
    rcases hcases with ⟨rfl, hcounted⟩ | ⟨e, rfl, hcounted⟩
    · rcases hfetched with ⟨e, he, -⟩ | ⟨page, hpage, hp⟩
      · cases he
      · obtain rfl := Except.ok.inj hpage
        have harrived := Pending.arrive hstore h.pageSize hover offset
        rw [← Store.page_congr hdata] at harrived
        obtain ⟨hitem, hpending⟩ := harrived.takeAtHand_eq fun hnone => by
          simp only [Walk.arrive] at hnone ⊢
          rw [hnone]
          simp
        rw [hp] at hpolicy ⊢
        subst hrest
        rcases htake : (w.arrive _).takeAtHand with ⟨item, w'⟩
        rw [htake] at hitem hpending hpolicy
        obtain rfl : item = _ := hitem
        exact .given hwrote hcounted hpolicy hpending
    · rcases hfetched with ⟨e', -, hp⟩ | ⟨page, hpage, -⟩
      · rw [hp]
        exact .failed hwrote hcounted
      · cases hpage

end Walk

/-! ## Deletions -/

namespace Session

/-- How the calls for the parts of a deletion end: all of them succeed, or one fails and is the last. -/
inductive Deletes (parts : List (List Key)) (s : Session) : Outcome (List Unit) × Session → Prop
  | all {answers : List Unit} {s' : Session}
    (hdata : Store.SameData (s.store.write (Write.ofDeleted parts.flatten)) s'.store)
    (hcounted : s'.metrics.failures = s.metrics.failures) : Deletes parts s (.ok answers, s')
  | stopped {e : StorageError} {s' : Session} (k : Nat) (hk : k < parts.length)
    (hdata : Store.SameData (s.store.write (Write.ofDeleted (parts.take k).flatten)) s'.store)
    (hcounted : s'.metrics.failures = s.metrics.failures.bump .delete) :
    Deletes parts s (.error e, s')

/-- The call for one part, straight on the store. -/
theorem deletePart_cases (part : List Key) {s : Session} (h : s.transaction = none) :
    ∃ s', s'.transaction = none ∧
      ((deletePart part s = (.ok (), s') ∧
          Store.SameData (s.store.write (Write.ofDeleted part)) s'.store ∧
          s'.metrics.failures = s.metrics.failures) ∨
        ∃ e, deletePart part s = (.error e, s') ∧ Store.SameData s.store s'.store ∧
          s'.metrics.failures = s.metrics.failures.bump .delete) := by
  have hdata := Store.sameData_admission .delete part.length s.store
  rw [deletePart, call, h]
  dsimp only
  rw [(delete_writes part).onStore]
  rcases hr : Store.admission .delete part.length s.store with ⟨e | _, store⟩ <;> rw [hr] at hdata
  · exact ⟨_, rfl, .inr ⟨e, rfl, hdata, rfl⟩⟩
  · exact ⟨_, rfl, .inl ⟨rfl, hdata.write _, rfl⟩⟩

theorem amid_deletePart (failures : Nat → List (FailurePoint × String)) (parts : List (List Key))
    {s : Session} (h : s.transaction = none) : Deletes parts s (amid failures deletePart parts s) := by
  induction parts generalizing failures s with
  | nil => exact .all (.refl _) rfl
  | cons part rest ih =>
    let told : Session := { s with store := s.store.told (failures 0) }
    have htold : Store.SameData s.store told.store := by
      rw [show told.store = _ from Store.told_eq s.store (failures 0)]
      exact ⟨rfl, rfl, rfl, rfl⟩
    have hamid : amid failures deletePart (part :: rest) s =
        (deletePart part >>= fun b => amid (fun i => failures (i + 1)) deletePart rest >>=
          fun bs => pure (b :: bs)) told := rfl
    obtain ⟨s₁, hnone, ⟨hcall, hdata, hcounted⟩ | ⟨e, hcall, hdata, hcounted⟩⟩ :=
      deletePart_cases part (s := told) h
    · rw [hamid, Action.bind_ok hcall, Action.bind_apply]
      have hfirst := (htold.write (Write.ofDeleted part)).trans hdata
      have hrest := ih (fun i => failures (i + 1)) hnone
      rcases hr : amid (fun i => failures (i + 1)) deletePart rest s₁ with ⟨r, s₂⟩
      rw [hr] at hrest
      have hwrite (more : List Key) (hmore : Store.SameData (s₁.store.write (Write.ofDeleted more)) s₂.store) :
          Store.SameData (s.store.write (Write.ofDeleted (part ++ more))) s₂.store := by
        rw [Write.ofDeleted_append, Store.write_append]
        exact (hfirst.write _).trans hmore
      cases hrest with
      | all hdata' hcounted' =>
        exact .all (hwrite _ hdata') (hcounted'.trans hcounted)
      | stopped k hk hdata' hcounted' =>
        refine .stopped (k + 1) (Nat.succ_lt_succ hk) ?_ (hcounted'.trans (congrArg (·.bump .delete) hcounted))
        rw [List.take_succ_cons, List.flatten_cons]
        exact hwrite _ hdata'
    · rw [hamid, Action.bind_error hcall]
      exact .stopped 0 (Nat.succ_pos _) (htold.trans hdata) hcounted

end Session

namespace Connection

variable {policy : Policy} {c : Connection}

/-- How a deletion straight on the store ends: everything is deleted, or a call fails, with the keys
before it deleted and no others. -/
theorem Direct.delete_amid (hc : c.Direct policy) (failures : Nat → List (FailurePoint × String))
    (keys : List Key) (label : String) :
    ∃ c', (Connection.bulk failures policy .write policy.limits.write Session.deletePart (fun _ => ()) keys label c =
          (.ok (), c') ∧ Wrote (Write.ofDeleted keys) c c' ∧
          c'.metrics.failures = c.metrics.failures) ∨
        ∃ e k, Connection.bulk failures policy .write policy.limits.write Session.deletePart (fun _ => ()) keys label c =
            (.error e, c') ∧ k < keys.length ∧ Wrote (Write.ofDeleted (keys.take k)) c c' ∧
          c'.metrics.failures = c.metrics.failures.bump .delete := by
  have hdeletes := Session.amid_deletePart failures (chunks policy.limits.write keys)
    (s := c.session none) rfl
  rw [Connection.bulk, execute_of_inactive hc.isOpen hc.inactive, if_neg (by simp [hc.policy]),
    executeDirectly, map_eq_pure_bind, Action.bind_apply]
  rcases hr : Session.amid failures Session.deletePart (chunks policy.limits.write keys)
    (c.session none) with ⟨r, s⟩
  rw [hr] at hdeletes
  cases hdeletes with
  | all hdata hcounted =>
    rw [flatten_chunks] at hdata
    exact ⟨c.after s, .inl ⟨rfl, ⟨rfl, rfl, hdata⟩, hcounted⟩⟩
  | stopped k hk hdata hcounted =>
    rw [flatten_take_chunks] at hdata
    exact ⟨c.after s, .inr ⟨_, _, rfl, mul_lt_length_of_lt hk, ⟨rfl, rfl, hdata⟩, hcounted⟩⟩

end Connection

end DocumentStore
