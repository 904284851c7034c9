import DocumentStore.Proofs.Access.Atomic
import DocumentStore.Proofs.Access.Chains
set_option autoImplicit false

/-!
# What a chain of calls leaves

On a connection without an explicit transaction a chain of calls applies some of the writes that it is
allowed, and changes nothing else of the store's data.  A chain that is allowed no writes has only
read.
-/

namespace DocumentStore.Connection

/-- Whether writes were applied, and nothing else of a connection's data was changed. -/
structure Wrote (ws : List Write) (c c' : Connection) : Prop where
  closed : c'.closed = c.closed
  slot : c'.slot = c.slot
  sameData : Store.SameData (c.store.write ws) c'.store

theorem Wrote.refl (c : Connection) : Wrote [] c c := ⟨rfl, rfl, .refl _⟩

theorem Wrote.trans {ws more : List Write} {c c' c'' : Connection} (h : Wrote ws c c')
    (h' : Wrote more c' c'') : Wrote (ws ++ more) c c'' where
  closed := h'.closed.trans h.closed
  slot := h'.slot.trans h.slot
  sameData := by
    rw [Store.write_append]
    exact (h.sameData.write more).trans h'.sameData

/-- An operation has made the first ones of its writes, or all of them. -/
theorem execute_wrote {α : Type} {body : Action Session α} {ws : List Write}
    (hbody : Session.Performs body ws) {c : Connection} (hidle : c.slot.isActive = false)
    (policy : Policy) (operation : OperationKind) (label : String) :
    ∃ done, done <+: ws ∧ Wrote done c (execute policy operation label body c).2 := by
  cases hclosed : c.closed with
  | true =>
    rw [execute, if_pos hclosed]
    exact ⟨[], List.nil_prefix, .refl c⟩
  | false =>
    rw [execute_of_inactive hclosed hidle]
    split
    · obtain ⟨hall, -⟩ := executeAlone_allOrNothing hbody operation label c
      cases hr : (executeAlone operation label body c).1 with
      | error e => exact ⟨[], List.nil_prefix, hall.closed, hall.slot, (hall.undone e hr).1⟩
      | ok a => exact ⟨ws, List.prefix_refl _, hall.closed, hall.slot, (hall.done a hr).1⟩
    · have hunfinished : (c.session none).Unfinished := .of_none rfl
      obtain ⟨done, hamong, ⟨-, hdata⟩, -⟩ := (hbody _ hunfinished).effect
      exact ⟨done, hamong, rfl, rfl, hdata⟩

/-- An operation that answered has made all of its writes, and met no failure. -/
theorem wrote_of_execute_ok {α : Type} {body : Action Session α} {ws : List Write}
    (hbody : Session.Performs body ws) {c c' : Connection} (hidle : c.slot.isActive = false)
    {policy : Policy} {operation : OperationKind} {label : String} {a : α}
    (h : execute policy operation label body c = (.ok a, c')) : Wrote ws c c' ∧ Unfailed c c' := by
  cases hclosed : c.closed with
  | true =>
    rw [execute, if_pos hclosed] at h
    cases h
  | false =>
    rw [execute_of_inactive hclosed hidle] at h
    split at h
    · obtain ⟨hall, -⟩ := executeAlone_allOrNothing hbody operation label c
      rw [h] at hall
      obtain ⟨hdata, hunfailed⟩ := hall.done a rfl
      exact ⟨⟨hall.closed, hall.slot, hdata⟩, hunfailed⟩
    · have hunfinished : (c.session none).Unfinished := .of_none rfl
      obtain ⟨⟨done, -, ⟨-, hdata⟩, hdone⟩, hunfailed, -⟩ := hbody _ hunfinished
      unfold executeDirectly at h
      rcases hr : body (c.session none) with ⟨e | a', s⟩ <;> rw [hr] at h hdata hdone hunfailed
      · cases h
      · obtain rfl := hdone a' rfl
        obtain ⟨hwaiting, hcounted⟩ := hunfailed a' rfl
        cases h
        exact ⟨⟨rfl, rfl, hdata⟩, hwaiting, hcounted⟩

section Chain

variable {policy : Policy} {allowed : Write → Prop} {c c' : Connection}

theorem Chain.wrote (h : Chain policy allowed c c') (hidle : c.slot.isActive = false) :
    ∃ done, (∀ w ∈ done, allowed w) ∧ Wrote done c c' := by
  have hcall {α : Type} {body : Action Session α} {ws : List Write} {c' : Connection}
      (hbody : Session.Performs body ws) (hws : ∀ w ∈ ws, allowed w)
      (operation : OperationKind) (label : String)
      (ih : ∃ done, (∀ w ∈ done, allowed w) ∧ Wrote done c c') :
      ∃ done, (∀ w ∈ done, allowed w) ∧
        Wrote done c (execute policy operation label body c').2 := by
    obtain ⟨before, hbefore, hwrote⟩ := ih
    obtain ⟨done, hamong, hmore⟩ :=
      execute_wrote hbody (hwrote.slot ▸ hidle) policy operation label
    refine ⟨before ++ done, fun w hw => ?_, hwrote.trans hmore⟩
    rcases List.mem_append.mp hw with hw | hw
    · exact hbefore w hw
    · exact hws w (hamong.subset hw)
  have hnone : ∀ w ∈ ([] : List Write), allowed w := fun w hw => by cases hw
  induction h with
  | refl => exact ⟨[], hnone, .refl c⟩
  | lookup keys label _ ih => exact hcall (Session.lookup_performs _ keys) hnone .read label ih
  | query q _ ih => exact hcall (Session.runQuery_performs q) hnone .read _ ih
  | put batch label hbatch _ ih => exact hcall (Session.put_performs _ batch) hbatch .write label ih
  | delete keys label hkeys _ ih => exact hcall (Session.delete_performs _ keys) hkeys .write label ih

/-- A chain that is allowed no writes. -/
theorem Chain.read (h : Chain policy (fun _ => False) c c') (hidle : c.slot.isActive = false) :
    Wrote [] c c' := by
  obtain ⟨done, hdone, hwrote⟩ := h.wrote hidle
  cases done with
  | nil => exact hwrote
  | cons w rest => exact (hdone w (List.mem_cons_self ..)).elim

end Chain

end DocumentStore.Connection
