import DocumentStore.Proofs.Access.Endings
import DocumentStore.Proofs.Operation.Moves
set_option autoImplicit false

/-!
# What is written after the close

A closed deployment refuses operations, new transactions and the further reading of streams.  The
scopes that are open when it is closed can still be ended, and a commit asks nobody whether the
deployment is closed: it applies what the scope had staged by then.  Nothing else is written.
-/

namespace DocumentStore

namespace Connection

variable {c : Connection}

/-! ## Closed connections -/

theorem execute_closed (h : c.closed = true) {α : Type} (policy : Policy)
    (operation : OperationKind) (label : String) (body : Action Session α) :
    execute policy operation label body c = (.error .closed, c) := if_pos h

theorem beginScope_closed (h : c.closed = true) : beginScope c = (.error .closed, c) := if_pos h

/-- No calls are made on a closed connection. -/
theorem Chain.eq_of_closed {policy : Policy} {allowed : Write → Prop} {c' : Connection}
    (hchain : Chain policy allowed c c') (h : c.closed = true) : c' = c := by
  induction hchain with
  | refl => rfl
  | lookup keys label _ ih => rw [ih, Connection.lookup, execute_closed h]
  | query q _ ih => rw [ih, Connection.runQuery, execute_closed h]
  | put batch label _ _ ih => rw [ih, Connection.put, execute_closed h]
  | delete keys label _ _ ih => rw [ih, Connection.delete, execute_closed h]

end Connection

namespace Deployment

/-! ## Closed deployments -/

/-- Whether a deployment is closed, and has no open transactions but those that another one has. -/
structure ClosedWith (initial d : Deployment) : Prop where
  closed : d.closed = true
  slots : ∀ h t, d.slotOf h = .active t → initial.slotOf h = .active t

variable {initial d : Deployment}

namespace ClosedWith

theorem close (d : Deployment) : ClosedWith d d.close := ⟨rfl, fun _ _ h => h⟩

theorem withConnection (hd : initial.ClosedWith d) (h : Handle) {c : Connection}
    (hc : Connection.Ended (d.connection h) c) : initial.ClosedWith (d.withConnection h c) := by
  refine ⟨hc.closed.trans hd.closed, fun h' t ht => ?_⟩
  rw [slotOf_withConnection] at ht
  split at ht
  · next hsame =>
    have hslot : d.slotOf h' = d.slotOf h := congrArg (d.slots.getD · .idle) hsame.1
    apply hd.slots h' t
    rcases hc.slot with hkept | hended
    · rw [hslot, ← ht, hkept]
      rfl
    · rw [ht] at hended
      cases hended
  · exact hd.slots h' t ht

theorem unchanged (hd : initial.ClosedWith d) (h : Handle) {c : Connection}
    (hc : c = d.connection h) : initial.ClosedWith (d.withConnection h c) ∧
      (d.withConnection h c).store.documents = d.store.documents := by
  rw [hc, withConnection_connection]
  exact ⟨hd, rfl⟩

/-- What a step may do to a closed deployment. -/
theorem step {ι : Type} [RecordId ι] (hd : initial.ClosedWith d) (step : Step ι) :
    initial.ClosedWith (step.perform d).2 ∧
      ((step.perform d).2.store.documents = d.store.documents ∨
        ∃ h t, step = .commit h ∧ initial.slotOf h = .active t ∧
          (step.perform d).2.store.documents = Staging.applyStaged d.store.documents t) := by
  cases step with
  | openHandle kind =>
    refine ⟨⟨hd.closed, fun h t ht => hd.slots h t ?_⟩, .inl rfl⟩
    rw [← slotOf_openHandle d kind h]
    exact ht
  | operate h caller op =>
    have hchain : Connection.Chain h.settings.policy (fun _ => True) (d.connection h) _ :=
      op.perform_chain h.settings caller (d.context h) fun _ _ _ _ => trivial
    obtain ⟨hkept, hdocuments⟩ := hd.unchanged h (hchain.eq_of_closed hd.closed)
    exact ⟨⟨hkept.closed, hkept.slots⟩, .inl hdocuments⟩
  | begin h =>
    rw [Step.perform, Action.snd_bind_pure]
    have hrefused := congrArg Prod.snd (Connection.beginScope_closed (c := d.connection h) hd.closed)
    obtain ⟨hkept, hdocuments⟩ := hd.unchanged h hrefused
    exact ⟨hkept, .inl hdocuments⟩
  | commit h =>
    rw [Step.perform, Action.snd_bind_pure]
    obtain ⟨hended, hcommit⟩ := Connection.commitScope_cases (d.connection h)
    refine ⟨hd.withConnection h hended, ?_⟩
    rcases hcommit with ⟨t, hslot, -, hdocuments⟩ | ⟨-, hdocuments⟩
    · exact .inr ⟨h, t, rfl, hd.slots h t hslot, hdocuments⟩
    · exact .inl hdocuments
  | rollback h =>
    rw [Step.perform, Action.snd_bind_pure]
    obtain ⟨hended, hdocuments⟩ := Connection.rollbackScope_cases (d.connection h)
    exact ⟨hd.withConnection h hended, .inl hdocuments⟩
  | drop h =>
    obtain ⟨hended, hdocuments⟩ := Connection.dropScope_cases (d.connection h)
    exact ⟨hd.withConnection h hended, .inl hdocuments⟩
  | failNext point message => exact ⟨⟨hd.closed, hd.slots⟩, .inl rfl⟩
  | close => exact ⟨⟨rfl, hd.slots⟩, .inl rfl⟩

/-- What may happen to a closed deployment. -/
theorem happening (hd : initial.ClosedWith d) (x : Happening) :
    initial.ClosedWith (x.apply d) ∧
      ((∃ store, x = .others store) ∨ (x.apply d).store.documents = d.store.documents ∨
        ∃ h t, x.Commits h ∧ initial.slotOf h = .active t ∧
          (x.apply d).store.documents = Staging.applyStaged d.store.documents t) := by
  cases x with
  | move m =>
    cases m with
    | step s =>
      obtain ⟨hkept, hunchanged | ⟨h, t, rfl, hslot, happlied⟩⟩ := hd.step s
      · exact ⟨hkept, .inr (.inl hunchanged)⟩
      · exact ⟨hkept, .inr (.inr ⟨h, t, rfl, hslot, happlied⟩)⟩
    | pull h count stream huses =>
      obtain ⟨c, hchain, hpull⟩ := d.pull_eq h count huses
      obtain ⟨hkept, hdocuments⟩ := hd.unchanged h (hchain.eq_of_closed hd.closed)
      rw [← hpull] at hkept hdocuments
      exact ⟨hkept, .inr (.inl hdocuments)⟩
  | inquire q =>
    obtain ⟨s, hsurveyed, hd'⟩ := q.perform_eq d
    rw [Happening.apply, hd']
    exact ⟨⟨hd.closed, hd.slots⟩, .inr (.inl hsurveyed.documents)⟩
  | others store => exact ⟨⟨hd.closed, hd.slots⟩, .inl ⟨store, rfl⟩⟩

/-- Whatever happens, no transaction is opened any more. -/
theorem after (hd : initial.ClosedWith d) (happenings : List Happening) :
    initial.ClosedWith (d.after happenings) := by
  induction happenings generalizing d with
  | nil => exact hd
  | cons x rest ih => exact ih (hd.happening x).1

end ClosedWith

/-- After the close nothing that is done through a deployment changes the documents of the store, at
any time and whatever others do to the store in between, but for one thing: the commit of a scope that
was open when the deployment was closed applies what the scope had staged by then. -/
theorem documents_after_close (d : Deployment) (happenings : List Happening) (x : Happening) :
    (∃ store, x = .others store) ∨
      (x.apply (d.close.after happenings)).store.documents =
        (d.close.after happenings).store.documents ∨
      ∃ h t, x.Commits h ∧ d.slotOf h = .active t ∧
        (x.apply (d.close.after happenings)).store.documents =
          Staging.applyStaged (d.close.after happenings).store.documents t :=
  (((ClosedWith.close d).after happenings).happening x).2

/-- A record is written in a scope, which is left open. -/
def openScope : List (Step String) :=
  [.openHandle ⟨"order"⟩, .begin firstHandle,
    .operate firstHandle default (.write ⟨"a", [], .ofList []⟩)]

/-- The commit of a scope that was open when the deployment was closed writes its record. -/
theorem commit_after_close_writes :
    (run openScope freshDeployment).close.store.documents.size = 0 ∧
      ((Step.commit (ι := String) firstHandle).perform
        (run openScope freshDeployment).close).2.store.documents.size = 1 := by
  decide +kernel

end Deployment

end DocumentStore
