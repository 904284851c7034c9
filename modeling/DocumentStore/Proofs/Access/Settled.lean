import DocumentStore.Access.Context
import DocumentStore.Proofs.Access.Answers
import DocumentStore.Proofs.Access.Refusals
set_option autoImplicit false

/-!
# Writes once they are committed

What is written in an explicit transaction is staged, and queries do not find it before the transaction
is committed.  Seen from there it makes no difference: an operation that is answered leaves, once an
explicit transaction is committed if there is one, what it would have left had that been committed
before.
-/

namespace DocumentStore

namespace Staging

/-- Staging more and applying all is applying what was staged and then the rest. -/
theorem applyStaged_stageAll (documents : SortedMap Key Properties) (t : Transaction)
    (ws : List Write) :
    applyStaged documents (stageAll t ws) = Write.applyAll (applyStaged documents t) ws := by
  have hstaged : t.staged = SortedMap.ofList t.staged.entries := (SortedMap.ofList_entries _).symm
  rw [applyStaged_eq_applyAll (staged_stageAll_ofList hstaged ws), Write.applyAll_append]
  rfl

end Staging

namespace Connection

/-- Commits the explicit transaction, if there is one. -/
def settle : Action Connection Unit := fun c =>
  if c.slot.isActive then commitScope c else (.ok (), c)

/-- The connection with its explicit transaction committed, if there is one. -/
def settled (c : Connection) : Connection := (settle c).2

variable {c : Connection}

theorem settle_of_inactive (h : c.slot.isActive = false) : settle c = (.ok (), c) := by
  rw [settle, h]
  rfl

theorem settle_of_active {t : Transaction} (ht : c.slot = .active t) (hfinished : t.finished = false)
    (hcalm : c.store.failures = []) :
    settle c = (.ok (), { c with
      store := { c.store with
        documents := Staging.applyStaged c.store.documents t, active := c.store.active - 1 }
      metrics := c.metrics.record true, slot := .committed }) := by
  have hcommit := Staging.commit_unfinished (g := ⟨c.store, t⟩) hfinished
  rw [Store.takeFailure_of_nil hcalm] at hcommit
  rw [settle, commitScope, ht]
  dsimp only [Slot.isActive, if_true]
  rw [hcommit]
  simp only [if_true, Staging.finish, Store.release_unfinished _ hfinished, Store.release_finished]

/-- A connection that answers commits its explicit transaction, and answers then. -/
theorem Serves.settle (hc : c.Serves c.store) :
    Connection.settle c = (.ok (), c.settled) ∧ c.settled.Serves c.settled.store ∧
      c.settled.store.pageLimit = c.store.pageLimit := by
  cases hslot : c.slot with
  | active t =>
    have hsettle := settle_of_active hslot (hc.unfinished t hslot) hc.calm.failures
    have hsettled : c.settled = _ := congrArg Prod.snd hsettle
    rw [hsettled]
    exact ⟨hsettle, ⟨.refl hc.calm.failures, hc.isOpen, fun t ht => (by cases ht)⟩, rfl⟩
  | idle | committed | rolledBack =>
    have hidle : c.slot.isActive = false := by rw [hslot]; rfl
    have hsettle := settle_of_inactive hidle
    have hsettled : c.settled = c := congrArg Prod.snd hsettle
    rw [hsettled]
    exact ⟨hsettle, hc, rfl⟩

variable {α : Type} {body : Action Session α} {ws : List Write} {a : α}

/-- A connection that answers still does after writes without a failure. -/
theorem Serves.of_wrote {c' : Connection} (hc : c.Serves c.store) (hidle : c.slot.isActive = false)
    (hwrote : Wrote ws c c') (hunfailed : Unfailed c c') : c'.Serves c'.store :=
  .of_inactive (.refl (hunfailed.waiting.trans hc.calm.failures)) (hwrote.closed.trans hc.isOpen)
    (hwrote.slot ▸ hidle)

/-- An operation that is answered leaves its writes, whether it is made in an explicit transaction, in
one of its own or in none. -/
theorem Serves.execute_settled (hc : c.Serves c.store) (hbody : Session.Performs body ws)
    (hanswer : ∀ s : Session, s.Unfinished → Store.Calm c.store s.store → (body s).1 = .ok a)
    (policy : Policy) (operation : OperationKind) (label : String) :
    ∃ c', Connection.execute policy operation label body c = (.ok a, c') ∧ c'.Serves c'.store ∧
      Store.SameData (c.settled.store.write ws) c'.settled.store := by
  cases hactive : c.slot.isActive with
  | false =>
    obtain ⟨c', hexecute, hwrote, hunfailed⟩ := execute_ok hc.isOpen hactive hc.calm.failures hbody
      (hanswer (c.session none) (.of_none rfl) hc.calm)
      (hanswer c.begun c.begun_unfinished hc.begun_calm) policy operation label
    refine ⟨c', hexecute, hc.of_wrote hactive hwrote hunfailed, ?_⟩
    rw [settled, settle_of_inactive hactive, settled, settle_of_inactive (hwrote.slot ▸ hactive)]
    exact hwrote.sameData
  | true =>
    obtain ⟨t, ht⟩ : ∃ t, c.slot = .active t := by
      cases hslot : c.slot with
      | active t => exact ⟨t, rfl⟩
      | idle | committed | rolledBack =>
        rw [hslot] at hactive
        cases hactive
    have hfinished := hc.unfinished t ht
    have hunfinished : (c.session (some t)).Unfinished := .of_some rfl hfinished
    have hok := hanswer _ hunfinished hc.calm
    obtain ⟨⟨done, -, ⟨htransaction, hdata⟩, hdone⟩, hunfailed, -⟩ := hbody _ hunfinished
    rw [Connection.execute, if_neg (by simp [hc.isOpen]), ht]
    dsimp only
    unfold Connection.executeIn
    rcases hr : body (c.session (some t)) with ⟨r, s⟩
    rw [hr] at hok htransaction hdata hdone hunfailed
    obtain rfl : r = .ok a := hok
    obtain rfl := hdone a rfl
    have hcalm : s.store.failures = [] := (hunfailed a rfl).waiting.trans hc.calm.failures
    have hslot : s.transaction.getD t = Staging.stageAll t done := congrArg (·.getD t) htransaction
    have hstaged : (Staging.stageAll t done).finished = false :=
      (Staging.stageAll_finished ..).trans hfinished
    refine ⟨{ c.after s with slot := .active (s.transaction.getD t) }, rfl,
      ⟨.refl hcalm, hc.isOpen, fun t' ht' => ?_⟩, ?_⟩
    · obtain rfl := Slot.active.inj ht'
      rw [hslot]
      exact hstaged
    · rw [settled, settle_of_active ht hfinished hc.calm.failures, settled,
        settle_of_active (congrArg Slot.active hslot) hstaged hcalm]
      refine ⟨?_, hdata.limits, hdata.pageLimit, congrArg (· - 1) hdata.active⟩
      exact (congrArg (Staging.applyStaged · _) hdata.documents).trans
        (Staging.applyStaged_stageAll c.store.documents t done)

/-- Entities that are put are stored, in calls of any size that the store lets in. -/
theorem Serves.put_settled (hc : c.Serves c.store) {policy : Policy} {batch : List Entity}
    (hroom : min (max policy.limits.write 1) batch.length ≤ c.store.limits.write) (label : String) :
    ∃ c', put policy batch label c = (.ok (), c') ∧ c'.Serves c'.store ∧
      Store.SameData (c.settled.store.write (Write.ofEntities batch)) c'.settled.store := by
  refine hc.execute_settled (Session.put_performs policy.limits batch) (fun s hs hcalm => ?_) policy
    .write label
  refine Session.put_ok hs ⟨by rw [hcalm.failures]; rfl, fun limit hlimit => ?_⟩
  obtain rfl := Option.some.inj hlimit
  exact hcalm.limits ▸ hroom

/-- Without an explicit transaction keys are deleted at once, in calls of any size that the store lets
in. -/
theorem Serves.delete_wrote (hc : c.Serves c.store) (hidle : c.slot.isActive = false) {policy : Policy}
    {keys : List Key}
    (hroom : min (max policy.limits.write 1) keys.length ≤ c.store.limits.write) (label : String) :
    ∃ c', delete policy keys label c = (.ok (), c') ∧ c'.Serves c'.store ∧
      Wrote (Write.ofDeleted keys) c c' := by
  have hadmits {store : Store} (hcalm : Store.Calm c.store store) :
      store.Admits .delete (min (max policy.limits.write 1) keys.length) := by
    refine ⟨by rw [hcalm.failures]; rfl, fun limit hlimit => ?_⟩
    obtain rfl := Option.some.inj hlimit
    exact hcalm.limits ▸ hroom
  obtain ⟨c', hdelete, hwrote, hunfailed⟩ := execute_ok hc.isOpen hidle hc.calm.failures
    (Session.delete_performs policy.limits keys)
    (Session.delete_ok (.of_none rfl) (hadmits hc.calm))
    (Session.delete_ok c.begun_unfinished (hadmits hc.begun_calm)) policy .write label
  exact ⟨c', hdelete, hc.of_wrote hidle hwrote hunfailed, hwrote⟩

end Connection

/-- Commits the explicit transaction of a handle, if there is one. -/
def Context.settle : Action Context Unit := Context.onConnection Connection.settle

end DocumentStore
