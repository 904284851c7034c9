import DocumentStore.Proofs.Access.Congruence
import DocumentStore.Proofs.Access.Refusals
import DocumentStore.Proofs.Operation.Moves
import DocumentStore.Proofs.Operation.Simulation
set_option autoImplicit false

/-!
# Failed bulk writes in explicit transactions

A bulk write that fails in an explicit transaction has staged nothing, however many chunks it was to
be written in.  What is left of it are counters, which nobody can observe through the handles, and
that a failure waiting for it is used up.  Whatever is done with the deployment afterwards is answered
as if the write had never been asked for, and so are the documents when the transaction is committed.
-/

namespace DocumentStore

open DocumentStore.Action (Respects)

/-! ## Streams of one policy -/

theorem EntityStream.withPolicy_eq_self {policy : Policy} {s : EntityStream} (h : s.Uses policy) :
    s.withPolicy policy = s := by
  have hwalks {walks : List Walk} (hwalks : ∀ w ∈ walks, w.policy = policy) :
      walks.map (·.withPolicy policy) = walks := by
    refine (List.map_congr_left fun w hw => ?_).trans (List.map_id walks)
    rw [← hwalks w hw]
    rfl
  cases s with
  | walk w => exact congrArg EntityStream.walk (congrArg (w.withPolicy ·) (Eq.symm h))
  | sifted sieve seen walks => exact congrArg (EntityStream.sifted sieve seen) (hwalks h)
  | merged walks order limit => exact congrArg (EntityStream.merged · order limit) (hwalks h)
  | found own label keys filters order limit =>
    exact congrArg (EntityStream.found · label keys filters order limit) (Eq.symm h)
  | ended | failing | ready => rfl

theorem ItemStream.withPolicy_eq_self {α : Type} {policy : Policy} {s : ItemStream α}
    (h : s.source.Uses policy) : s.withPolicy policy = s :=
  congrArg (ItemStream.mk · s.read) (EntityStream.withPolicy_eq_self h)

/-! ## Refused calls -/

/-- Whether calls have left the data of the store and the explicit transaction as they were, and used
up at most one failure that waited for such calls. -/
structure Connection.Refused (kind : CallKind) (c c' : Connection) : Prop where
  closed : c'.closed = c.closed
  slot : c'.slot = c.slot
  sameData : Store.SameData c.store c'.store
  failures : c'.store.failures = c.store.failures ∨
    c'.store.failures = c.store.failures.eraseP (·.1 = .call kind)

namespace Connection

theorem Refused.refl (kind : CallKind) (c : Connection) : c.Refused kind c :=
  ⟨rfl, rfl, .refl _, .inl rfl⟩

/-- A bulk write that fails in the handle's explicit transaction. -/
theorem put_refused {policy : Policy} {batch : List Entity} {label : String} {c c' : Connection}
    {t : Transaction} (hactive : c.slot = .active t) {e : StorageError}
    (h : put policy batch label c = (.error e, c')) : c.Refused .put c' := by
  unfold put execute at h
  split at h
  · cases h
    exact .refl ..
  · rw [hactive] at h
    dsimp only [executeIn] at h
    rcases hr : Session.put policy.limits batch (c.session (some t)) with ⟨e' | _, s⟩ <;> rw [hr] at h
    · obtain ⟨htransaction, hdata, hfailures⟩ := Session.put_refused hr
      cases h
      refine ⟨rfl, ?_, hdata, hfailures⟩
      dsimp only
      rw [htransaction, hactive]
      rfl
    · cases h

end Connection

/-! ## Bulk writes -/

namespace Operation

variable {ι : Type}

variable [RecordId ι]

theorem perform_related (op : Operation ι) (settings : HandleSettings) (caller : Caller) :
    Respects (Context.Related (Connection.Related Store.SameState)) (op.perform settings caller) := by
  intro s s' hs
  obtain ⟨hanswer, hstate⟩ := op.perform_matches (Connection.related_simulation settings.policy)
    settings caller s s' hs
  exact ⟨hanswer.eq fun _ _ => Answer.Matches.eq, hstate⟩

end Operation

namespace Deployment

/-! ## Moves -/

/-- What moves are answered one after another, each with the documents that are committed after it. -/
def witnessed : List Move → Deployment → List (Observation × SortedMap Key Properties)
  | [], _ => []
  | m :: rest, d =>
    match m.perform d with
    | (o, d) => (o, d.store.documents) :: witnessed rest d

/-- Whether two deployments differ at most in what is counted, indexed and cached. -/
structure SameState (d d' : Deployment) : Prop where
  settings : d.settings = d'.settings
  resolver : d.resolver = d'.resolver
  mapping : d.mapping = d'.mapping
  closed : d.closed = d'.closed
  slots : d.slots = d'.slots
  store : d.store.SameState d'.store

namespace SameState

variable {d d' : Deployment}

theorem connection (h : SameState d d') (handle : Handle) :
    (d.connection handle).Related Store.SameState (d'.connection handle) :=
  ⟨h.closed, congrArg (fun slots => slots.getD handle.slot Slot.idle) h.slots, h.store⟩

theorem withConnection (h : SameState d d') (handle : Handle) {c c' : Connection}
    (hc : c.Related Store.SameState c') :
    SameState (d.withConnection handle c) (d'.withConnection handle c') where
  settings := h.settings
  resolver := h.resolver
  mapping := h.mapping
  closed := hc.closed
  slots := congrArg₂ (List.set · handle.slot ·) h.slots hc.slot
  store := hc.store

theorem openHandle_respects (kind : Kind) : Respects SameState (openHandle kind) := by
  intro d d' h
  have hhandle : d.handleSettings kind = d'.handleSettings kind := by
    simp only [handleSettings, policy, h.settings, h.resolver, h.mapping]
  unfold openHandle
  rw [hhandle, h.slots]
  exact ⟨rfl, h.settings, h.resolver, h.mapping, h.closed, rfl, h.store⟩

theorem onConnection_respects (handle : Handle) {α : Type} {x : Action Connection α}
    (hx : Respects (Connection.Related Store.SameState) x) :
    Respects SameState (onConnection handle x) :=
  .onPart hx (fun _ _ h => h.connection handle) fun _ _ _ _ h hc => h.withConnection handle hc

theorem onHandle_respects (handle : Handle) {α : Type} {x : Action Context α}
    (hx : Respects (Context.Related (Connection.Related Store.SameState)) x) :
    Respects SameState (onHandle handle x) := by
  refine .onPart hx (fun _ _ h => h.connection handle) fun _ _ _ _ h hc => ?_
  have hnext := h.withConnection handle hc
  exact ⟨hnext.settings, hnext.resolver, hnext.mapping, hnext.closed, hnext.slots, hnext.store⟩

/-- A step does the same whatever has been counted before. -/
theorem step_respects {ι : Type} [RecordId ι] (step : Step ι) : Respects SameState step.perform := by
  have hcong := Store.SameState.congruence
  cases step with
  | openHandle kind => exact (openHandle_respects kind).bind fun _ => .pure _
  | operate handle caller op => exact onHandle_respects handle (op.perform_related handle.settings caller)
  | begin handle =>
    exact (onConnection_respects handle (Connection.beginScope_related hcong)).bind fun _ => .pure _
  | commit handle =>
    exact (onConnection_respects handle (Connection.commitScope_related hcong)).bind fun _ => .pure _
  | rollback handle =>
    exact (onConnection_respects handle (Connection.rollbackScope_related hcong)).bind fun _ => .pure _
  | drop handle =>
    exact (Respects.modify fun _ _ h => h.withConnection handle ((h.connection handle).dropScope hcong)).bind
      fun _ => .pure _
  | failNext point message =>
    refine (Respects.modify fun _ _ h => ?_).bind fun _ => .pure _
    refine ⟨h.settings, h.resolver, h.mapping, h.closed, h.slots, ?_, ?_⟩
    · exact ⟨h.store.documents, h.store.limits, h.store.pageLimit, h.store.active⟩
    · exact congrArg (· ++ [(point, message)]) h.store.failures
  | close =>
    exact (Respects.modify fun _ _ h =>
      ⟨h.settings, h.resolver, h.mapping, rfl, h.slots, h.store⟩).bind fun _ => .pure _

theorem move (h : SameState d d') (m : Move) : Alike SameState (m.perform d) (m.perform d') := by
  cases m with
  | step s =>
    obtain ⟨answer, t, t', ht, ht', hstate⟩ := (step_respects s d d' h).exists_eq
    simp only [Move.perform, ht, ht']
    exact ⟨rfl, hstate⟩
  | @pull _ policy handle count stream huses =>
    have hsim := Connection.related_simulation policy
    have hsame := ItemStream.withPolicy_eq_self huses
    unfold Move.perform Deployment.pull
    cases count with
    | some count =>
      obtain ⟨drained, drained', rest, c, c', hc, hc', -, hdrained, hrelated⟩ :=
        ItemStream.take_matches hsim count stream (h.connection handle)
      rw [hsame] at hc hc'
      simp only [hc, hc', hdrained.eq]
      exact ⟨rfl, h.withConnection handle hrelated⟩
    | none =>
      obtain ⟨drained, drained', rest, c, c', hc, hc', -, hdrained, hrelated⟩ :=
        ItemStream.drain_matches hsim stream (h.connection handle)
      rw [hsame] at hc hc'
      simp only [hc, hc', hdrained.eq]
      exact ⟨rfl, h.withConnection handle hrelated⟩

/-- Nothing that is done later tells two such deployments apart. -/
theorem witnessed (h : SameState d d') (moves : List Move) :
    Deployment.witnessed moves d = Deployment.witnessed moves d' := by
  induction moves generalizing d d' with
  | nil => rfl
  | cons m rest ih =>
    obtain ⟨o, t, t', ht, ht', hnext⟩ := (h.move m).exists_eq
    rw [Deployment.witnessed, Deployment.witnessed, ht, ht']
    dsimp only
    rw [ih hnext, hnext.store.documents]

end SameState

/-! ## Operations in an explicit transaction -/

end Deployment

end DocumentStore
