import DocumentStore.Deployment
import DocumentStore.Proofs.Access.Atomic
import DocumentStore.Proofs.Operation.Chains
set_option autoImplicit false

/-!
# Runs of a deployment

The handles of a deployment run operations and explicit transactions in any order, with failures that
strike anywhere.  The documents change by writes that the operations planned, either at once or when
a transaction that staged them is committed.  A property of the documents that allowed writes keep is
then kept by every run of operations that plan allowed writes, as `Deployment.Holds.run` says.
-/

namespace DocumentStore

/-- A property of documents that allowed writes keep. -/
def Write.Keeps (allowed : Write → Prop) (holds : SortedMap Key Properties → Prop) : Prop :=
  ∀ documents w, allowed w → holds documents → holds (Staging.applyWrite documents w.1 w.2)

theorem Write.Keeps.applyAll {allowed : Write → Prop} {holds : SortedMap Key Properties → Prop}
    (hkeeps : Write.Keeps allowed holds) {documents : SortedMap Key Properties}
    (h : holds documents) {ws : List Write} (hws : ∀ w ∈ ws, allowed w) :
    holds (Write.applyAll documents ws) := by
  induction ws generalizing documents with
  | nil => exact h
  | cons w rest ih =>
    exact ih (hkeeps documents w (hws w (List.mem_cons_self ..)) h)
      fun w hw => hws w (List.mem_cons_of_mem _ hw)

/-- Whether what a write puts, if it puts something, has a property. -/
def Write.Puts (holds : Entity → Prop) (w : Write) : Prop :=
  ∀ properties, w.2 = some properties → holds ⟨w.1, properties⟩

theorem Write.puts_ofEntities {holds : Entity → Prop} {batch : List Entity} (h : ∀ e ∈ batch, holds e) :
    ∀ w ∈ Write.ofEntities batch, w.Puts holds := by
  intro w hw properties hproperties
  obtain ⟨e, he, rfl⟩ := List.mem_map.mp hw
  obtain rfl := Option.some.inj hproperties
  exact h e he

theorem Write.puts_ofDeleted {holds : Entity → Prop} {removed : List Key} :
    ∀ w ∈ Write.ofDeleted removed, w.Puts holds := by
  intro w hw properties hproperties
  obtain ⟨k, -, rfl⟩ := List.mem_map.mp hw
  cases hproperties

/-- Documents that all have a property are kept so by writes that put such documents. -/
theorem Write.keeps_puts (holds : Entity → Prop) :
    Write.Keeps (Write.Puts holds) fun documents =>
      ∀ e : Entity, documents.get? e.key = some e.properties → holds e := by
  intro documents w hw h e hget
  rw [Write.get?_applyWrite] at hget
  split at hget
  · next hkey =>
    have hholds := hw e.properties hget
    rw [← hkey] at hholds
    exact hholds
  · exact h e hget

/-- Whether a transaction can be used, and has staged allowed writes only. -/
def Transaction.Stages (allowed : Write → Prop) (t : Transaction) : Prop :=
  t.finished = false ∧ ∃ ws, t.staged = SortedMap.ofList ws ∧ ∀ w ∈ ws, allowed w

/-- Whether the committed documents of a connection have a property and its open transaction, if it
has one, has staged allowed writes only. -/
structure Connection.Holds (allowed : Write → Prop) (holds : SortedMap Key Properties → Prop)
    (c : Connection) : Prop where
  committed : holds c.store.documents
  staged : ∀ t, c.slot = .active t → t.Stages allowed

namespace Connection.Holds

variable {allowed : Write → Prop} {holds : SortedMap Key Properties → Prop} {c : Connection}

/-! ## Calls -/

section Calls

variable {α : Type} {body : Action Session α} {ws : List Write}

theorem executeIn (h : c.Holds allowed holds) (hbody : Session.Performs body ws)
    (hws : ∀ w ∈ ws, allowed w) {t : Transaction} (ht : c.slot = .active t)
    (operation : OperationKind) : (Connection.executeIn operation t body c).2.Holds allowed holds := by
  obtain ⟨hfinished, before, hstaged, hbefore⟩ := h.staged t ht
  have hunfinished : (c.session (some t)).Unfinished := .of_some rfl hfinished
  obtain ⟨done, hamong, ⟨ht', hdata⟩, -⟩ := (hbody _ hunfinished).effect
  unfold Connection.executeIn
  dsimp only
  refine ⟨?_, ?_⟩
  · exact hdata.documents ▸ h.committed
  · intro t' hslot
    rw [ht'] at hslot
    obtain rfl := Slot.active.inj hslot
    refine ⟨(Staging.stageAll_finished ..).trans hfinished, before ++ done,
      Staging.staged_stageAll_ofList hstaged done, ?_⟩
    intro w hw
    rcases List.mem_append.mp hw with hw | hw
    · exact hbefore w hw
    · exact hws w (hamong.subset hw)

theorem executeDirectly (h : c.Holds allowed holds) (hkeeps : Write.Keeps allowed holds)
    (hbody : Session.Performs body ws) (hws : ∀ w ∈ ws, allowed w) (label : String) :
    (Connection.executeDirectly label body c).2.Holds allowed holds := by
  have hunfinished : (c.session none).Unfinished := .of_none rfl
  obtain ⟨done, hamong, ⟨-, hdata⟩, -⟩ := (hbody _ hunfinished).effect
  unfold Connection.executeDirectly
  dsimp only
  refine ⟨?_, h.staged⟩
  exact hdata.documents ▸ hkeeps.applyAll h.committed fun w hw => hws w (hamong.subset hw)

theorem executeAlone (h : c.Holds allowed holds) (hkeeps : Write.Keeps allowed holds)
    (hbody : Session.Performs body ws) (hws : ∀ w ∈ ws, allowed w) (operation : OperationKind)
    (label : String) : (Connection.executeAlone operation label body c).2.Holds allowed holds := by
  obtain ⟨hall, -⟩ := executeAlone_allOrNothing hbody operation label c
  refine ⟨?_, fun t ht => h.staged t (hall.slot ▸ ht)⟩
  cases hr : (Connection.executeAlone operation label body c).1 with
  | error e => exact (hall.undone e hr).1.documents ▸ h.committed
  | ok a => exact (hall.done a hr).1.documents ▸ hkeeps.applyAll h.committed hws

/-- An operation on a connection, wherever its calls go and whichever of them fail. -/
theorem execute (h : c.Holds allowed holds) (hkeeps : Write.Keeps allowed holds)
    (hbody : Session.Performs body ws) (hws : ∀ w ∈ ws, allowed w) (policy : Policy)
    (operation : OperationKind) (label : String) :
    (Connection.execute policy operation label body c).2.Holds allowed holds := by
  unfold Connection.execute
  split
  · exact h
  · cases hslot : c.slot with
    | active t => exact h.executeIn hbody hws hslot operation
    | idle | committed | rolledBack =>
      dsimp only
      split
      · exact h.executeAlone hkeeps hbody hws operation label
      · exact h.executeDirectly hkeeps hbody hws label

theorem chain (h : c.Holds allowed holds) (hkeeps : Write.Keeps allowed holds) {policy : Policy}
    {c' : Connection} (hchain : Connection.Chain policy allowed c c') : c'.Holds allowed holds := by
  have hnone : ∀ w ∈ ([] : List Write), allowed w := fun w hw => by cases hw
  induction hchain with
  | refl => exact h
  | lookup keys label _ ih =>
    exact ih.execute hkeeps (Session.lookup_performs _ keys) hnone policy .read label
  | query q _ ih => exact ih.execute hkeeps (Session.runQuery_performs q) hnone policy .read _
  | put batch label hbatch _ ih =>
    exact ih.execute hkeeps (Session.put_performs _ batch) hbatch policy .write label
  | delete keys label hkeys _ ih =>
    exact ih.execute hkeeps (Session.delete_performs _ keys) hkeys policy .write label

end Calls

/-! ## Explicit transactions -/

theorem beginScope (h : c.Holds allowed holds) : (Connection.beginScope c).2.Holds allowed holds := by
  have hdata := Store.sameData_takeFailure .start c.store
  unfold Connection.beginScope
  split
  · exact h
  · split
    · exact h
    · rw [Store.beginTransaction, Action.bind_apply]
      rcases hr : Store.takeFailure .start c.store with ⟨e | _, store⟩ <;> rw [hr] at hdata
      · exact ⟨hdata.documents ▸ h.committed, fun t ht => by cases ht⟩
      · refine ⟨hdata.documents ▸ h.committed, fun t ht => ?_⟩
        obtain rfl := Slot.active.inj ht
        exact ⟨rfl, [], rfl, fun w hw => by cases hw⟩

/-- A committed transaction applies what it staged, and a failed commit nothing. -/
theorem commitScope (h : c.Holds allowed holds) (hkeeps : Write.Keeps allowed holds) :
    (Connection.commitScope c).2.Holds allowed holds := by
  unfold Connection.commitScope
  cases hslot : c.slot with
  | active t =>
    obtain ⟨hfinished, ws, hstaged, hws⟩ := h.staged t hslot
    have hdata := Store.sameData_takeFailure .commit c.store
    dsimp only
    rw [Staging.commit_unfinished (g := ⟨c.store, t⟩) hfinished]
    rcases hr : Store.takeFailure .commit c.store with ⟨e | _, store⟩ <;> rw [hr] at hdata
    · refine ⟨?_, fun t' ht' => by cases ht'⟩
      have hback := Store.sameData_takeFailure .rollback store
      have hcommitted : holds store.documents := hdata.documents ▸ h.committed
      dsimp only
      rw [Staging.documents_release, Staging.rollback_unfinished (g := ⟨store, t⟩) hfinished]
      rcases hb : Store.takeFailure .rollback store with ⟨e' | _, store'⟩ <;> rw [hb] at hback
      · exact hback.documents ▸ hcommitted
      · dsimp only
        rw [Staging.documents_finish]
        exact hback.documents ▸ hcommitted
    · refine ⟨?_, fun t' ht' => by cases ht'⟩
      dsimp only
      rw [Staging.documents_release, Staging.documents_finish,
        Staging.applyStaged_eq_applyAll hstaged, show store.documents = _ from hdata.documents]
      exact hkeeps.applyAll h.committed hws
  | idle | committed | rolledBack => exact h

theorem rollbackScope (h : c.Holds allowed holds) :
    (Connection.rollbackScope c).2.Holds allowed holds := by
  unfold Connection.rollbackScope
  cases hslot : c.slot with
  | active t =>
    have hdata := Store.sameData_takeFailure .rollback c.store
    refine ⟨?_, fun t' ht' => by cases ht'⟩
    dsimp only
    rw [Staging.documents_release, Staging.rollback_unfinished (g := ⟨c.store, t⟩)
      (h.staged t hslot).1]
    rcases hr : Store.takeFailure .rollback c.store with ⟨e | _, store⟩ <;> rw [hr] at hdata
    · exact hdata.documents ▸ h.committed
    · dsimp only
      rw [Staging.documents_finish]
      exact hdata.documents ▸ h.committed
  | idle | committed | rolledBack => exact h

theorem dropScope (h : c.Holds allowed holds) : c.dropScope.Holds allowed holds := by
  unfold Connection.dropScope
  split
  · refine ⟨?_, fun t ht => by cases ht⟩
    dsimp only
    rw [Staging.documents_release]
    exact h.committed
  · exact h

end Connection.Holds

/-! ## Deployments -/

namespace Deployment

/-- A step of the handles of a deployment. -/
inductive Step (ι : Type) where
  | openHandle (kind : Kind)
  | operate (h : Handle) (caller : Caller) (op : Operation ι)
  | begin (h : Handle)
  | commit (h : Handle)
  | rollback (h : Handle)
  | drop (h : Handle)
  | failNext (point : FailurePoint) (message : String)
  | close

variable {ι : Type} [RecordId ι]

/-- What a step does. -/
def Step.perform : Step ι → Action Deployment (Answer ι)
  | .openHandle kind => do
    let _ ← Deployment.openHandle kind
    return .done
  | .operate h caller op => onHandle h (op.perform h.settings caller)
  | .begin h => do
    onConnection h Connection.beginScope
    return .done
  | .commit h => do
    onConnection h Connection.commitScope
    return .done
  | .rollback h => do
    onConnection h Connection.rollbackScope
    return .done
  | .drop h => do
    Action.modify (Deployment.dropScope h)
    return .done
  | .failNext point message => do
    Action.modify fun d =>
      { d with store := { d.store with failures := d.store.failures ++ [(point, message)] } }
    return .done
  | .close => do
    Action.modify Deployment.close
    return .done

/-- The deployment after steps. -/
def run (steps : List (Step ι)) (d : Deployment) : Deployment :=
  steps.foldl (fun d step => (step.perform d).2) d

/-- Whether the writes that a step plans, if it runs an operation, are allowed. -/
def Step.Plans (allowed : Write → Prop) : Step ι → Prop
  | .operate h caller op =>
    ∀ c ws, op.writes h.settings caller c = .ok ws → ∀ w ∈ ws, allowed w
  | _ => True

/-- Whether the committed documents have a property and open transactions have staged allowed writes
only. -/
structure Holds (allowed : Write → Prop) (holds : SortedMap Key Properties → Prop)
    (d : Deployment) : Prop where
  committed : holds d.store.documents
  staged : ∀ t, .active t ∈ d.slots → t.Stages allowed

namespace Holds

variable {allowed : Write → Prop} {holds : SortedMap Key Properties → Prop} {d : Deployment}

theorem connection (hd : d.Holds allowed holds) (h : Handle) :
    (d.connection h).Holds allowed holds := by
  refine ⟨hd.committed, fun t ht => hd.staged t ?_⟩
  have hslot : d.slots.getD h.slot .idle = .active t := ht
  rw [List.getD_eq_getElem?_getD] at hslot
  cases hget : d.slots[h.slot]? with
  | none =>
    rw [hget] at hslot
    cases hslot
  | some slot =>
    rw [hget] at hslot
    obtain rfl : slot = .active t := hslot
    exact List.mem_of_getElem? hget

theorem withConnection (hd : d.Holds allowed holds) (h : Handle) {c : Connection}
    (hc : c.Holds allowed holds) : (d.withConnection h c).Holds allowed holds := by
  refine ⟨hc.committed, fun t ht => ?_⟩
  rcases List.mem_or_eq_of_mem_set ht with hmem | heq
  · exact hd.staged t hmem
  · exact hc.staged t heq.symm

theorem withContext (hd : d.Holds allowed holds) (h : Handle) {s : Context}
    (hc : s.connection.Holds allowed holds) : (d.withContext h s).Holds allowed holds :=
  ⟨(hd.withConnection h hc).committed, (hd.withConnection h hc).staged⟩

omit [RecordId ι] in
theorem onConnection (hd : d.Holds allowed holds) (h : Handle) {x : Action Connection Unit}
    (hc : (x (d.connection h)).2.Holds allowed holds) :
    ((Deployment.onConnection h x >>= fun _ => pure (Answer.done (ι := ι))) d).2.Holds allowed
      holds := by
  rw [Action.snd_bind_pure]
  exact hd.withConnection h hc

/-- One step keeps what allowed writes keep. -/
theorem step (hd : d.Holds allowed holds) (hkeeps : Write.Keeps allowed holds) {step : Step ι}
    (hstep : step.Plans allowed) : (step.perform d).2.Holds allowed holds := by
  cases step with
  | openHandle kind =>
    refine ⟨hd.committed, fun t ht => hd.staged t ?_⟩
    rcases List.mem_append.mp ht with ht | ht
    · exact ht
    · cases List.mem_singleton.mp ht
  | operate h caller op =>
    have hchain := op.perform_chain h.settings caller (d.context h) fun ws hws => hstep _ ws hws
    exact hd.withContext h ((hd.connection h).chain hkeeps hchain)
  | begin h => exact hd.onConnection h (hd.connection h).beginScope
  | commit h => exact hd.onConnection h ((hd.connection h).commitScope hkeeps)
  | rollback h => exact hd.onConnection h (hd.connection h).rollbackScope
  | drop h => exact hd.withConnection h (hd.connection h).dropScope
  | failNext point message => exact ⟨hd.committed, hd.staged⟩
  | close => exact ⟨hd.committed, hd.staged⟩

/-- Every run keeps what allowed writes keep, if its operations plan allowed writes. -/
theorem run (hd : d.Holds allowed holds) (hkeeps : Write.Keeps allowed holds)
    {steps : List (Step ι)} (hsteps : ∀ step ∈ steps, step.Plans allowed) :
    (Deployment.run steps d).Holds allowed holds := by
  induction steps generalizing d with
  | nil => exact hd
  | cons first rest ih =>
    exact ih (hd.step hkeeps (hsteps first (List.mem_cons_self ..)))
      fun step hstep => hsteps step (List.mem_cons_of_mem _ hstep)

end Holds

/-- However handles are used from the start, every document has a property that all have which their
operations plan to put. -/
theorem forall_document_run {holds : Entity → Prop} {d : Deployment} (hempty : d.store.documents = ∅)
    (hslots : d.slots = []) {steps : List (Step ι)}
    (hsteps : ∀ step ∈ steps, step.Plans (Write.Puts holds)) :
    ∀ e : Entity, (run steps d).store.documents.get? e.key = some e.properties → holds e := by
  have hstart : d.Holds (Write.Puts holds)
      fun documents => ∀ e : Entity, documents.get? e.key = some e.properties → holds e := by
    refine ⟨fun e he => ?_, fun t ht => ?_⟩
    · rw [hempty] at he
      cases he
    · rw [hslots] at ht
      cases ht
  exact (hstart.run (Write.keeps_puts holds) hsteps).committed

end Deployment

end DocumentStore
