import DocumentStore.Proofs.Access.Backing
import DocumentStore.Proofs.Access.Endings
import DocumentStore.Proofs.Operation.Moves
import DocumentStore.Proofs.Operation.Tenants
set_option autoImplicit false

/-!
# What the index of a deployment knows

The index remembers the namespaces that it was told of and never forgets one.  It is told of those
that the store lists, and of those that operations have put entities into.  In an explicit transaction
such a put is only staged, and the index is told of it all the same: if the scope is then given up, or
its commit fails, the index knows a namespace that never had data.
-/

namespace DocumentStore

open Context

variable {ι : Type} [RecordId ι]

/-! ## Operations -/

namespace RecordStore

variable (s : RecordStore ι) (caller : Caller)

theorem write_registers (r : Record ι) : Registers (s.write caller r) := by
  refine .prepare (.currentKeys _ _ _) fun _ keys _ _ => .prepare (.ofOutcome _) fun _ e _ he => ?_
  have hentity : r.toEntity s.settings.mapping keys = .ok e := congrArg Prod.fst he
  refine .put ⟨e, List.mem_singleton_self e, ?_⟩
  rw [Record.key_toEntity hentity]
  rfl

theorem writeAll_registers (records : List (Record ι)) : Registers (s.writeAll caller records) := by
  unfold writeAll
  cases records with
  | nil => exact .of_leavesIndex (.pure ())
  | cons r rest =>
    refine .prepare (.currentKeys _ _ _) fun _ keys _ _ =>
      .prepare (.ofOutcome _) fun _ batch _ hbatch => ?_
    have hentities : entitiesOf s.settings.mapping keys (r :: rest) = .ok batch :=
      congrArg Prod.fst hbatch
    obtain ⟨e, -, hmore⟩ := Outcome.bind_eq_ok hentities
    obtain ⟨es, -, hcons⟩ := Outcome.bind_eq_ok hmore
    obtain rfl : e :: es = batch := Except.ok.inj hcons
    exact .put ⟨e, List.mem_cons_self .., space_of_mem_entitiesOf hentities e (List.mem_cons_self ..)⟩

theorem readAllRecords_leavesIndex (q : RecordQuery ι) :
    LeavesIndex (s.readAllRecords caller q) := by
  unfold readAllRecords
  split
  · exact .pure _
  · split
    · exact .pure _
    · exact fun _ => rfl

end RecordStore

namespace AggregateStore

variable (s : AggregateStore ι) (caller : Caller)

theorem writeRecords_registers (id : ι) {records : List HistoryRecord} (h : records ≠ []) :
    Registers (s.writeRecords caller id records) := by
  obtain ⟨r, hr⟩ := List.exists_mem_of_ne_nil records h
  exact .prepare (.currentKeys _ _ _) fun _ keys _ _ => .put ⟨_, List.mem_map_of_mem hr, rfl⟩

theorem writeBeside_registers (kind : Kind) (id : ι) (properties : List (String × NativeValue)) :
    Registers (s.writeBeside caller kind id properties) :=
  .prepare (.currentKeys _ _ _) fun _ _ _ _ => .put ⟨_, List.mem_singleton_self _, rfl⟩

theorem readBeside_leavesIndex (kind : Kind) (id : ι) :
    LeavesIndex (s.readBeside caller kind id) :=
  (LeavesIndex.currentKeys _ _ _).bind fun _ => (LeavesIndex.onConnection _).bind fun _ => .pure _

theorem truncateOlderThan_leavesIndex (id : ι) (index : Nat) :
    LeavesIndex (s.truncateOlderThan caller id index) := by
  refine (LeavesIndex.onConnection _).bind fun entities => ?_
  dsimp only
  split
  · exact (LeavesIndex.onConnection _).bind fun _ => .pure _
  · exact .pure _

end AggregateStore

namespace Operation

theorem pull_leavesIndex {α : Type} (count : Option Nat) (stream : ItemStream α) :
    LeavesIndex (Context.pull count stream) := by
  cases count <;> exact fun _ => rfl

/-- After an operation the index knows no more namespaces than before and those that have data. -/
theorem perform_registers (op : Operation ι) (settings : HandleSettings) (caller : Caller) :
    Registers (op.perform settings caller) := by
  let records : RecordStore ι := ⟨settings⟩
  let aggregates : AggregateStore ι := ⟨settings⟩
  have hanswer {α : Type} {x : Action Context α} (hx : LeavesIndex x) (answer : α → Answer ι) :
      Registers (x >>= fun a => pure (answer a)) := (Registers.of_leavesIndex hx).answer answer
  cases op with
  | read id =>
    exact hanswer ((LeavesIndex.currentKeys _ _ _).bind fun _ =>
      (LeavesIndex.onConnection _).bind fun _ => .ofOutcome _) _
  | readAll ids =>
    exact hanswer ((LeavesIndex.currentKeys _ _ _).bind fun _ =>
      (LeavesIndex.onConnection _).bind fun _ => .ofOutcome _) _
  | write r => exact (records.write_registers caller r).answer _
  | writeAll rs => exact (records.writeAll_registers caller rs).answer _
  | delete id =>
    exact hanswer ((LeavesIndex.currentKeys _ _ _).bind fun _ =>
      (LeavesIndex.onConnection _).bind fun _ => .pure _) _
  | indexMatching p count => exact hanswer (pull_leavesIndex count _) _
  | scan q count =>
    exact .prepare (records.readAllRecords_leavesIndex caller q) fun _ _ _ _ =>
      hanswer (pull_leavesIndex count _) _
  | writeEntry id r =>
    exact (aggregates.writeRecords_registers caller id (List.cons_ne_nil r [])).answer _
  | writeHistory id h =>
    refine Registers.answer ?_ _
    unfold AggregateStore.writeHistory
    split
    · exact .of_leavesIndex (.pure ())
    · next hnonempty =>
      exact aggregates.writeRecords_registers caller id fun h => hnonempty (List.isEmpty_iff.mpr h)
  | historyBackward id batch count => exact hanswer (pull_leavesIndex count _) _
  | readHistory id batch =>
    exact hanswer ((LeavesIndex.onConnection _).bind fun _ => .pure _) _
  | truncate id index => exact hanswer (aggregates.truncateOlderThan_leavesIndex caller id index) _
  | readCount id =>
    refine hanswer ((aggregates.readBeside_leavesIndex caller _ id).bind fun found => ?_) _
    cases found with
    | none => exact .pure 0
    | some e => exact .ofOutcome _
  | writeCount id count => exact (aggregates.writeBeside_registers caller _ id _).answer _
  | readFlags id =>
    exact hanswer ((aggregates.readBeside_leavesIndex caller _ id).bind fun _ => .pure _) _
  | writeFlags id flags => exact (aggregates.writeBeside_registers caller _ id _).answer _
  | aggregates count => exact hanswer (pull_leavesIndex count _) _

end Operation

/-! ## Deployments -/

namespace Deployment

variable {d : Deployment} {space : Namespace}

/-- Whether a namespace has data, in the store or staged in the open transaction of a handle. -/
def Backs (d : Deployment) (space : Namespace) : Prop :=
  space ∈ d.store.namespaces ∨ ∃ h t, d.slotOf h = .active t ∧ t.Puts space

theorem Backs.of_connection {h : Handle} {s : Context}
    (hslot : h.slot < d.slots.length ∨ s.connection.slot.isActive = false)
    (hs : s.connection.Backs space) : (d.withContext h s).Backs space := by
  rcases hs with hstored | ⟨t, ht, hputs⟩
  · exact .inl hstored
  · rcases hslot with hlt | hidle
    · refine .inr ⟨h, t, ?_, hputs⟩
      rw [← ht]
      exact (slotOf_withConnection d h h s.connection).trans (if_pos ⟨rfl, hlt⟩)
    · rw [ht] at hidle
      cases hidle

/-- An operation leaves a handle that was not handed out without a transaction. -/
theorem slot_operate (d : Deployment) (h : Handle) (caller : Caller) (op : Operation ι) :
    h.slot < d.slots.length ∨
      (op.perform h.settings caller (d.context h)).2.connection.slot.isActive = false := by
  rcases Nat.lt_or_ge h.slot d.slots.length with hlt | hge
  · exact .inl hlt
  · have hidle : (d.connection h).slot = .idle := slotOf_of_le hge
    have hchain : Connection.Chain h.settings.policy (fun _ => True) (d.connection h) _ :=
      op.perform_chain h.settings caller (d.context h) fun _ _ _ _ => trivial
    obtain ⟨done, -, hwrote⟩ := hchain.wrote (congrArg Slot.isActive hidle)
    refine .inr ?_
    rw [hwrote.slot, hidle]
    rfl

theorem known_step (step : Step ι) (h : (step.perform d).2.index.knows space = true) :
    d.index.knows space = true ∨ (step.perform d).2.Backs space := by
  cases step with
  | operate handle caller op =>
    exact (op.perform_registers handle.settings caller (d.context handle) space h).imp_right
      (Backs.of_connection (d.slot_operate handle caller op))
  | begin handle =>
    rw [Step.perform, Action.snd_bind_pure] at h
    exact .inl h
  | commit handle =>
    rw [Step.perform, Action.snd_bind_pure] at h
    exact .inl h
  | rollback handle =>
    rw [Step.perform, Action.snd_bind_pure] at h
    exact .inl h
  | openHandle _ | drop _ | failNext _ _ | close => exact .inl h

/-- A question makes the index know what the store lists. -/
theorem known_inquire (q : Inquiry) (h : (q.perform d).2.index.knows space = true) :
    d.index.knows space = true ∨ space ∈ d.store.namespaces := by
  obtain ⟨s, hsurveyed, hd'⟩ := q.perform_eq d
  rw [hd'] at h
  exact hsurveyed.known space h

theorem knows_of_validate {answer : Bool} {d' : Deployment}
    (h : onIndex (NamespaceResolver.validate true space) d = (.ok answer, d')) :
    d'.index.knows space = true := by
  have hindex := congrArg (fun r => r.2.index.knows space) h
  exact hindex.symm.trans ((NamespaceResolver.validate_surveyed space ⟨d.store, d.index⟩).2 answer
    (congrArg Prod.fst h))

theorem knows_of_allTenants {tenants : List Tenant} {d' : Deployment}
    (h : allTenants d = (.ok tenants, d')) {tenant : Tenant} (hmem : tenant ∈ tenants) :
    ∃ space, d.resolver.restore space = .ok tenant ∧ d'.index.knows space = true := by
  obtain ⟨space, hrestore, hknows⟩ := NamespaceResolver.exists_known_of_allTenants
    (s := ⟨d.store, d.index⟩) (congrArg Prod.fst h) hmem
  have hindex := congrArg (fun r => r.2.index.knows space) h
  exact ⟨space, hrestore, hindex.symm.trans hknows⟩

/-- The index comes to know no namespaces but those that have data. -/
theorem known_happening (x : Happening) (h : (x.apply d).index.knows space = true) :
    d.index.knows space = true ∨ (x.apply d).Backs space := by
  cases x with
  | move m =>
    cases m with
    | step s => exact known_step s h
    | pull handle count stream huses => exact .inl h
  | inquire q =>
    refine (known_inquire q h).imp_right fun hmem => .inl ?_
    obtain ⟨s, hsurveyed, hd'⟩ := q.perform_eq d
    rw [Happening.apply, hd', Store.namespaces_congr hsurveyed.documents]
    exact hmem
  | others store => exact .inl h

/-- Whether a namespace had data, in the store or staged, at some time. -/
def Backed (d : Deployment) (happenings : List Happening) (space : Namespace) : Prop :=
  ∃ past, past <+: happenings ∧ (d.after past).Backs space

/-- Every namespace that the index comes to know had data at some time. -/
theorem backed_of_known (hd : d.index = .empty) (happenings : List Happening)
    (h : (d.after happenings).index.knows space = true) : d.Backed happenings space := by
  induction happenings using List.reverseRecOn with
  | nil =>
    rw [after_nil, hd] at h
    cases h
  | append_singleton past x ih =>
    rw [after_concat] at h
    rcases known_happening x h with hknown | hbacks
    · obtain ⟨before, hbefore, hbacks⟩ := ih hknown
      exact ⟨before, hbefore.trans (List.prefix_append ..), hbacks⟩
    · refine ⟨past ++ [x], List.prefix_refl _, ?_⟩
      rw [after_concat]
      exact hbacks

/-- A commit that succeeded has put into the store what was staged. -/
theorem stored_of_commit {h : Handle} {t : Transaction} {d' : Deployment}
    (hslot : d.slotOf h = .active t) (hputs : t.Puts space)
    (hcommit : onConnection h Connection.commitScope d = (.ok (), d')) :
    space ∈ d'.store.namespaces := by
  obtain ⟨k, p, hstaged, rfl⟩ := hputs
  have hstored : (Staging.applyStaged d.store.documents t).get? k = some p := by
    rw [Staging.applyStaged_eq_applyAll (SortedMap.ofList_entries t.staged).symm,
      Write.get?_applyAll, SortedMap.ofList_entries, hstaged, Option.getD_some]
  obtain ⟨-, ⟨t', ht', -, hdocuments⟩ | ⟨hfailed, -⟩⟩ :=
    Connection.commitScope_cases (d.connection h)
  · obtain rfl : t = t' := Slot.active.inj (hslot.symm.trans ht')
    have hd' : d' = d.withConnection h (Connection.commitScope (d.connection h)).2 :=
      (congrArg Prod.snd hcommit).symm
    rw [hd']
    exact Store.mem_namespaces.mpr ⟨k, p, (congrArg (·.get? k) hdocuments).trans hstored, rfl⟩
  · exact absurd (congrArg Prod.fst hcommit) hfailed

/-- In every run of a deployment, whatever fails in it and whatever others do to the store, a namespace
that the index knows, or that is accepted, or whose tenant is listed, had data in the store at some
time or had data staged in an explicit transaction.  What was staged is in the store once the
transaction has been committed. -/
theorem index_backed {store : Store} {settings : StorageSettings} {mapping : ColumnMapping}
    (hstart : start store settings mapping = .ok d) (happenings : List Happening) :
    (∀ space, (d.after happenings).index.knows space = true → d.Backed happenings space) ∧
    (∀ space answer d', onIndex (NamespaceResolver.validate true space) (d.after happenings) =
      (.ok answer, d') → d.Backed happenings space) ∧
    (∀ tenants d', allTenants (d.after happenings) = (.ok tenants, d') → ∀ tenant ∈ tenants,
      ∃ space, (d.after happenings).resolver.restore space = .ok tenant ∧
        d.Backed happenings space) ∧
    (∀ h t space d', (d.after happenings).slotOf h = .active t → t.Puts space →
      onConnection h Connection.commitScope (d.after happenings) = (.ok (), d') →
      space ∈ d'.store.namespaces) := by
  obtain ⟨resolver, -, hd⟩ := Outcome.bind_eq_ok hstart
  have hempty : d.index = .empty := by
    cases hd
    rfl
  -- what the store lists in answer to a question is there before and after it
  have hlisted (q : Inquiry) (space : Namespace)
      (hknows : (q.perform (d.after happenings)).2.index.knows space = true) :
      d.Backed happenings space := by
    rcases known_inquire q hknows with hknown | hmem
    · exact backed_of_known hempty happenings hknown
    · exact ⟨happenings, List.prefix_refl _, .inl hmem⟩
  refine ⟨fun space => backed_of_known hempty happenings, ?_, ?_,
    fun h t space d' => stored_of_commit⟩
  · intro space answer d' hvalidate
    refine hlisted (.validate space) space ?_
    rw [Inquiry.perform, Action.bind_ok hvalidate]
    exact knows_of_validate hvalidate
  · intro tenants d' htenants tenant hmem
    obtain ⟨space, hrestore, hknows⟩ := knows_of_allTenants htenants hmem
    refine ⟨space, hrestore, hlisted .tenants space ?_⟩
    rw [Inquiry.perform, Action.bind_ok htenants]
    exact hknows

/-- A tenant writes a record in a scope, which is rolled back. -/
def rolledBackScope : List Happening :=
  let step (s : Step String) : Happening := .move (.step s)
  [step (.openHandle ⟨"order"⟩), step (.begin sharedHandle),
    step (.operate sharedHandle (acme 1) (.write ⟨"a", [1], ∅⟩)), step (.rollback sharedHandle)]

/-- The namespace of a record that was rolled back is known and accepted, and its tenant listed,
although the store never held data. -/
theorem known_after_rollback :
    start (.empty .standard 2) sharedDeployment.settings .builtin = .ok sharedDeployment ∧
      (∀ past, past <+: rolledBackScope → (sharedDeployment.after past).store.namespaces = []) ∧
      (sharedDeployment.after rolledBackScope).index.knows ⟨"Vacme"⟩ = true ∧
      (onIndex (NamespaceResolver.validate true ⟨"Vacme"⟩)
        (sharedDeployment.after rolledBackScope)).1 = .ok true ∧
      (allTenants (sharedDeployment.after rolledBackScope)).1 = .ok [.value "acme"] := by
  have hnever : ∀ past ∈ rolledBackScope.inits,
      (sharedDeployment.after past).store.namespaces = [] := by
    decide +kernel
  refine ⟨rfl, fun past hpast => hnever past ((List.mem_inits ..).mpr hpast), by decide +kernel, ?_, ?_⟩
  · decide +kernel
  · decide +kernel

/-- After it another tenant's record is written in a scope that is committed. -/
def bothScopes : List Happening :=
  let step (s : Step String) : Happening := .move (.step s)
  rolledBackScope ++ [step (.begin sharedHandle),
    step (.operate sharedHandle (acmeDomain 2) (.write ⟨"a", [2], ∅⟩)), step (.commit sharedHandle)]

theorem index_backed_bothScopes :
    sharedDeployment.Backed bothScopes ⟨"Vacme"⟩ ∧ sharedDeployment.Backed bothScopes ⟨"Dacme"⟩ := by
  have hstart : start (.empty .standard 2) sharedDeployment.settings .builtin =
      .ok sharedDeployment := rfl
  obtain ⟨hknown, -⟩ := index_backed hstart bothScopes
  exact ⟨hknown _ (by decide +kernel), hknown _ (by decide +kernel)⟩

end Deployment

end DocumentStore
