import DocumentStore.Proofs.Access.Answers
import DocumentStore.Proofs.Aggregate.Isolation
set_option autoImplicit false

/-!
# Values beside histories

The event count and the marks of an aggregate are documents of kinds of their own.  Calls on histories
write under no key of these kinds, so that each value is the one last written of its aggregate, and is
read as such.
-/

namespace DocumentStore

open HistoryRecord

/-- The properties of an event count. -/
def countProperties (count : Int) : Properties :=
  .ofList [(AggregateStore.countProperty, .integer count)]

/-- The properties of marks. -/
def LifecycleFlags.properties (flags : LifecycleFlags) : Properties :=
  .ofList [(AggregateStore.archivedProperty, .boolean flags.archived),
    (AggregateStore.deletedProperty, .boolean flags.deleted)]

variable (ι : Type) [RecordId ι] in
/-- Whether an entity, if it is of the namespace and kind, is an entry of the history of an aggregate. -/
def Entity.HasOwner (keys : KeyFactory) (e : Entity) : Prop :=
  e.key.space = keys.space → e.key.kind = keys.kind →
    ∃ (id : ι) (w : DatedRecord), e = w.entity keys (RecordId.toName id)

variable {ι : Type} [RecordId ι]

theorem DatedRecord.hasOwner_entity (keys keys' : KeyFactory) (id : ι) (w : DatedRecord) :
    (w.entity keys' (RecordId.toName id)).HasOwner ι keys := by
  intro hspace hkind
  obtain rfl : keys' = keys := KeyFactory.eq_of_eq hspace hkind
  exact ⟨id, w, rfl⟩

namespace AggregateCall

omit [RecordId ι]

/-- The event count that a call writes. -/
def count? : AggregateCall ι → Option Int
  | .writeCount _ count => some count
  | _ => none

/-- The marks that a call writes. -/
def flags? : AggregateCall ι → Option LifecycleFlags
  | .writeFlags _ flags => some flags
  | _ => none

/-- The properties that a call writes in a kind beside the histories. -/
def valueIn (s : AggregateStore ι) (kind : Kind) : AggregateCall ι → Option Properties
  | .writeCount _ count => if kind = s.countKind then some (countProperties count) else none
  | .writeFlags _ flags => if kind = s.flagsKind then some flags.properties else none
  | _ => none

end AggregateCall

namespace AggregateStore

variable {s : AggregateStore ι} {space : Namespace} {caller : Caller} {call : AggregateCall ι}
  {calls : List (Caller × AggregateCall ι)} {id : ι} {context context' : Context}

omit [RecordId ι] in
theorem countKind_ne_flagsKind (s : AggregateStore ι) : s.countKind ≠ s.flagsKind := by
  intro heq
  have hlength := congrArg (fun kind => kind.name.length) heq
  have hcount : "EventCount".length = 10 := rfl
  have hflags : "LifecycleFlags".length = 14 := rfl
  simp only [countKind, flagsKind, Kind.child, String.length_append] at hlength
  omega

omit [RecordId ι] in
theorem valueIn_countKind (s : AggregateStore ι) (call : AggregateCall ι) :
    call.valueIn s s.countKind = call.count?.map countProperties := by
  cases call with
  | writeCount => exact if_pos rfl
  | writeFlags => exact if_neg s.countKind_ne_flagsKind
  | writeEntry | writeHistory | truncate => rfl

omit [RecordId ι] in
theorem valueIn_flagsKind (s : AggregateStore ι) (call : AggregateCall ι) :
    call.valueIn s s.flagsKind = call.flags?.map LifecycleFlags.properties := by
  cases call with
  | writeCount => exact if_neg s.countKind_ne_flagsKind.symm
  | writeFlags => exact if_pos rfl
  | writeEntry | writeHistory | truncate => rfl

/-- Whether a call is about an aggregate in a namespace. -/
def IsOn (s : AggregateStore ι) (space : Namespace) (a : ι) (call : Caller × AggregateCall ι) : Prop :=
  call.2.id = a ∧ s.settings.resolver.current call.1.tenant = .ok space

instance [DecidableEq ι] (s : AggregateStore ι) (space : Namespace) (a : ι) :
    DecidablePred (s.IsOn space a) := fun _ => inferInstanceAs (Decidable (_ ∧ _))

/-- The calls about an aggregate in a namespace. -/
def callsOn [DecidableEq ι] (s : AggregateStore ι) (space : Namespace) (a : ι)
    (calls : List (Caller × AggregateCall ι)) : List (AggregateCall ι) :=
  (calls.filter (s.IsOn space a)).map (·.2)

/-- One call after another, up to the first that fails. -/
def performCalls (s : AggregateStore ι) (calls : List (Caller × AggregateCall ι)) :
    Action Context Unit :=
  forM calls fun call => do
    let _ ← call.2.operation.perform s.settings call.1

/-! ## What calls write -/

/-- A value beside a history that was written is stored in the namespace of the caller. -/
theorem wrote_of_writeBeside_ok (hidle : context.connection.slot.isActive = false) {kind : Kind}
    {properties : List (String × NativeValue)}
    (h : s.writeBeside caller kind id properties context = (.ok (), context')) :
    ∃ space, s.settings.resolver.current caller.tenant = .ok space ∧
      Connection.Wrote [((KeyFactory.mk space kind).key id, some (.ofList properties))]
        context.connection context'.connection := by
  obtain ⟨g, hg, hsame⟩ := (Context.Quiet.currentKeys s.settings caller kind).exists_eq context
  rw [writeBeside] at h
  cases hspace : s.settings.resolver.current caller.tenant with
  | error e =>
    rw [HandleSettings.keysOf, hspace] at hg
    rw [Action.bind_error hg] at h
    cases h
  | ok space =>
    rw [HandleSettings.keysOf_of_current hspace] at hg
    rw [Action.bind_ok hg] at h
    have hwrote := (wrote_of_putAll_ok (hsame ▸ hidle) h).1
    rw [hsame] at hwrote
    exact ⟨space, rfl, hwrote⟩

theorem historyWrites_owned {records : List HistoryRecord} {ws : List Write}
    (h : Operation.historyWrites s.settings caller id records = .ok ws) :
    ∀ w ∈ ws, w.1.kind = s.settings.kind ∧
      w.Puts (Entity.HasOwner ι ⟨space, s.settings.kind⟩) := by
  obtain ⟨own, -, rfl⟩ := Operation.historyWrites_eq_ok h
  have hput : ∀ w ∈ Write.ofEntities (records.map
      (toEntity ⟨own, s.settings.kind⟩ (RecordId.toName id) caller.clock)),
      w.Puts (Entity.HasOwner ι ⟨space, s.settings.kind⟩) := by
    refine Write.puts_ofEntities fun e he => ?_
    obtain ⟨r, -, rfl⟩ := List.mem_map.mp he
    exact DatedRecord.hasOwner_entity _ _ id ⟨r, caller.clock⟩
  refine fun w hw => ⟨?_, hput w hw⟩
  obtain ⟨e, he, rfl⟩ := List.mem_map.mp hw
  obtain ⟨r, -, rfl⟩ := List.mem_map.mp he
  rfl

/-- What calls on histories plan are entries, and removals of such. -/
theorem owned_of_mem_writes (hidle : context.connection.slot.isActive = false)
    (hvalue : ∀ kind, call.valueIn s kind = none) {ws : List Write}
    (h : call.operation.writes s.settings caller context.connection = .ok ws) :
    ∀ w ∈ ws, w.1.kind = s.settings.kind ∧
      w.Puts (Entity.HasOwner ι ⟨space, s.settings.kind⟩) := by
  cases call with
  | writeEntry id r => exact historyWrites_owned h
  | writeHistory id history =>
    rw [AggregateCall.operation, Operation.writes] at h
    split at h
    · cases h
      exact List.forall_mem_nil _
    · exact historyWrites_owned h
  | truncate id index =>
    obtain ⟨keys, hkeys, h⟩ := Outcome.bind_eq_ok h
    cases h
    intro w hw
    obtain ⟨k, hk, rfl⟩ := List.mem_map.mp hw
    obtain ⟨space', e, -, -, hselects, rfl⟩ := Operation.exists_of_mem_doomed hidle hkeys k hk
    exact ⟨(selects_historyQuery.mp hselects).1.2, fun properties hnone => by cases hnone⟩
  | writeCount id count => cases (hvalue s.countKind).symm.trans (if_pos rfl)
  | writeFlags id flags => cases (hvalue s.flagsKind).symm.trans (if_pos rfl)

variable [DecidableEq ι]

/-- The properties last written of an aggregate in a kind beside the histories, if any were. -/
def lastIn (s : AggregateStore ι) (space : Namespace) (kind : Kind) (a : ι)
    (calls : List (Caller × AggregateCall ι)) : Option Properties :=
  ((s.callsOn space a calls).filterMap (·.valueIn s kind)).getLast?

omit [RecordId ι] in
theorem lastIn_singleton (kind : Kind) (a : ι) (call : Caller × AggregateCall ι) :
    s.lastIn space kind a [call] = if s.IsOn space a call then call.2.valueIn s kind else none := by
  by_cases hon : s.IsOn space a call
  · simp only [lastIn, callsOn, List.filter_cons, hon, decide_true, if_true, List.filter_nil,
      List.map_cons, List.map_nil, List.filterMap_cons, List.filterMap_nil]
    cases call.2.valueIn s kind <;> rfl
  · simp [lastIn, callsOn, hon]

omit [RecordId ι] in
theorem lastIn_append (kind : Kind) (a : ι) (calls more : List (Caller × AggregateCall ι)) :
    s.lastIn space kind a (calls ++ more) =
      (s.lastIn space kind a more).or (s.lastIn space kind a calls) := by
  simp only [lastIn, callsOn, List.filter_append, List.map_append, List.filterMap_append,
    List.getLast?_append]

omit [RecordId ι] in
theorem lastIn_countKind (a : ι) (calls : List (Caller × AggregateCall ι)) :
    s.lastIn space s.countKind a calls =
      ((s.callsOn space a calls).filterMap (·.count?)).getLast?.map countProperties := by
  simp only [lastIn, valueIn_countKind, ← List.map_filterMap, List.getLast?_map]

omit [RecordId ι] in
theorem lastIn_flagsKind (a : ι) (calls : List (Caller × AggregateCall ι)) :
    s.lastIn space s.flagsKind a calls =
      ((s.callsOn space a calls).filterMap (·.flags?)).getLast?.map LifecycleFlags.properties := by
  simp only [lastIn, valueIn_flagsKind, ← List.map_filterMap, List.getLast?_map]

/-- What calls write that answered: of each value beside a history the one last written, and otherwise
entries. -/
structure Leaves (s : AggregateStore ι) (space : Namespace) (calls : List (Caller × AggregateCall ι))
    (documents : SortedMap Key Properties) (ws : List Write) : Prop where
  owned : ∀ w ∈ ws, w.Puts (Entity.HasOwner ι ⟨space, s.settings.kind⟩)
  value : ∀ kind, s.Beside kind → ∀ a : ι,
    (Write.applyAll documents ws).get? ((KeyFactory.mk space kind).key a) =
      (s.lastIn space kind a calls).or (documents.get? ((KeyFactory.mk space kind).key a))

theorem Leaves.nil (documents : SortedMap Key Properties) : s.Leaves space [] documents [] :=
  ⟨fun w hw => (by cases hw), fun _ _ _ => rfl⟩

theorem Leaves.append {more : List (Caller × AggregateCall ι)} {documents : SortedMap Key Properties}
    {ws ws' : List Write} (h : s.Leaves space calls documents ws)
    (h' : s.Leaves space more (Write.applyAll documents ws) ws') :
    s.Leaves space (calls ++ more) documents (ws ++ ws') where
  owned w hw := (List.mem_append.mp hw).elim (h.owned w) (h'.owned w)
  value kind hkind a := by
    rw [Write.applyAll_append, h'.value kind hkind a, h.value kind hkind a, lastIn_append,
      Option.or_assoc]

/-- A call on a history leaves the values beside it. -/
theorem leaves_of_history {documents : SortedMap Key Properties} {ws : List Write}
    (hws : ∀ w ∈ ws, w.1.kind = s.settings.kind ∧ w.Puts (Entity.HasOwner ι ⟨space, s.settings.kind⟩))
    (hvalue : ∀ kind, call.valueIn s kind = none) :
    s.Leaves space [(caller, call)] documents ws where
  owned w hw := (hws w hw).2
  value kind hkind a := by
    rw [lastIn_singleton, hvalue, ite_self, Option.none_or]
    exact Write.get?_applyAll_of_forall_ne fun w hw hkey => hkind.ne_kind_of_key hkey (hws w hw).1

variable [LawfulRecordId ι]

/-- A call on a value beside a history changes that value only. -/
theorem leaves_of_beside {written : Kind} (hwritten : s.Beside written) {own : Namespace}
    (hown : s.settings.resolver.current caller.tenant = .ok own)
    {properties : Properties} {documents : SortedMap Key Properties}
    (hvalue : ∀ kind, call.valueIn s kind = if kind = written then some properties else none) :
    s.Leaves space [(caller, call)] documents
      [((KeyFactory.mk own written).key call.id, some properties)] where
  owned w hw _ _ _ hkind := by
    obtain rfl := List.mem_singleton.mp hw
    exact absurd hkind hwritten.ne_kind
  value kind hkind a := by
    have hkey : (KeyFactory.mk space kind).key a = (KeyFactory.mk own written).key call.id ↔
        kind = written ∧ s.IsOn space a (caller, call) := by
      rw [IsOn, hown, KeyFactory.key, KeyFactory.key, KeyFactory.named, KeyFactory.named,
        Key.mk.injEq, Except.ok.injEq]
      exact ⟨fun ⟨hspace, hkind, hname⟩ =>
          ⟨hkind, (LawfulRecordId.eq_of_toName_eq hname).symm, hspace.symm⟩,
        fun ⟨hkind, ha, hspace⟩ => ⟨hspace.symm, hkind, ha ▸ rfl⟩⟩
    have hget := Write.get?_applyWrite documents
      ((KeyFactory.mk own written).key call.id, some properties) ((KeyFactory.mk space kind).key a)
    refine hget.trans ?_
    simp only [hkey, lastIn_singleton, hvalue]
    by_cases hon : s.IsOn space a (caller, call) <;> by_cases hsame : kind = written <;>
      simp [hon, hsame]

variable (space) in
/-- What a call that answered leaves, whoever made it. -/
theorem leaves_of_perform_ok (hidle : context.connection.slot.isActive = false) {answer : Answer ι}
    (h : call.operation.perform s.settings caller context = (.ok answer, context')) :
    ∃ ws, Connection.Wrote ws context.connection context'.connection ∧
      s.Leaves space [(caller, call)] context.connection.store.documents ws := by
  have hhistory (hvalue : ∀ kind, call.valueIn s kind = none) :
      ∃ ws, Connection.Wrote ws context.connection context'.connection ∧
        s.Leaves space [(caller, call)] context.connection.store.documents ws := by
    obtain ⟨done, hdone, hwrote⟩ := (call.operation.perform_chain s.settings caller context
      fun ws hws => owned_of_mem_writes hidle hvalue hws).wrote hidle
    rw [h] at hwrote
    exact ⟨done, hwrote, leaves_of_history hdone hvalue⟩
  have hbeside {kind : Kind} (hkind : s.Beside kind) {properties : List (String × NativeValue)}
      (hperform : (do
        s.writeBeside caller kind call.id properties
        return Answer.done) context = (.ok answer, context'))
      (hvalue : ∀ kind', call.valueIn s kind' =
        if kind' = kind then some (.ofList properties) else none) :
      ∃ ws, Connection.Wrote ws context.connection context'.connection ∧
        s.Leaves space [(caller, call)] context.connection.store.documents ws := by
    rw [Action.bind_apply] at hperform
    rcases hwrite : s.writeBeside caller kind call.id properties context with ⟨e | _, g⟩ <;>
      rw [hwrite] at hperform
    · cases hperform
    · cases hperform
      obtain ⟨own, hown, hwrote⟩ := wrote_of_writeBeside_ok hidle hwrite
      exact ⟨_, hwrote, leaves_of_beside hkind hown hvalue⟩
  cases call with
  | writeEntry | writeHistory | truncate => exact hhistory fun _ => rfl
  | writeCount id count => exact hbeside (.inl rfl) h fun _ => rfl
  | writeFlags id flags => exact hbeside (.inr rfl) h fun _ => rfl

/-- What a run of calls that all answered leaves. -/
theorem leaves_of_performCalls_ok (hidle : context.connection.slot.isActive = false)
    (h : s.performCalls calls context = (.ok (), context')) :
    ∃ ws, Connection.Wrote ws context.connection context'.connection ∧
      s.Leaves space calls context.connection.store.documents ws := by
  induction calls generalizing context with
  | nil =>
    cases h
    exact ⟨[], .refl _, .nil _⟩
  | cons call rest ih =>
    rw [performCalls, List.forM_cons, bind_assoc] at h
    rcases hcall : call.2.operation.perform s.settings call.1 context with ⟨e | answer, g⟩
    · rw [Action.bind_error hcall] at h
      cases h
    · rw [Action.bind_ok hcall] at h
      obtain ⟨ws, hwrote, hleaves⟩ := leaves_of_perform_ok space hidle hcall
      obtain ⟨more, hwrote', hleaves'⟩ := ih (hwrote.slot ▸ hidle) h
      rw [hwrote.sameData.documents] at hleaves'
      exact ⟨ws ++ more, hwrote.trans hwrote', hleaves.append hleaves'⟩

omit [LawfulRecordId ι] in
/-- The value of an aggregate that had none is the one last written. -/
theorem Leaves.find? {store : Store} {documents : SortedMap Key Properties} {ws : List Write}
    (h : s.Leaves space calls documents ws) (hstore : store.documents = Write.applyAll documents ws)
    {kind : Kind} (hkind : s.Beside kind) (a : ι)
    (hnone : documents.get? ((KeyFactory.mk space kind).key a) = none) :
    store.find? ((KeyFactory.mk space kind).key a) =
      (s.lastIn space kind a calls).map (Entity.mk ((KeyFactory.mk space kind).key a)) := by
  rw [Store.find?, hstore, h.value kind hkind a, hnone, Option.or_none]

/-! ## What is read of them -/

omit [DecidableEq ι] [LawfulRecordId ι]

/-- Whether a number can be stored as an event count. -/
def IsCount (count : Int) : Prop := -Int.ofNat countBound ≤ count ∧ count < Int.ofNat countBound

instance : DecidablePred IsCount := fun _ => inferInstanceAs (Decidable (_ ∧ _))

theorem countOf_countProperties {count : Int} (hcount : IsCount count) (k : Key) :
    countOf ⟨k, countProperties count⟩ = .ok count := by
  have hget : (⟨k, countProperties count⟩ : Entity).get? countProperty = some (.integer count) := by
    simp [Entity.get?, countProperties, SortedMap.ofList, SortedMap.get?_insert]
  rw [countOf, hget]
  exact if_pos hcount

theorem flagsOf_properties (flags : LifecycleFlags) (k : Key) :
    flagsOf ⟨k, flags.properties⟩ = flags := by
  simp [flagsOf, Entity.get?, LifecycleFlags.properties, SortedMap.ofList, SortedMap.get?_insert,
    archivedProperty, deletedProperty, NativeValue.boolean?]

section Reading

variable (hspace : s.settings.resolver.current caller.tenant = .ok space)
  (hopen : context.connection.closed = false) (hidle : context.connection.slot.isActive = false)
  (hcalm : context.connection.store.failures = [])
  (hroom : 1 ≤ context.connection.store.limits.read)

include hspace hopen hidle hcalm hroom

theorem readBeside_ok (kind : Kind) (a : ι) :
    (s.readBeside caller kind a context).1 =
      .ok (context.connection.store.find? ((KeyFactory.mk space kind).key a)) := by
  obtain ⟨g, hg, hsame⟩ := (Context.Quiet.currentKeys s.settings caller kind).exists_eq context
  rw [HandleSettings.keysOf_of_current hspace] at hg
  have hlookup := Connection.lookup_singleton hopen hidle hcalm hroom s.settings.policy
    ((KeyFactory.mk space kind).key a) (s.label a)
  rw [readBeside, Action.bind_ok hg, Action.bind_apply, Context.onConnection, Action.onPart, hsame]
  rcases hr : Connection.lookup s.settings.policy [(KeyFactory.mk space kind).key a] (s.label a)
    context.connection with ⟨r, c⟩
  rw [hr] at hlookup
  obtain rfl := hlookup
  rfl

/-- The event count of an aggregate is the one that is stored, and zero if none is. -/
theorem readCount_ok {a : ι} {count : Option Int} (hcount : ∀ n ∈ count, IsCount n)
    (hstored : context.connection.store.find? ((KeyFactory.mk space s.countKind).key a) =
      count.map fun n => ⟨(KeyFactory.mk space s.countKind).key a, countProperties n⟩) :
    (s.readCount caller a context).1 = .ok (count.getD 0) := by
  have hread := readBeside_ok hspace hopen hidle hcalm hroom s.countKind a
  rw [hstored] at hread
  rw [readCount, Action.bind_apply]
  rcases hr : s.readBeside caller s.countKind a context with ⟨r, g⟩
  rw [hr] at hread
  obtain rfl := hread
  cases count with
  | none => rfl
  | some n => exact countOf_countProperties (hcount n rfl) _

/-- The marks of an aggregate are those that are stored, if one is set. -/
theorem readFlags_ok {a : ι} {flags : Option LifecycleFlags}
    (hstored : context.connection.store.find? ((KeyFactory.mk space s.flagsKind).key a) =
      flags.map fun f => ⟨(KeyFactory.mk space s.flagsKind).key a, f.properties⟩) :
    (s.readFlags caller a context).1 = .ok (flags.filter (·.isSet)) := by
  have hread := readBeside_ok hspace hopen hidle hcalm hroom s.flagsKind a
  rw [hstored] at hread
  rw [readFlags, Action.bind_apply]
  rcases hr : s.readBeside caller s.flagsKind a context with ⟨r, g⟩
  rw [hr] at hread
  obtain rfl := hread
  have hmap : (flags.map fun f => (⟨(KeyFactory.mk space s.flagsKind).key a, f.properties⟩ : Entity)).map
      flagsOf = flags := by
    cases flags with
    | none => rfl
    | some f => exact congrArg some (flagsOf_properties f _)
  exact congrArg (fun found => Except.ok (found.filter (·.isSet))) hmap

end Reading

end AggregateStore

end DocumentStore
