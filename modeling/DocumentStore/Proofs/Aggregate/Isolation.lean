import DocumentStore.Proofs.Aggregate.Histories
import DocumentStore.Proofs.Operation.Confined
import DocumentStore.Proofs.Operation.Runs
set_option autoImplicit false

/-!
# Aggregates do not disturb each other

The aggregates of a kind share one space of keys for the entries of their histories.  What is read of an
aggregate depends on the documents that are about it alone, and a call on another aggregate leaves
these as they are unless it puts an entry under a key that one of them has.  When that happens is said
by `HistoryRecord.keyName_eq_iff_of_ne`: the aggregates share an event, or have snapshots that clash.
-/

namespace DocumentStore

open DocumentStore.Action (Respects)

/-! ## Calls on aggregates -/

/-- A call that writes or deletes something of an aggregate. -/
inductive AggregateCall (ι : Type) where
  | writeEntry (id : ι) (r : HistoryRecord)
  | writeHistory (id : ι) (h : AggregateHistory)
  | truncate (id : ι) (index : Nat)
  | writeCount (id : ι) (count : Int)
  | writeFlags (id : ι) (flags : LifecycleFlags)

namespace AggregateCall

variable {ι : Type}

/-- The aggregate that a call is about. -/
def id : AggregateCall ι → ι
  | .writeEntry id _ | .writeHistory id _ | .truncate id _ | .writeCount id _ | .writeFlags id _ => id

/-- The entries that a call adds to the history of its aggregate. -/
def entries : AggregateCall ι → List HistoryRecord
  | .writeEntry _ r => [r]
  | .writeHistory _ h => h.records
  | _ => []

/-- The call as an operation of a handle. -/
def operation : AggregateCall ι → Operation ι
  | .writeEntry id r => .writeEntry id r
  | .writeHistory id h => .writeHistory id h
  | .truncate id index => .truncate id index
  | .writeCount id count => .writeCount id count
  | .writeFlags id flags => .writeFlags id flags

end AggregateCall

/-- Something that is read of an aggregate. -/
inductive AggregateRead where
  | historyBackward (batch : Nat) (count : Option Nat)
  | history (batch : Nat)
  | eventCount
  | lifecycleFlags

/-- The reading of an aggregate as an operation of a handle. -/
def AggregateRead.operation {ι : Type} (id : ι) : AggregateRead → Operation ι
  | .historyBackward batch count => .historyBackward id batch count
  | .history batch => .readHistory id batch
  | .eventCount => .readCount id
  | .lifecycleFlags => .readFlags id

/-- A context in which no failure waits any more. -/
def Context.undisturbed (s : Context) : Context :=
  { s with connection := { s.connection with store := { s.connection.store with failures := [] } } }

namespace AggregateStore

open HistoryRecord

variable {ι : Type} [RecordId ι] {s : AggregateStore ι} {space : Namespace} {caller : Caller}
  {call : AggregateCall ι} {calls : List (Caller × AggregateCall ι)} {a b : ι}

/-- What calls leave, made one after another, whether they succeed or not. -/
def runCalls (s : AggregateStore ι) (calls : List (Caller × AggregateCall ι)) (context : Context) :
    Context :=
  calls.foldl (fun context call => (call.2.operation.perform s.settings call.1 context).2) context

/-- Whether a kind is that of one of the values beside histories. -/
def Beside (s : AggregateStore ι) (kind : Kind) : Prop := kind = s.countKind ∨ kind = s.flagsKind

omit [RecordId ι] in
theorem Beside.ne_kind {kind : Kind} (h : s.Beside kind) : kind ≠ s.settings.kind := by
  have hchild (suffix : String) : s.settings.kind.child suffix ≠ s.settings.kind := by
    intro heq
    have hlength := congrArg (fun kind => kind.name.length) heq
    simp only [Kind.child, String.length_append] at hlength
    have hdot : ".".length = 1 := rfl
    omega
  rcases h with rfl | rfl
  · exact hchild _
  · exact hchild _

theorem Beside.ne_kind_of_key {kind : Kind} (h : s.Beside kind) {k : Key} {id : ι}
    (hk : k = (KeyFactory.mk space kind).key id) : k.kind ≠ s.settings.kind := by
  rw [hk]
  exact h.ne_kind

/-- Whether a document is an entry of the history of an aggregate, or a value beside it. -/
def About (s : AggregateStore ι) (space : Namespace) (id : ι) (e : Entity) : Prop :=
  (s.historyQuery space id).selects e = true ∨
    ∃ kind, s.Beside kind ∧ e.key = (KeyFactory.mk space kind).key id

/-! ## What is read -/

/-- What is read of an aggregate depends on the documents about it alone. -/
theorem read_respects (hspace : s.settings.resolver.current caller.tenant = .ok space) (id : ι)
    (read : AggregateRead) :
    Respects (Context.Agree (s.About space id)) ((read.operation id).perform s.settings caller) := by
  have hanswer {α : Type} {x : Action Context α} (hx : Respects (Context.Agree (s.About space id)) x)
      (answer : α → Answer ι) :
      Respects (Context.Agree (s.About space id)) (x >>= fun a => pure (answer a)) :=
    hx.bind fun _ => (Context.Quiet.pure _).respects
  have hhistory (batch : Nat) : (s.historyEntities caller id batch).Within (s.About space id) := by
    refine s.historyEntities_within fun space' hspace' e he => .inl ?_
    rw [hspace] at hspace'
    obtain rfl := Except.ok.inj hspace'
    exact he
  have hbeside {kind : Kind} (hkind : s.Beside kind) (keys : KeyFactory)
      (hkeys : s.settings.keysOf caller kind = .ok keys) : (keys.key id).Within (s.About space id) := by
    rw [HandleSettings.keysOf_of_current hspace] at hkeys
    obtain rfl := Except.ok.inj hkeys
    exact fun _ => .inr ⟨kind, hkind, rfl⟩
  cases read with
  | historyBackward batch count =>
    exact hanswer (Context.pull_respects count (s.historyEntities_uses caller id batch) (hhistory batch))
      Answer.entries
  | history batch => exact hanswer (s.readHistory_respects (hhistory batch)) Answer.history
  | eventCount => exact hanswer (s.readCount_respects (hbeside (.inl rfl))) Answer.count
  | lifecycleFlags => exact hanswer (s.readFlags_respects (hbeside (.inr rfl))) Answer.flags

/-! ## What is written -/

/-- What a call may write: its entries, the removal of documents of the history, and the values beside
it. -/
inductive Plans (s : AggregateStore ι) (space : Namespace) (caller : Caller) (call : AggregateCall ι)
    (store : Store) : Write → Prop where
  | entry {e : Entity} (r : HistoryRecord) (hr : r ∈ call.entries)
    (he : e = toEntity ⟨space, s.settings.kind⟩ (RecordId.toName call.id) caller.clock r) :
    Plans s space caller call store (e.key, some e.properties)
  | removal {e : Entity} (hmem : e ∈ store.entities)
    (hselects : (s.historyQuery space call.id).selects e = true) :
    Plans s space caller call store (e.key, none)
  | beside {kind : Kind} (hkind : s.Beside kind) (properties : Properties) :
    Plans s space caller call store ((KeyFactory.mk space kind).key call.id, some properties)

/-- The writes of a call. -/
theorem plans_of_mem_writes (hspace : s.settings.resolver.current caller.tenant = .ok space)
    {c : Connection} (hidle : c.slot.isActive = false) {ws : List Write}
    (h : call.operation.writes s.settings caller c = .ok ws) :
    ∀ w ∈ ws, s.Plans space caller call c.store w := by
  have hhistory {id : ι} {records : List HistoryRecord} {ws : List Write} (hid : call.id = id)
      (hrecords : ∀ r ∈ records, r ∈ call.entries)
      (h : Operation.historyWrites s.settings caller id records = .ok ws) :
      ∀ w ∈ ws, s.Plans space caller call c.store w := by
    rw [Operation.historyWrites, HandleSettings.keysOf_of_current hspace] at h
    cases h
    intro w hw
    obtain ⟨e, he, rfl⟩ := List.mem_map.mp hw
    obtain ⟨r, hr, rfl⟩ := List.mem_map.mp he
    exact .entry r (hrecords r hr) (hid ▸ rfl)
  have hbeside {kind : Kind} (hkind : s.Beside kind) {properties : List (String × NativeValue)}
      {ws : List Write}
      (h : Operation.besideWrites s.settings caller kind call.id properties = .ok ws) :
      ∀ w ∈ ws, s.Plans space caller call c.store w := by
    rw [Operation.besideWrites, HandleSettings.keysOf_of_current hspace] at h
    cases h
    intro w hw
    obtain rfl := List.mem_singleton.mp hw
    exact .beside hkind _
  cases call with
  | writeEntry id r => exact hhistory rfl (fun _ hr => hr) h
  | writeHistory id history =>
    rw [AggregateCall.operation, Operation.writes] at h
    split at h
    · cases h
      exact List.forall_mem_nil _
    · exact hhistory rfl (fun _ hr => hr) h
  | truncate id index =>
    obtain ⟨keys, hkeys, h⟩ := Outcome.bind_eq_ok h
    cases h
    intro w hw
    obtain ⟨k, hk, rfl⟩ := List.mem_map.mp hw
    obtain ⟨space', e, hspace', hmem, hselects, rfl⟩ := Operation.exists_of_mem_doomed hidle hkeys k hk
    rw [hspace] at hspace'
    obtain rfl := Except.ok.inj hspace'
    exact .removal hmem hselects
  | writeCount id count => exact hbeside (.inl rfl) h
  | writeFlags id flags => exact hbeside (.inr rfl) h

/-- A call applies some of its writes, and changes nothing else of the store's data. -/
theorem perform_wrote (call : AggregateCall ι)
    (hspace : s.settings.resolver.current caller.tenant = .ok space) {context : Context}
    (hidle : context.connection.slot.isActive = false) :
    ∃ done, (∀ w ∈ done, s.Plans space caller call context.connection.store w) ∧
      Connection.Wrote done context.connection
        (call.operation.perform s.settings caller context).2.connection :=
  (call.operation.perform_chain s.settings caller context fun _ hws =>
    plans_of_mem_writes hspace hidle hws).wrote hidle

/-! ## Documents of one aggregate -/

/-- A document is about one aggregate at most. -/
theorem About.id_eq [LawfulRecordId ι] {e : Entity} (ha : s.About space a e) (hb : s.About space b e) :
    a = b := by
  rcases ha with ha | ⟨kind, hkind, ha⟩ <;> rcases hb with hb | ⟨kind', hkind', hb⟩
  · have hname := (selects_historyQuery.mp ha).2
    rw [(selects_historyQuery.mp hb).2] at hname
    exact LawfulRecordId.eq_of_toName_eq (NativeValue.string.inj (Option.some.inj hname)).symm
  · exact absurd (selects_historyQuery.mp ha).1.2 (hkind'.ne_kind_of_key hb)
  · exact absurd (selects_historyQuery.mp hb).1.2 (hkind.ne_kind_of_key ha)
  · exact LawfulRecordId.eq_of_toName_eq (congrArg Key.name (ha.symm.trans hb))

/-- What a call puts is one of its entries, or a value beside the history. -/
theorem Plans.put_cases {store : Store} {e : Entity}
    (h : s.Plans space caller call store (e.key, some e.properties)) :
    (∃ r ∈ call.entries,
        e = toEntity ⟨space, s.settings.kind⟩ (RecordId.toName call.id) caller.clock r) ∨
      ∃ kind, s.Beside kind ∧ e.key = (KeyFactory.mk space kind).key call.id := by
  generalize hw : (e.key, some e.properties) = w at h
  cases h with
  | entry r hr he =>
    obtain ⟨key, properties⟩ := e
    cases hw
    exact .inl ⟨r, hr, he⟩
  | removal => cases congrArg Prod.snd hw
  | beside hkind properties => exact .inr ⟨_, hkind, (Prod.mk.inj hw).1⟩

/-- What a call puts is about its aggregate. -/
theorem Plans.about {store : Store} {e : Entity}
    (h : s.Plans space caller call store (e.key, some e.properties)) : s.About space call.id e := by
  rcases h.put_cases with ⟨r, -, rfl⟩ | hbeside
  · exact .inl (selects_historyQuery.mpr ⟨⟨rfl, rfl⟩, (get?_toEntity ..).1⟩)
  · exact .inr hbeside

/-! ## Entries of one aggregate -/

/-- Whether a connection can be used, and what it holds of the history of an aggregate was added by
calls. -/
structure Traced (s : AggregateStore ι) (space : Namespace) (id : ι)
    (calls : List (Caller × AggregateCall ι)) (c : Connection) : Prop where
  isOpen : c.closed = false
  idle : c.slot.isActive = false
  added : ∀ e ∈ c.store.entities, (s.historyQuery space id).selects e = true →
    ∃ earlier ∈ calls, earlier.2.id = id ∧ ∃ r ∈ earlier.2.entries,
      e = toEntity ⟨space, s.settings.kind⟩ (RecordId.toName id) earlier.1.clock r

theorem Traced.perform [LawfulRecordId ι] {id : ι} {context : Context}
    (h : s.Traced space id calls context.connection)
    (hspace : s.settings.resolver.current caller.tenant = .ok space) (call : AggregateCall ι) :
    s.Traced space id (calls ++ [(caller, call)])
      (call.operation.perform s.settings caller context).2.connection := by
  obtain ⟨done, hdone, hwrote⟩ := perform_wrote call hspace h.idle
  refine ⟨hwrote.closed.trans h.isOpen, hwrote.slot ▸ h.idle, fun e he hselects => ?_⟩
  have hkeeps : Write.Keeps (s.Plans space caller call context.connection.store) fun documents =>
      ∀ e, documents.get? e.key = some e.properties → (s.historyQuery space id).selects e = true →
        ∃ earlier ∈ calls ++ [(caller, call)], earlier.2.id = id ∧ ∃ r ∈ earlier.2.entries,
          e = toEntity ⟨space, s.settings.kind⟩ (RecordId.toName id) earlier.1.clock r := by
    intro documents w hw hold e hget hselects
    rw [Write.get?_applyWrite] at hget
    split at hget
    -- A document under the key of a write is what the call has put there.
    · next hkey =>
      have hput : s.Plans space caller call context.connection.store (e.key, some e.properties) := by
        rw [hkey, ← hget]
        exact hw
      obtain rfl := hput.about.id_eq (.inl hselects)
      rcases hput.put_cases with ⟨r, hr, he⟩ | ⟨kind, hkind, hkey⟩
      · exact ⟨(caller, call), List.mem_append_right _ (List.mem_singleton_self _), rfl, r, hr, he⟩
      · exact absurd (selects_historyQuery.mp hselects).1.2 (hkind.ne_kind_of_key hkey)
    · exact hold e hget hselects
  rw [Store.mem_entities, hwrote.sameData.documents] at he
  refine hkeeps.applyAll (fun e he hselects => ?_) hdone e he hselects
  obtain ⟨earlier, hmem, hadded⟩ := h.added e (Store.mem_entities.mpr he) hselects
  exact ⟨earlier, List.mem_append_left _ hmem, hadded⟩

/-- Whatever calls are made, an aggregate whose history was empty holds what was added to it. -/
theorem Traced.runCalls [LawfulRecordId ι] {id : ι} {before : List (Caller × AggregateCall ι)}
    {context : Context} (h : s.Traced space id before context.connection)
    (hspace : ∀ call ∈ calls, s.settings.resolver.current call.1.tenant = .ok space) :
    s.Traced space id (before ++ calls) (s.runCalls calls context).connection := by
  induction calls generalizing before context with
  | nil =>
    rw [List.append_nil]
    exact h
  | cons call rest ih =>
    obtain ⟨hcall, hrest⟩ := List.forall_mem_cons.mp hspace
    have hrun := ih (h.perform hcall call.2) hrest
    rw [List.append_assoc] at hrun
    exact hrun

/-! ## Other aggregates -/

section Other

variable [LawfulRecordId ι] {context : Context} (hab : call.id ≠ b)
  (htraced : s.Traced space b calls context.connection)
  (hkeys : ∀ r ∈ call.entries, ∀ earlier ∈ calls, earlier.2.id = b → ∀ r' ∈ earlier.2.entries,
    r.keyName (RecordId.toName call.id) ≠ r'.keyName (RecordId.toName b))

include hab htraced hkeys

/-- A call on another aggregate whose entries have keys of their own writes under no key of a document
about the aggregate. -/
theorem Plans.key_ne {w : Write} (hw : s.Plans space caller call context.connection.store w) {e : Entity}
    (hmem : e ∈ context.connection.store.entities) (habout : s.About space b e) : e.key ≠ w.1 := by
  intro hkey
  cases hw with
  | @entry e' r hr he =>
    rcases habout with hselects | ⟨kind, hkind, hbeside⟩
    · obtain ⟨earlier, hearlier, hid, r', hr', he'⟩ := htraced.added e hmem hselects
      rw [he, he'] at hkey
      exact hkeys r hr earlier hearlier hid r' hr' (congrArg Key.name hkey).symm
    · refine hkind.ne_kind_of_key hbeside ?_
      rw [hkey, he]
      rfl
  | removal hmem' hselects =>
    obtain rfl := Store.eq_of_key_eq hmem hmem' hkey
    exact hab (About.id_eq (.inl hselects) habout)
  | beside hkind properties => exact hab (About.id_eq (.inr ⟨_, hkind, hkey⟩) habout)

/-- Such a call leaves the documents about the aggregate as they are. -/
theorem agree_undisturbed (hspace : s.settings.resolver.current caller.tenant = .ok space) :
    Context.Agree (s.About space b)
      (call.operation.perform s.settings caller context).2.undisturbed context.undisturbed := by
  obtain ⟨done, hdone, hwrote⟩ := perform_wrote call hspace htraced.idle
  have hkeeps : Write.Keeps (s.Plans space caller call context.connection.store) fun documents =>
      ∀ e, s.About space b e → (documents.get? e.key = some e.properties ↔
        context.connection.store.documents.get? e.key = some e.properties) := by
    intro documents w hw hold e habout
    rw [Write.get?_applyWrite]
    split
    -- Under the key of a write there was no document about the aggregate, and none comes there.
    · next hkey =>
      refine iff_of_false (fun hput => ?_) fun hmem => ?_
      · have hplans : s.Plans space caller call context.connection.store (e.key, some e.properties) := by
          rw [hkey, ← hput]
          exact hw
        exact hab (hplans.about.id_eq habout)
      · exact hw.key_ne hab htraced hkeys (Store.mem_entities.mpr hmem) habout hkey
    · exact hold e habout
  have hdata := hwrote.sameData
  have hkept := hkeeps.applyAll (fun _ _ => .rfl) hdone
  exact ⟨hwrote.closed.trans htraced.isOpen, htraced.isOpen, hwrote.slot ▸ htraced.idle, htraced.idle,
    hdata.limits, hdata.pageLimit, rfl, rfl, hdata.documents.symm ▸ hkept⟩

end Other

/-- What is read of an aggregate is not changed by a call on another one: neither its history, read
backwards by any number of entries or back to the latest snapshot, nor the values beside it.  The calls
before may have been made for any aggregates, and any of them may have failed.  What is excluded is that
the call adds an event that was added to the aggregate before, or a snapshot that clashes with one that
was. -/
theorem read_unchanged_of_call [LawfulRecordId ι] {context : Context}
    (hopen : context.connection.closed = false)
    (hidle : context.connection.slot.isActive = false)
    (hnone : ∀ e ∈ context.connection.store.entities, e.key.space = space →
      e.key.kind = s.settings.kind → e.get? aggregateProperty ≠ some (.string (RecordId.toName b)))
    (hspace : ∀ call ∈ calls, s.settings.resolver.current call.1.tenant = .ok space)
    (hcaller : s.settings.resolver.current caller.tenant = .ok space)
    (hab : call.id ≠ b)
    (hevents : ∀ r ∈ call.entries, ∀ earlier ∈ calls, earlier.2.id = b → ∀ r' ∈ earlier.2.entries,
      ¬SameEvent r r')
    (hclash : ∀ r ∈ call.entries, ∀ earlier ∈ calls, earlier.2.id = b → ∀ r' ∈ earlier.2.entries,
      ¬SnapshotsClash (RecordId.toName call.id) (RecordId.toName b) r r')
    {reader : Caller} (hreader : s.settings.resolver.current reader.tenant = .ok space)
    (read : AggregateRead) :
    ((read.operation b).perform s.settings reader
        (s.runCalls (calls ++ [(caller, call)]) context).undisturbed).1 =
      ((read.operation b).perform s.settings reader (s.runCalls calls context).undisturbed).1 := by
  have hstart : s.Traced space b [] context.connection :=
    ⟨hopen, hidle, fun e he hselects =>
      have ⟨⟨hspace, hkind⟩, hname⟩ := selects_historyQuery.mp hselects
      absurd hname (hnone e he hspace hkind)⟩
  have htraced := hstart.runCalls hspace
  have hlast : s.runCalls (calls ++ [(caller, call)]) context =
      (call.operation.perform s.settings caller (s.runCalls calls context)).2 := by
    rw [runCalls, List.foldl_append]
    rfl
  have hkeys : ∀ r ∈ call.entries, ∀ earlier ∈ calls, earlier.2.id = b → ∀ r' ∈ earlier.2.entries,
      r.keyName (RecordId.toName call.id) ≠ r'.keyName (RecordId.toName b) := by
    intro r hr earlier hearlier hid r' hr'
    rw [Ne, keyName_eq_iff_of_ne fun h => hab (LawfulRecordId.eq_of_toName_eq h), not_or]
    exact ⟨hevents r hr earlier hearlier hid r' hr', hclash r hr earlier hearlier hid r' hr'⟩
  rw [hlast]
  exact (read_respects hreader b read _ _ (agree_undisturbed hab htraced hkeys hcaller)).answer

/-- A snapshot of an aggregate at a negative version. -/
def earlierCalls : List (Caller × AggregateCall String) :=
  [(default, .writeEntry "x" (snapshotAt (-5) [1]))]

/-- The snapshot of another aggregate that takes its place. -/
def clashingCall : AggregateCall String := .writeEntry "x-" (snapshotAt 5 [2])

theorem history_lost_of_clash :
    clashingCall.id ≠ "x" ∧ SnapshotsClash "x-" "x" (snapshotAt 5 [2]) (snapshotAt (-5) [1]) ∧
      ((singleStore.historyBackward default "x" 1).drain
        (singleStore.runCalls earlierCalls singleContext).connection).1.items =
          [.ok (snapshotAt (-5) [1])] ∧
      ((singleStore.historyBackward default "x" 1).drain
        (singleStore.runCalls (earlierCalls ++ [(default, clashingCall)]) singleContext).connection).1.items =
          [] := by
  refine ⟨by decide, by decide, ?_, ?_⟩
  · decide +kernel
  · decide +kernel

/-- Calls on two aggregates one of which has the name of the other with a hyphen at the end. -/
def mixedCalls : List (Caller × AggregateCall String) :=
  [(default, .writeHistory "x" ⟨some ⟨5, ⟨0, 0⟩, [1]⟩, [⟨⟨1⟩, 6, ⟨0, 0⟩, []⟩]⟩),
    (default, .writeHistory "x-" ⟨some ⟨4, ⟨0, 0⟩, [2]⟩, [⟨⟨2⟩, 5, ⟨0, 0⟩, []⟩]⟩),
    (default, .writeCount "x" 1), (default, .truncate "x-" 0)]

/-- A call with a snapshot of the opposite version that does not clash. -/
def oppositeCall : AggregateCall String :=
  .writeHistory "x-" ⟨some ⟨-5, ⟨0, 0⟩, [3]⟩, [⟨⟨3⟩, -4, ⟨0, 0⟩, []⟩]⟩

theorem read_unchanged_of_call_opposite :
    oppositeCall.id ≠ "x" ∧
      (singleStore.runCalls mixedCalls singleContext).connection.store.size = 5 ∧
      (singleStore.runCalls (mixedCalls ++ [(default, oppositeCall)]) singleContext).connection.store.size =
        7 ∧
      ∀ read : AggregateRead,
        ((read.operation "x").perform singleStore.settings default
            (singleStore.runCalls (mixedCalls ++ [(default, oppositeCall)]) singleContext).undisturbed).1 =
          ((read.operation "x").perform singleStore.settings default
            (singleStore.runCalls mixedCalls singleContext).undisturbed).1 := by
  have hspace (caller : Caller) : singleStore.settings.resolver.current caller.tenant = .ok ⟨""⟩ := rfl
  refine ⟨by decide, by decide +kernel, by decide +kernel, fun read => ?_⟩
  exact read_unchanged_of_call rfl rfl (fun e he => by cases he) (fun call _ => hspace call.1)
    (hspace default) (by decide) (by decide) (by decide) (hspace default) read

end AggregateStore

end DocumentStore
