import DocumentStore.Proofs.Access.Streams
import DocumentStore.Proofs.Access.Wrote
import DocumentStore.Proofs.Aggregate.Entries
import DocumentStore.Proofs.Document.Order
import DocumentStore.Proofs.Operation.Chains
import DocumentStore.Proofs.Record.Stored
import DocumentStore.Proofs.Sorted.Stable
import DocumentStore.Proofs.Store.Last
set_option autoImplicit false

/-!
# Histories read backwards

What a history read backwards gives after any number of calls that wrote to it: the last entry written
in each slot, newest first, whatever was written in which call and however the reading is paged.
-/

namespace DocumentStore

/-! ## Entries with the instant of their writing -/

/-- An entry of a history, and when it was written. -/
structure DatedRecord where
  record : HistoryRecord
  created : Timestamp
  deriving DecidableEq, Repr, Inhabited

namespace DatedRecord

open HistoryRecord

/-- The entity that an entry is stored as. -/
def entity (keys : KeyFactory) (aggregate : String) (w : DatedRecord) : Entity :=
  toEntity keys aggregate w.created w.record

/-- Whether an entry may stand before another one in a history read backwards: its version is higher,
or the same and it was written later, or at the same instant and is not an event before a snapshot. -/
def MayPrecede (a b : DatedRecord) : Prop :=
  b.record.version < a.record.version ∨
    b.record.version = a.record.version ∧
      (compare b.created a.created = .lt ∨
        b.created = a.created ∧ (b.record.isSnapshot = true → a.record.isSnapshot = true))

/-- Entries by version, then by the instant of writing, events before snapshots. -/
def age : DatedRecord → DatedRecord → Ordering :=
  compareLex (compareOn fun w => w.record.version)
    (compareLex (compareOn DatedRecord.created) (compareOn fun w => w.record.isSnapshot))

instance : Std.TransCmp age :=
  inferInstanceAs (Std.TransCmp (compareLex (compareOn fun w : DatedRecord => w.record.version)
    (compareLex (compareOn DatedRecord.created) (compareOn fun w => w.record.isSnapshot))))

instance : Std.TransCmp fun a b => age b a := Std.TransCmp.opposite

theorem mayPrecede_of_isLE {a b : DatedRecord} (h : (age b a).isLE) : MayPrecede a b := by
  have hsnapshot : ∀ x y : Bool, (compare x y).isLE = true → x = true → y = true := by decide
  simp only [age, compareLex, compareOn, Ordering.isLE_then_iff_or] at h
  rcases h with hlt | ⟨hversion, hlt | ⟨hcreated, hle⟩⟩
  · exact .inl (Int.compare_eq_lt.mp hlt)
  · exact .inr ⟨Std.LawfulEqOrd.eq_of_compare hversion, .inl hlt⟩
  · exact .inr ⟨Std.LawfulEqOrd.eq_of_compare hversion,
      .inr ⟨Std.LawfulEqOrd.eq_of_compare hcreated, hsnapshot _ _ hle⟩⟩

/-- Entities of entries are sorted like the entries. -/
theorem compareAll_entity (keys : KeyFactory) (aggregate : String) (a b : DatedRecord) :
    SortKey.compareAll AggregateStore.backward (a.entity keys aggregate) (b.entity keys aggregate) =
      age b a := by
  obtain ⟨-, hversion, hcreated, hsnapshot⟩ := get?_toEntity keys aggregate a.created a.record
  obtain ⟨-, hversion', hcreated', hsnapshot'⟩ := get?_toEntity keys aggregate b.created b.record
  simp only [SortKey.compareAll, AggregateStore.backward, SortKey.compare, SortKey.value, entity, hversion,
    hcreated, hsnapshot, hversion', hcreated', hsnapshot', Option.getD_some, NativeValue.order,
    NativeValue.compare?, Ordering.then_eq]
  rfl

end DatedRecord

/-! ## Reading -/

namespace AggregateStore

open HistoryRecord

variable {ι : Type} [RecordId ι] {s : AggregateStore ι} {space : Namespace} {id : ι}

/-- A history has the entities of its namespace and kind that name the aggregate. -/
theorem selects_historyQuery {e : Entity} :
    (s.historyQuery space id).selects e = true ↔
      (e.key.space = space ∧ e.key.kind = s.settings.kind) ∧
        e.get? aggregateProperty = some (.string (RecordId.toName id)) := by
  have hequal {a b : String} : (compare a b == .eq) = true ↔ a = b :=
    beq_iff_eq.trans Std.LawfulEqCmp.compare_eq_iff_eq
  have hholds : PropertyFilter.holds ⟨aggregateProperty, .equal, .string (RecordId.toName id)⟩ e = true ↔
      e.get? aggregateProperty = some (.string (RecordId.toName id)) := by
    unfold PropertyFilter.holds
    rcases e.get? aggregateProperty with _ | value
    · simp
    · cases value <;> simp [NativeValue.compare?, FilterOp.accepts, hequal]
  simp only [historyQuery, EntityQuery.selects, Option.all_some, ConjunctiveFilter.holds, List.all_cons,
    List.all_nil, Bool.and_true, Bool.and_eq_true, beq_iff_eq, hholds, EntityQuery.all]

theorem historyEntities_eq_walk {caller : Caller} {batch : Nat}
    (hspace : s.settings.resolver.current caller.tenant = .ok space) (hbatch : 1 ≤ batch) :
    s.historyEntities caller id batch =
      .walk (.start s.settings.policy (s.historyQuery space id) batch) := by
  rw [historyEntities, if_neg (by omega), hspace]

/-- Reading a history backwards gives the entries of what its query finds, however it is paged. -/
theorem drain_historyBackward {caller : Caller} {batch : Nat} {store : Store} {c : Connection}
    (hspace : s.settings.resolver.current caller.tenant = .ok space) (hbatch : 1 ≤ batch)
    (hsized : store.WellSized) (hserves : c.Serves store) :
    ((s.historyBackward caller id batch).drain c).1 =
      ⟨(store.results (s.historyQuery space id)).map ofEntity, true⟩ := by
  rw [historyBackward, historyEntities_eq_walk hspace hbatch]
  exact ItemStream.drain_of_pending hsized (.walk (Walk.pending_start store _ batch rfl)) hserves

end AggregateStore

/-! ## Writing -/

/-- What is put for an aggregate is written as a whole, if that is answered. -/
theorem AggregateStore.wrote_of_putAll_ok {ι : Type} [RecordId ι] {s : AggregateStore ι} {id : ι}
    {context context' : Context} (hidle : context.connection.slot.isActive = false) {keys : KeyFactory}
    {batch : List Entity} (h : s.putAll id keys batch context = (.ok (), context')) :
    Connection.Wrote (Write.ofEntities batch) context.connection context'.connection ∧
      Connection.Unfailed context.connection context'.connection := by
  rw [putAll, Action.bind_apply, Context.onConnection, Action.onPart] at h
  rcases hput : Connection.put s.settings.policy batch (s.label id) context.connection with
    ⟨e | _, c⟩ <;> rw [hput] at h
  · cases h
  · cases h
    exact Connection.wrote_of_execute_ok (Session.put_performs s.settings.policy.limits batch) hidle hput

/-- A call that adds to the history of an aggregate, and the instant at which it is made. -/
inductive HistoryCall where
  | entry (created : Timestamp) (r : HistoryRecord)
  | history (created : Timestamp) (h : AggregateHistory)

namespace HistoryCall

/-- The entries that a call adds. -/
def written : HistoryCall → List DatedRecord
  | .entry created r => [⟨r, created⟩]
  | .history created h => h.records.map (⟨·, created⟩)

variable {ι : Type} [RecordId ι]

/-- What a call does to the history of an aggregate. -/
def perform (s : AggregateStore ι) (tenant : Option Tenant) (id : ι) :
    HistoryCall → Action Context Unit
  | .entry created r => s.writeRecord ⟨tenant, created⟩ id r
  | .history created h => s.writeHistory ⟨tenant, created⟩ id h

/-- One call after another, up to the first that fails. -/
def performAll (s : AggregateStore ι) (tenant : Option Tenant) (id : ι) (calls : List HistoryCall) :
    Action Context Unit :=
  forM calls (perform s tenant id)

variable {s : AggregateStore ι} {tenant : Option Tenant} {space : Namespace} {id : ι}
  {context context' : Context}

/-- What a call that answered has written. -/
theorem wrote_of_perform_ok (hspace : s.settings.resolver.current tenant = .ok space)
    (hidle : context.connection.slot.isActive = false) {call : HistoryCall}
    (h : call.perform s tenant id context = (.ok (), context')) :
    Connection.Wrote (Write.ofEntities (call.written.map
        (DatedRecord.entity ⟨space, s.settings.kind⟩ (RecordId.toName id))))
      context.connection context'.connection ∧
      Connection.Unfailed context.connection context'.connection := by
  have hrecords {created : Timestamp} {records : List HistoryRecord}
      (h : s.writeRecords ⟨tenant, created⟩ id records context = (.ok (), context')) :
      Connection.Wrote (Write.ofEntities ((records.map (DatedRecord.mk · created)).map
          (DatedRecord.entity ⟨space, s.settings.kind⟩ (RecordId.toName id))))
        context.connection context'.connection ∧
        Connection.Unfailed context.connection context'.connection := by
    have hkeys : s.settings.keysOf ⟨tenant, created⟩ s.settings.kind = .ok ⟨space, s.settings.kind⟩ :=
      HandleSettings.keysOf_of_current hspace
    obtain ⟨g, hg, hsame⟩ :=
      (Context.Quiet.currentKeys s.settings ⟨tenant, created⟩ s.settings.kind).exists_eq context
    rw [hkeys] at hg
    rw [AggregateStore.writeRecords, Action.bind_ok hg] at h
    have hwrote := AggregateStore.wrote_of_putAll_ok (hsame ▸ hidle) h
    rw [hsame] at hwrote
    rw [List.map_map]
    exact hwrote
  cases call with
  | entry created r => exact hrecords h
  | history created history =>
    rw [perform, AggregateStore.writeHistory] at h
    split at h
    · next hempty =>
      cases h
      rw [written, List.isEmpty_iff.mp hempty]
      exact ⟨.refl _, .refl _⟩
    · exact hrecords h

/-- What a run of calls that all answered has written. -/
theorem wrote_of_performAll_ok (hspace : s.settings.resolver.current tenant = .ok space)
    (hidle : context.connection.slot.isActive = false) {calls : List HistoryCall}
    (h : performAll s tenant id calls context = (.ok (), context')) :
    Connection.Wrote (Write.ofEntities ((calls.flatMap written).map
        (DatedRecord.entity ⟨space, s.settings.kind⟩ (RecordId.toName id))))
      context.connection context'.connection ∧
      Connection.Unfailed context.connection context'.connection := by
  induction calls generalizing context with
  | nil =>
    cases h
    exact ⟨.refl _, .refl _⟩
  | cons call rest ih =>
    rw [performAll, List.forM_cons] at h
    rcases hcall : call.perform s tenant id context with ⟨e | _, g⟩
    · rw [Action.bind_error hcall] at h
      cases h
    · rw [Action.bind_ok hcall] at h
      obtain ⟨hwrote, hunfailed⟩ := wrote_of_perform_ok hspace hidle hcall
      obtain ⟨hmore, hunfailed'⟩ := ih (hwrote.slot ▸ hidle) h
      have hall := hwrote.trans hmore
      rw [Write.ofEntities, Write.ofEntities, ← List.map_append, ← List.map_append] at hall
      exact ⟨hall, hunfailed.trans hunfailed'⟩

end HistoryCall

namespace AggregateStore

open HistoryRecord

variable {ι : Type} [RecordId ι] {s : AggregateStore ι} {space : Namespace} {id : ι}

/-- What a history holds is what is stored of it, newest first. -/
theorem results_of_stored {store : Store} {stored : List DatedRecord}
    (hstored : store.entities.filter (s.historyQuery space id).selects =
      stored.map (DatedRecord.entity ⟨space, s.settings.kind⟩ (RecordId.toName id))) :
    store.results (s.historyQuery space id) =
      (Sorted.stable (fun a b => DatedRecord.age b a) stored).map
        (DatedRecord.entity ⟨space, s.settings.kind⟩ (RecordId.toName id)) := by
  have hcompare := DatedRecord.compareAll_entity ⟨space, s.settings.kind⟩ (RecordId.toName id)
  rw [← Sorted.stable_map hcompare, Store.results, hstored]
  rfl

/-- What the history of an aggregate holds once entries were written: of those and the ones stored before
the last of each slot, newest first. -/
theorem results_of_written {store store' : Store} {stored written : List DatedRecord}
    (hstored : store.entities.filter (s.historyQuery space id).selects =
      stored.map (DatedRecord.entity ⟨space, s.settings.kind⟩ (RecordId.toName id)))
    (hwritten : store'.documents = Write.applyAll store.documents (Write.ofEntities
      (written.map (DatedRecord.entity ⟨space, s.settings.kind⟩ (RecordId.toName id))))) :
    ∃ found : List DatedRecord, found.Perm (lastBy (·.record.slot) (stored ++ written)) ∧
      (found.Pairwise fun a b => (DatedRecord.age b a).isLE) ∧
      store'.results (s.historyQuery space id) =
        found.map (DatedRecord.entity ⟨space, s.settings.kind⟩ (RecordId.toName id)) := by
  let entity := DatedRecord.entity ⟨space, s.settings.kind⟩ (RecordId.toName id)
  have hkey (a b : DatedRecord) : (entity a).key = (entity b).key ↔ a.record.slot = b.record.slot :=
    ⟨fun h => keyName_eq_iff.mp (congrArg Key.name h),
      fun h => congrArg (KeyFactory.named ⟨space, s.settings.kind⟩) (keyName_eq_iff.mpr h)⟩
  have hlast := lastBy_map hkey (stored ++ written)
  rw [List.map_append] at hlast
  have hkept : lastBy Entity.key (stored.map entity) = stored.map entity := by
    refine lastBy_of_nodup (Eq.subst (motive := fun l => (l.map Entity.key).Nodup) hstored ?_)
    exact ((List.filter_sublist).map Entity.key).nodup store.nodup_keys_entities
  have hmem (e : Entity) : e ∈ store'.entities.filter (s.historyQuery space id).selects ↔
      e ∈ (lastBy (·.record.slot) (stored ++ written)).map entity := by
    rw [← hlast, mem_lastBy_append, hkept, ← hstored, List.mem_filter, List.mem_filter,
      Store.mem_entities, Store.mem_entities, hwritten, Write.get?_applyAll_ofEntities]
    constructor
    · rintro ⟨hnew | ⟨hnone, hold⟩, hselects⟩
      · exact .inl hnew
      · exact .inr ⟨⟨hold, hselects⟩, hnone⟩
    · rintro (hnew | ⟨⟨hold, hselects⟩, hnone⟩)
      · obtain ⟨w, -, rfl⟩ := List.mem_map.mp (mem_of_mem_lastBy hnew)
        exact ⟨.inl hnew, selects_historyQuery.mpr ⟨⟨rfl, rfl⟩, (get?_toEntity ..).1⟩⟩
      · exact ⟨.inr ⟨hnone, hold⟩, hselects⟩
  have hnodup : (store'.entities.filter (s.historyQuery space id).selects).Nodup :=
    (Entity.nodup_of_keys store'.nodup_keys_entities).filter _
  have hnodup' : ((lastBy (·.record.slot) (stored ++ written)).map entity).Nodup := by
    rw [← hlast]
    exact Entity.nodup_of_keys (nodup_map_lastBy Entity.key _)
  obtain ⟨found, hperm, hfound⟩ :=
    exists_perm_of_perm_map ((List.perm_ext_iff_of_nodup hnodup hnodup').mpr hmem)
  exact ⟨Sorted.stable (fun a b => DatedRecord.age b a) found, (Sorted.stable_perm ..).trans hperm,
    Sorted.stable_pairwise _ found, results_of_stored hfound⟩

/-- What the history of an aggregate holds once entries were written, if it held nothing before. -/
theorem results_historyQuery {store store' : Store} {written : List DatedRecord}
    (hnone : ∀ e ∈ store.entities, e.key.space = space → e.key.kind = s.settings.kind →
      e.get? aggregateProperty ≠ some (.string (RecordId.toName id)))
    (hwritten : store'.documents = Write.applyAll store.documents (Write.ofEntities
      (written.map (DatedRecord.entity ⟨space, s.settings.kind⟩ (RecordId.toName id))))) :
    ∃ found : List DatedRecord, found.Perm (lastBy (·.record.slot) written) ∧
      found.Pairwise DatedRecord.MayPrecede ∧
      store'.results (s.historyQuery space id) =
        found.map (DatedRecord.entity ⟨space, s.settings.kind⟩ (RecordId.toName id)) := by
  have hstored : store.entities.filter (s.historyQuery space id).selects =
      ([] : List DatedRecord).map
        (DatedRecord.entity ⟨space, s.settings.kind⟩ (RecordId.toName id)) := by
    refine List.filter_eq_nil_iff.mpr fun e he hselects => ?_
    obtain ⟨⟨hspace, hkind⟩, hname⟩ := selects_historyQuery.mp hselects
    exact hnone e he hspace hkind hname
  obtain ⟨found, hperm, hsorted, hresults⟩ := results_of_written hstored hwritten
  exact ⟨found, hperm, hsorted.imp DatedRecord.mayPrecede_of_isLE, hresults⟩

/-- A history read backwards after calls that wrote to it, of an aggregate that had no entries before,
has the last entry of each slot, in order, whatever the size of the batches that are fetched. -/
theorem historyBackward_eq_last {tenant : Option Tenant} {context context' : Context}
    {calls : List HistoryCall}
    (hspace : s.settings.resolver.current tenant = .ok space)
    (hopen : context.connection.closed = false)
    (hidle : context.connection.slot.isActive = false)
    (hcalm : context.connection.store.failures = [])
    (hnone : ∀ e ∈ context.connection.store.entities, e.key.space = space →
      e.key.kind = s.settings.kind → e.get? aggregateProperty ≠ some (.string (RecordId.toName id)))
    (hrun : HistoryCall.performAll s tenant id calls context = (.ok (), context'))
    (hsized : context'.connection.store.WellSized) :
    ∃ found : List DatedRecord,
      found.Perm (lastBy (·.record.slot) (calls.flatMap HistoryCall.written)) ∧
      found.Pairwise DatedRecord.MayPrecede ∧
      ∀ (batch : Nat) (caller : Caller), 1 ≤ batch → caller.tenant = tenant →
        ((s.historyBackward caller id batch).drain context'.connection).1 =
          ⟨found.map fun w => .ok w.record, true⟩ := by
  obtain ⟨hwrote, hunfailed⟩ := HistoryCall.wrote_of_performAll_ok hspace hidle hrun
  obtain ⟨found, hperm, hsorted, hresults⟩ := results_historyQuery hnone hwrote.sameData.documents
  refine ⟨found, hperm, hsorted, fun batch caller hbatch htenant => ?_⟩
  have hserves : context'.connection.Serves context'.connection.store := by
    refine ⟨.refl (hunfailed.waiting.trans hcalm), hwrote.closed.trans hopen, fun t ht => ?_⟩
    rw [hwrote.slot] at ht
    rw [ht] at hidle
    cases hidle
  rw [drain_historyBackward (htenant ▸ hspace) hbatch hsized hserves, hresults, List.map_map]
  refine congrArg (Drained.mk · true) (List.map_congr_left fun w _ => ?_)
  exact ofEntity_toEntity ..

/-- A handle whose calls carry one entity each, with a transaction for every operation. -/
def singleStore : AggregateStore String :=
  ⟨{ kind := ⟨"order"⟩, policy := ⟨⟨1, 1⟩, true⟩, pageSize := 1, resolver := .single ⟨""⟩
     mapping := .builtin }⟩

/-- A store without documents that lets single entities in and lists one at a time. -/
def singleContext : Context :=
  { connection := ⟨.empty ⟨1, 1⟩ 1, .zero, false, .idle⟩, index := .empty, keys := .empty }

/-- The entry of an event, and that of a snapshot. -/
def eventAt (id : BitVec 128) (version : Int) : HistoryRecord := .event ⟨⟨id⟩, version, ⟨0, 0⟩, []⟩

def snapshotAt (version : Int) (payload : List UInt8) : HistoryRecord :=
  .snapshot ⟨version, ⟨0, 0⟩, payload⟩

/-- An event is written again with another version, and the snapshot of a version is taken again. -/
def repeatedCalls : List HistoryCall :=
  [.history ⟨5, 0⟩ ⟨some ⟨1, ⟨0, 0⟩, [1]⟩, [⟨⟨1⟩, 2, ⟨0, 0⟩, []⟩, ⟨⟨2⟩, 2, ⟨0, 0⟩, []⟩]⟩,
    .entry ⟨4, 0⟩ (eventAt 1 3), .entry ⟨6, 0⟩ (snapshotAt 1 [2])]

theorem historyBackward_eq_last_repeatedCalls :
    ∃ context', HistoryCall.performAll singleStore none "a" repeatedCalls singleContext =
        (.ok (), context') ∧
      ∃ found : List DatedRecord,
        found.Perm [⟨eventAt 2 2, ⟨5, 0⟩⟩, ⟨eventAt 1 3, ⟨4, 0⟩⟩, ⟨snapshotAt 1 [2], ⟨6, 0⟩⟩] ∧
        found.Pairwise DatedRecord.MayPrecede ∧
        ((singleStore.historyBackward default "a" 2).drain context'.connection).1 =
          ⟨found.map fun w => .ok w.record, true⟩ := by
  have hok : (HistoryCall.performAll singleStore none "a" repeatedCalls singleContext).1.isOk = true := by
    decide +kernel
  have hsized : Store.WellSized
      (HistoryCall.performAll singleStore none "a" repeatedCalls singleContext).2.connection.store :=
    ⟨by decide +kernel, by decide +kernel⟩
  rcases hrun : HistoryCall.performAll singleStore none "a" repeatedCalls singleContext with
    ⟨e | _, context'⟩ <;> rw [hrun] at hok hsized
  · cases hok
  · have hlast : lastBy (·.record.slot) (repeatedCalls.flatMap HistoryCall.written) =
        [⟨eventAt 2 2, ⟨5, 0⟩⟩, ⟨eventAt 1 3, ⟨4, 0⟩⟩, ⟨snapshotAt 1 [2], ⟨6, 0⟩⟩] := by
      decide
    have hspace : singleStore.settings.resolver.current none = .ok ⟨""⟩ := rfl
    obtain ⟨found, hperm, hsorted, hdrain⟩ := historyBackward_eq_last hspace rfl rfl rfl
      (fun e he => by cases he) hrun hsized
    exact ⟨context', rfl, found, hlast ▸ hperm, hsorted, hdrain 2 default (by decide) rfl⟩

end AggregateStore

end DocumentStore
