import DocumentStore.Proofs.Aggregate.Values
import Mathlib.Data.Set.List
set_option autoImplicit false

/-!
# Aggregates listed

The aggregates of a namespace are listed by a query for the entries of all histories, ordered by the names
of their aggregates.  Of entries with one name the first is kept, wherever the pages end.  So each
aggregate that has an entry is listed once, and in the order of the names.
-/

namespace DocumentStore

open HistoryRecord

variable {ι : Type} [RecordId ι]

/-- The entity of an entry that is given with its aggregate. -/
def DatedRecord.entityOf (keys : KeyFactory) (owned : ι × DatedRecord) : Entity :=
  owned.2.entity keys (RecordId.toName owned.1)

namespace AggregateStore

variable {s : AggregateStore ι} {space : Namespace} {store : Store}

/-- The query for the entries of all histories, by aggregate. -/
def indexQuery (s : AggregateStore ι) (space : Namespace) : EntityQuery :=
  { EntityQuery.all space s.settings.kind with order := [⟨aggregateProperty, .ascending⟩] }

/-- Aggregates and what belongs to them, by name. -/
def byName (a b : ι × DatedRecord) : Ordering := compareOn (fun owned => RecordId.toName owned.1) a b

theorem compareAll_entityOf (keys : KeyFactory) (a b : ι × DatedRecord) :
    SortKey.compareAll [⟨aggregateProperty, .ascending⟩] (DatedRecord.entityOf keys a)
      (DatedRecord.entityOf keys b) = byName a b := by
  have hname (owned : ι × DatedRecord) : (DatedRecord.entityOf keys owned).get? aggregateProperty =
      some (.string (RecordId.toName owned.1)) := (get?_toEntity ..).1
  simp only [SortKey.compareAll, SortKey.compare, SortKey.value, hname, Option.getD_some,
    NativeValue.order, NativeValue.compare?, Ordering.then_eq]
  rfl

omit [RecordId ι] in
theorem selects_indexQuery {e : Entity} :
    (s.indexQuery space).selects e = true ↔ e.key.space = space ∧ e.key.kind = s.settings.kind := by
  simp [indexQuery, EntityQuery.selects, EntityQuery.all]

/-- What the query finds are the entries of all histories, with their aggregates, by name. -/
theorem exists_results_indexQuery
    (howned : ∀ e : Entity, store.documents.get? e.key = some e.properties →
      e.HasOwner ι ⟨space, s.settings.kind⟩) :
    ∃ owned : List (ι × DatedRecord), owned.Pairwise (fun a b => (byName a b).isLE) ∧
      store.results (s.indexQuery space) = owned.map (DatedRecord.entityOf ⟨space, s.settings.kind⟩) := by
  have hentries : ∀ e ∈ store.entities.filter (s.indexQuery space).selects,
      e ∈ Set.range (DatedRecord.entityOf (ι := ι) ⟨space, s.settings.kind⟩) := by
    intro e he
    obtain ⟨hmem, hselected⟩ := List.mem_filter.mp he
    obtain ⟨hspace, hkind⟩ := selects_indexQuery.mp hselected
    obtain ⟨id, w, rfl⟩ := howned e (Store.mem_entities.mp hmem) hspace hkind
    exact ⟨(id, w), rfl⟩
  have hrange : store.entities.filter (s.indexQuery space).selects ∈
      Set.range (List.map (DatedRecord.entityOf (ι := ι) ⟨space, s.settings.kind⟩)) := by
    rw [Set.range_list_map]
    exact hentries
  obtain ⟨stored, hstored⟩ := hrange
  have : Std.TransCmp (byName (ι := ι)) :=
    inferInstanceAs (Std.TransCmp (compareOn fun owned : ι × DatedRecord => RecordId.toName owned.1))
  refine ⟨Sorted.stable byName stored, Sorted.stable_pairwise byName stored, ?_⟩
  rw [Store.results_eq_stable, ← hstored]
  exact Sorted.stable_map (compareAll_entityOf _) stored

variable [LawfulRecordId ι]

theorem ownerOf_entityOf (keys : KeyFactory) (owned : ι × DatedRecord) :
    ownerOf (DatedRecord.entityOf keys owned) = .ok owned.1 := by
  have hname : (DatedRecord.entityOf keys owned).get? aggregateProperty =
      some (.string (RecordId.toName owned.1)) := (get?_toEntity ..).1
  rw [ownerOf, hname]
  exact LawfulRecordId.ofName_toName owned.1

/-- Each aggregate that has an entry is listed once, and in the order of the names. -/
theorem drain_index {caller : Caller} {c : Connection}
    (hspace : s.settings.resolver.current caller.tenant = .ok space)
    (howned : ∀ e : Entity, store.documents.get? e.key = some e.properties →
      e.HasOwner ι ⟨space, s.settings.kind⟩)
    (hsized : store.WellSized) (hserves : c.Serves store) :
    ∃ ids : List ι, ids.Pairwise (fun a b => RecordId.toName a < RecordId.toName b) ∧
      (∀ id, id ∈ ids ↔ ∃ w : DatedRecord,
        w.entity ⟨space, s.settings.kind⟩ (RecordId.toName id) ∈ store.entities) ∧
      ((s.index caller).drain c).1 = ⟨ids.map .ok, true⟩ := by
  let entity := DatedRecord.entityOf (ι := ι) ⟨space, s.settings.kind⟩
  let sieve := Sieve.byProperty aggregateProperty
  obtain ⟨owned, hsorted, hresults⟩ := exists_results_indexQuery howned
  have hmark (e : ι × DatedRecord) : sieve.mark? (entity e) = some (.text (RecordId.toName e.1)) := by
    have hname : (entity e).get? aggregateProperty = some (.string (RecordId.toName e.1)) :=
      (get?_toEntity ..).1
    simp only [sieve, Sieve.mark?, hname]
    rfl
  obtain ⟨listed, hlisted, hsift⟩ :=
    List.sublist_map_iff.mp (sieve.sift_sublist [] (owned.map entity))
  have hdrain : ((s.index caller).drain c).1 = ⟨(listed.map (·.1)).map .ok, true⟩ := by
    have hpending : (s.index caller).source.Pending store (sieve.sift [] (owned.map entity)) := by
      rw [index, hspace, ← hresults]
      exact .sifted _ _ ⟨_, [], Walk.pending_start store _ _ rfl, rfl, (List.append_nil _).symm⟩
    have hread : (s.index caller).read = ownerOf := by rw [index, hspace]
    rw [ItemStream.drain_of_pending hsized hpending hserves, hsift, hread, List.map_map, List.map_map]
    exact congrArg (Drained.mk · true) (List.map_congr_left fun e _ => ownerOf_entityOf _ e)
  refine ⟨listed.map (·.1), List.pairwise_map.mpr ?_, fun id => ?_, hdrain⟩
  · have hdistinct := (sieve.pairwise_sift [] (owned.map entity)).2
    rw [hsift, List.pairwise_map] at hdistinct
    refine (hdistinct.and (hsorted.sublist hlisted)).imp fun {a b} h => ?_
    obtain ⟨hne, hle⟩ := h
    rcases Ordering.isLE_iff_eq_lt_or_eq_eq.mp hle with hlt | heq
    · exact compareOfLessAndEq_eq_lt.mp hlt
    · have hname : compare (RecordId.toName a.1) (RecordId.toName b.1) = .eq := heq
      rw [hmark, hmark, Std.LawfulEqCmp.eq_of_compare hname] at hne
      exact absurd rfl hne
  · constructor
    · intro hid
      obtain ⟨e, he, rfl⟩ := List.mem_map.mp hid
      have hmem : entity e ∈ store.results (s.indexQuery space) :=
        hresults ▸ List.mem_map_of_mem (hlisted.subset he)
      rw [Store.mem_results] at hmem
      exact ⟨e.2, hmem.1⟩
    · rintro ⟨w, hw⟩
      have hmem : entity (id, w) ∈ owned.map entity := by
        rw [← hresults, Store.mem_results]
        exact ⟨hw, selects_indexQuery.mpr ⟨rfl, rfl⟩⟩
      obtain ⟨e', he', hsame⟩ : ∃ e' ∈ sieve.sift [] (owned.map entity),
          sieve.mark? e' = some (.text (RecordId.toName id)) :=
        Sieve.exists_mem_sift.mpr ⟨List.not_mem_nil, _, hmem, hmark (id, w)⟩
      rw [hsift] at he'
      obtain ⟨e, he, rfl⟩ := List.mem_map.mp he'
      rw [hmark] at hsame
      obtain rfl := LawfulRecordId.eq_of_toName_eq (Mark.text.inj (Option.some.inj hsame))
      exact List.mem_map_of_mem he

/-! ## After a run of calls -/

/-- After calls on aggregates that were all answered, the event count of an aggregate is the one last
written of it, and zero if none was.  Its marks are those last written, if one is set.  Listed are the
aggregates that have an event or a snapshot then, each once and in the order of the names.  Calls in other
namespaces make no difference. -/
theorem readings_of_performCalls [DecidableEq ι] {calls : List (Caller × AggregateCall ι)}
    {context context' : Context} {reader : Caller}
    (hopen : context.connection.closed = false)
    (hidle : context.connection.slot.isActive = false)
    (hnone : ∀ e ∈ context.connection.store.entities, e.key.space = space →
      e.key.kind ≠ s.settings.kind ∧ ¬s.Beside e.key.kind)
    (hcounts : ∀ call ∈ calls, ∀ count ∈ call.2.count?, IsCount count)
    (hrun : s.performCalls calls context = (.ok (), context'))
    (hreader : s.settings.resolver.current reader.tenant = .ok space)
    (hroom : 1 ≤ context.connection.store.limits.read)
    (hsized : context'.connection.store.WellSized) :
    (∀ a : ι,
      (s.readCount reader a context'.undisturbed).1 =
          .ok (((s.callsOn space a calls).filterMap (·.count?)).getLast?.getD 0) ∧
        (s.readFlags reader a context'.undisturbed).1 =
          .ok (((s.callsOn space a calls).filterMap (·.flags?)).getLast?.filter (·.isSet))) ∧
      ∃ ids : List ι, ids.Pairwise (fun a b => RecordId.toName a < RecordId.toName b) ∧
        (∀ id, id ∈ ids ↔ ∃ w : DatedRecord,
          w.entity ⟨space, s.settings.kind⟩ (RecordId.toName id) ∈ context'.connection.store.entities) ∧
        ((s.index reader).drain context'.undisturbed.connection).1 = ⟨ids.map .ok, true⟩ := by
  obtain ⟨ws, hwrote, hleaves⟩ := leaves_of_performCalls_ok hidle hrun
  have hdata : Store.SameData (context.connection.store.write ws) context'.undisturbed.connection.store :=
    ⟨hwrote.sameData.documents, hwrote.sameData.limits, hwrote.sameData.pageLimit, hwrote.sameData.active⟩
  have hclosed : context'.undisturbed.connection.closed = false := hwrote.closed.trans hopen
  have hidle' : context'.undisturbed.connection.slot.isActive = false :=
    (congrArg Slot.isActive hwrote.slot).trans hidle
  have hroom' : 1 ≤ context'.undisturbed.connection.store.limits.read := hdata.limits ▸ hroom
  have hempty {kind : Kind} (hkind : s.Beside kind) (a : ι) :
      context.connection.store.documents.get? ((KeyFactory.mk space kind).key a) = none := by
    refine Option.eq_none_iff_forall_ne_some.mpr fun properties hget => ?_
    exact (hnone ⟨(KeyFactory.mk space kind).key a, properties⟩ (Store.mem_entities.mpr hget) rfl).2 hkind
  have hstored {kind : Kind} (hkind : s.Beside kind) (a : ι) :=
    hleaves.find? hdata.documents hkind a (hempty hkind a)
  refine ⟨fun a => ⟨?_, ?_⟩, ?_⟩
  · have hcount := hstored (.inl rfl) a
    rw [lastIn_countKind, Option.map_map] at hcount
    refine readCount_ok hreader hclosed hidle' rfl hroom' (fun count hlast => ?_) hcount
    obtain ⟨call, hcall, hwritten⟩ := List.mem_filterMap.mp (List.mem_of_getLast? hlast)
    obtain ⟨made, hmade, rfl⟩ := List.mem_map.mp hcall
    exact hcounts made (List.mem_of_mem_filter hmade) count hwritten
  · have hflags := hstored (.inr rfl) a
    rw [lastIn_flagsKind, Option.map_map] at hflags
    exact readFlags_ok hreader hclosed hidle' rfl hroom' hflags
  · have howned : ∀ e : Entity, context'.connection.store.documents.get? e.key = some e.properties →
        e.HasOwner ι ⟨space, s.settings.kind⟩ := by
      rw [hwrote.sameData.documents]
      refine (Write.keeps_puts _).applyAll (fun e he hspace hkind => ?_) hleaves.owned
      exact absurd hkind (hnone e (Store.mem_entities.mpr he) hspace).1
    exact drain_index hreader howned hsized (.of_inactive ⟨rfl, rfl, rfl, rfl⟩ hclosed hidle')

/-- Calls on five aggregates: one has values only, and one loses its event to another. -/
def valueCalls : List (Caller × AggregateCall String) :=
  [(default, .writeEntry "c" (eventAt 1 1)), (default, .writeCount "a" 4),
    (default, .writeHistory "b" ⟨some ⟨2, ⟨0, 0⟩, [1]⟩, [⟨⟨2⟩, 3, ⟨0, 0⟩, []⟩]⟩),
    (default, .writeFlags "a" ⟨true, true⟩), (default, .writeEntry "d" (eventAt 9 1)),
    (default, .writeEntry "c" (snapshotAt 2 [])), (default, .truncate "c" 0),
    (default, .writeFlags "b" ⟨false, true⟩), (default, .writeCount "a" (-1)),
    (default, .writeEntry "e" (eventAt 9 2)), (default, .writeFlags "a" ⟨false, false⟩)]

theorem readings_of_performCalls_valueCalls :
    ∃ context', singleStore.performCalls valueCalls singleContext = (.ok (), context') ∧
      (singleStore.readCount default "a" context'.undisturbed).1 = .ok (-1) ∧
      (singleStore.readCount default "b" context'.undisturbed).1 = .ok 0 ∧
      (singleStore.readFlags default "a" context'.undisturbed).1 = .ok none ∧
      (singleStore.readFlags default "b" context'.undisturbed).1 = .ok (some ⟨false, true⟩) ∧
      ((singleStore.index default).drain context'.undisturbed.connection).1 =
        ⟨["b", "c", "e"].map .ok, true⟩ ∧
      ∀ id : String, id ∈ ["b", "c", "e"] ↔ ∃ w : DatedRecord,
        w.entity ⟨⟨""⟩, ⟨"order"⟩⟩ id ∈ context'.connection.store.entities := by
  have hok : (singleStore.performCalls valueCalls singleContext).1.isOk = true := by decide +kernel
  have hsized : (singleStore.performCalls valueCalls singleContext).2.connection.store.WellSized :=
    ⟨by decide +kernel, by decide +kernel⟩
  have hlisted : ((singleStore.index default).drain
      (singleStore.performCalls valueCalls singleContext).2.undisturbed.connection).1.items =
        ["b", "c", "e"].map .ok := by
    decide +kernel
  rcases hrun : singleStore.performCalls valueCalls singleContext with ⟨e | _, context'⟩ <;>
    rw [hrun] at hok hsized hlisted
  · cases hok
  · have hspace : singleStore.settings.resolver.current none = .ok ⟨""⟩ := rfl
    have hempty (e : Entity) (he : e ∈ singleContext.connection.store.entities) (_ : e.key.space = ⟨""⟩) :
        e.key.kind ≠ singleStore.settings.kind ∧ ¬singleStore.Beside e.key.kind := by
      cases he
    obtain ⟨hvalues, ids, -, howners, hdrain⟩ :=
      readings_of_performCalls rfl rfl hempty (by decide) hrun hspace (by decide) hsized
    obtain rfl : ids = ["b", "c", "e"] := by
      rw [hdrain] at hlisted
      exact List.map_injective_iff.mpr (fun _ _ => Except.ok.inj) hlisted
    exact ⟨context', rfl, (hvalues "a").1, (hvalues "b").1, (hvalues "a").2, (hvalues "b").2, hdrain,
      howners⟩

end AggregateStore

end DocumentStore
