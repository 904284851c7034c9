import DocumentStore.Proofs.Access.Settled
import DocumentStore.Proofs.Aggregate.Latest
set_option autoImplicit false

/-!
# Histories written and read back

A history that goes on from what is stored of an aggregate is read back as it was written, whatever else
is stored: earlier snapshots and events, also of the version of its snapshot, a snapshot in its slot, or
events that it has again.
-/

namespace DocumentStore

open HistoryRecord DatedRecord

namespace AggregateHistory

/-- Whether a history can be written at `clock` after the entries `stored`.  Its events are different and
ascend by version, from its snapshot on.  The entries stored before are not newer than its snapshot; if
it has none, there are no such entries. -/
structure Follows (h : AggregateHistory) (stored : List DatedRecord) (clock : Timestamp) : Prop where
  ids : h.events.Pairwise fun a b => a.id ≠ b.id
  versions : h.events.Pairwise fun a b => a.version < b.version
  start : match h.snapshot with
    | some latest => (∀ e ∈ h.events, latest.version < e.version) ∧
        ∀ w ∈ stored, w.record.version ≤ latest.version ∧ (compare w.created clock).isLE
    | none => h.events ≠ [] ∧ stored = []

/-- The entries of a history, written at one instant. -/
def dated (h : AggregateHistory) (clock : Timestamp) : List DatedRecord := h.records.map (⟨·, clock⟩)

/-- The snapshot of a history among its entries. -/
def start? (h : AggregateHistory) (clock : Timestamp) : Option DatedRecord :=
  h.snapshot.map fun latest => ⟨.snapshot latest, clock⟩

/-- The events of a history among its entries. -/
def happened (h : AggregateHistory) (clock : Timestamp) : List DatedRecord :=
  h.events.map fun e => ⟨.event e, clock⟩

theorem dated_eq (h : AggregateHistory) (clock : Timestamp) :
    h.dated clock = (h.start? clock).toList ++ h.happened clock := by
  obtain ⟨snapshot, events⟩ := h
  cases snapshot <;> simp [dated, start?, happened, records]

theorem start?_of_some {h : AggregateHistory} (clock : Timestamp) {latest : Snapshot}
    (hsnapshot : h.snapshot = some latest) : h.start? clock = some ⟨.snapshot latest, clock⟩ := by
  rw [start?, hsnapshot]
  rfl

/-- The history that entries on the way back make up is told by the first snapshot and the events before
it. -/
theorem newest_eq {found : List DatedRecord} {h : AggregateHistory} {clock : Timestamp}
    (hlatest : latest? found = h.start? clock) (hrecent : (recent found).reverse = h.happened clock) :
    newest (found.map (·.record)) [] = h := by
  obtain ⟨hsnapshot, hevents⟩ := newest_dated found []
  rw [hlatest] at hsnapshot
  rw [hrecent, List.map_nil, List.append_nil] at hevents
  obtain ⟨snapshot, events⟩ := h
  have hsame : (newest (found.map (·.record)) []).snapshot = snapshot := by
    refine Option.map_injective (fun _ _ => HistoryRecord.snapshot.inj) (hsnapshot.trans ?_)
    cases snapshot <;> rfl
  have hsame' : (newest (found.map (·.record)) []).events = events := by
    refine (List.map_injective_iff.mpr fun _ _ => HistoryRecord.event.inj) (hevents.trans ?_)
    simp [happened]
  rw [← hsame, ← hsame']

namespace Follows

variable {h : AggregateHistory} {stored found : List DatedRecord} {clock : Timestamp}

/-- A history that follows something has an entry. -/
theorem records_ne_nil (hfollows : h.Follows stored clock) : h.records ≠ [] := by
  have hstart := hfollows.start
  obtain ⟨snapshot, events⟩ := h
  cases snapshot with
  | some latest => exact List.cons_ne_nil _ _
  | none =>
    intro hnil
    exact hstart.1 (List.map_eq_nil_iff.mp hnil)

/-- The entries of the history have slots of their own. -/
theorem nodup_slots (hfollows : h.Follows stored clock) :
    ((h.dated clock).map (·.record.slot)).Nodup := by
  have hevents : ((h.happened clock).map (·.record.slot)).Nodup := by
    rw [happened, List.map_map]
    exact List.pairwise_map.mpr (hfollows.ids.imp fun hne heq => hne (Slot.event.inj heq))
  rw [dated_eq, start?]
  cases h.snapshot with
  | none => exact hevents
  | some latest =>
    refine List.nodup_cons.mpr ⟨fun hmem => ?_, hevents⟩
    obtain ⟨w, hw, hslot⟩ := List.mem_map.mp hmem
    obtain ⟨e, -, rfl⟩ := List.mem_map.mp hw
    cases hslot

variable (hperm : found.Perm (lastBy (·.record.slot) (stored ++ h.dated clock)))

include hperm

/-- What is found after a history was written: its entries, and those stored before that it has not
replaced. -/
theorem mem_found {w : DatedRecord} (hw : w ∈ found) :
    w ∈ h.dated clock ∨ w ∈ stored ∧ ∀ w' ∈ h.dated clock, w'.record.slot ≠ w.record.slot := by
  refine (mem_lastBy_append.mp (hperm.mem_iff.mp hw)).imp (fun hnew => ?_) fun ⟨hold, hno⟩ => ?_
  · exact mem_of_mem_lastBy hnew
  · exact ⟨mem_of_mem_lastBy hold, hno⟩

variable (hfollows : h.Follows stored clock)

include hfollows

theorem mem_found_of_dated {w : DatedRecord} (hw : w ∈ h.dated clock) : w ∈ found := by
  refine hperm.mem_iff.mpr (mem_lastBy_append.mpr (.inl ?_))
  rwa [lastBy_of_nodup hfollows.nodup_slots]

variable (hsorted : found.Pairwise fun a b => (age b a).isLE)

include hsorted

/-- The latest snapshot is that of the history: one stored before that is not older is in its slot, and
has been replaced. -/
theorem latest?_eq : latest? found = h.start? clock := by
  have hlatest := isLatest_latest? hsorted
  have hstart := hfollows.start
  have hevent {w : DatedRecord} (hw : w ∈ h.happened clock) : w.record.isSnapshot = false := by
    obtain ⟨e, -, rfl⟩ := List.mem_map.mp hw
    rfl
  cases hsnapshot : h.snapshot with
  | none =>
    rw [hsnapshot] at hstart
    have hall : ∀ w ∈ found, w.record.isSnapshot = false := by
      intro w hw
      rcases mem_found hperm hw with hnew | ⟨hold, -⟩
      · rw [dated_eq, start?, hsnapshot] at hnew
        exact hevent hnew
      · rw [hstart.2] at hold
        cases hold
    rw [start?, hsnapshot]
    exact List.find?_eq_none.mpr fun w hw => by simp [hall w hw]
  | some latest =>
    rw [hsnapshot] at hstart
    obtain ⟨hafter, hbefore⟩ := hstart
    have hstart? := start?_of_some clock hsnapshot
    have hdated : ⟨.snapshot latest, clock⟩ ∈ h.dated clock := by
      rw [dated_eq, hstart?]
      exact List.mem_cons_self ..
    have hmem := mem_found_of_dated hperm hfollows hdated
    cases hfound : latest? found with
    | none =>
      rw [hfound] at hlatest
      have hno := hlatest _ hmem
      cases hno
    | some l =>
      rw [hfound] at hlatest
      obtain ⟨hl, hlsnapshot, hgreatest⟩ := hlatest
      have hle := hgreatest _ hmem rfl
      rw [hstart?]
      rcases mem_found hperm hl with hnew | ⟨hold, hreplaced⟩
      · rw [dated_eq, hstart?] at hnew
        rcases List.mem_cons.mp hnew with rfl | hnew
        · rfl
        · rw [hevent hnew] at hlsnapshot
          cases hlsnapshot
      · -- a stored snapshot that is not older has the version of the new one, and with it its slot
        obtain ⟨r, created⟩ := l
        cases r with
        | event e => cases hlsnapshot
        | snapshot old =>
          have hversion : latest.version ≤ old.version := by
            simp only [moment, compareLex, compareOn, Ordering.isLE_then_iff_or] at hle
            rcases hle with hlt | ⟨heq, -⟩
            · exact Int.le_of_lt (Int.compare_eq_lt.mp hlt)
            · exact Int.le_of_eq (Std.LawfulEqOrd.eq_of_compare heq)
          have hold' : old.version ≤ latest.version := (hbefore _ hold).1
          refine absurd ?_ (hreplaced _ hdated)
          exact congrArg Slot.snapshot (Int.le_antisymm hversion hold')

/-- The entries later than the snapshot are the events of the history. -/
theorem mem_recent {w : DatedRecord} : w ∈ recent found ↔ w ∈ h.happened clock := by
  rw [← filter_isAfter hsorted, latest?_eq hperm hfollows hsorted, List.mem_filter]
  have hstart := hfollows.start
  have hdated {w : DatedRecord} (hw : w ∈ h.happened clock) : w ∈ found := by
    refine mem_found_of_dated hperm hfollows ?_
    rw [dated_eq]
    exact List.mem_append_right _ hw
  cases hsnapshot : h.snapshot with
  | none =>
    rw [hsnapshot] at hstart
    constructor
    · rintro ⟨hw, -⟩
      rcases mem_found hperm hw with hnew | ⟨hold, -⟩
      · rw [dated_eq, start?, hsnapshot] at hnew
        exact hnew
      · rw [hstart.2] at hold
        cases hold
    · intro hw
      refine ⟨hdated hw, ?_⟩
      rw [start?, hsnapshot]
      rfl
  | some latest =>
    rw [hsnapshot] at hstart
    obtain ⟨hafter, hbefore⟩ := hstart
    have hstart? := start?_of_some clock hsnapshot
    rw [hstart?, isAfter, beq_iff_eq]
    constructor
    · rintro ⟨hw, hlater⟩
      rcases mem_found hperm hw with hnew | ⟨hold, -⟩
      · rw [dated_eq, hstart?] at hnew
        rcases List.mem_cons.mp hnew with rfl | hnew
        · have hself : moment ⟨.snapshot latest, clock⟩ ⟨.snapshot latest, clock⟩ = .eq :=
            Std.ReflCmp.compare_self
          rw [hself] at hlater
          cases hlater
        · exact hnew
      · obtain ⟨hversion, hcreated⟩ := hbefore w hold
        simp only [moment, compareLex, compareOn, Ordering.then_eq_lt] at hlater
        rcases hlater with hlt | ⟨-, hlt⟩
        · exact absurd (Int.compare_eq_lt.mp hlt) (Int.not_lt.mpr hversion)
        · exact absurd hlt (Std.OrientedCmp.not_lt_of_isLE hcreated)
    · intro hw
      refine ⟨hdated hw, ?_⟩
      obtain ⟨e, he, rfl⟩ := List.mem_map.mp hw
      simp only [moment, compareLex, compareOn, Ordering.then_eq_lt]
      exact .inl (Int.compare_eq_lt.mpr (hafter e he))

/-- The events before the first snapshot on the way back are those of the history, latest first. -/
theorem recent_eq : (recent found).reverse = h.happened clock := by
  have hfound : found.Nodup := hperm.nodup_iff.mpr (.of_map _ (nodup_map_lastBy _ _))
  have hascending : (h.happened clock).Pairwise fun a b => a.record.version < b.record.version :=
    List.pairwise_map.mpr hfollows.versions
  have hversions : ((h.happened clock).map fun w => w.record.version).Nodup :=
    List.pairwise_map.mpr (hascending.imp Int.ne_of_lt)
  have hnodup : (recent found).reverse.Nodup :=
    List.nodup_reverse.mpr (hfound.sublist (List.takeWhile_sublist _))
  have hsame : (recent found).reverse.Perm (h.happened clock) := by
    refine (List.perm_ext_iff_of_nodup hnodup (.of_map _ hversions)).mpr fun w => ?_
    rw [List.mem_reverse]
    exact mem_recent hperm hfollows hsorted
  have hsorted' : (recent found).reverse.Pairwise fun a b => a.record.version ≤ b.record.version :=
    List.pairwise_reverse.mpr
      ((hsorted.sublist (List.takeWhile_sublist _)).imp fun hle => version_le_of_isLE hle)
  -- different events of the history have different versions, which makes the order the only one
  refine hsame.eq_of_pairwise (fun a b ha hb hab hba => ?_) hsorted' (hascending.imp Int.le_of_lt)
  exact List.inj_on_of_nodup_map hversions (hsame.mem_iff.mp ha) hb (Int.le_antisymm hab hba)

end Follows

end AggregateHistory

namespace AggregateStore

variable {ι : Type} [RecordId ι] {s : AggregateStore ι} {space : Namespace} {id : ι} {caller : Caller}
  {h : AggregateHistory} {stored : List DatedRecord} {context : Context}

variable (id) in
/-- A history that is written is stored, at once or when the explicit transaction is committed. -/
theorem writeHistory_settled (hspace : s.settings.resolver.current caller.tenant = .ok space)
    (hserves : context.connection.Serves context.connection.store)
    (hroom : min (max s.settings.policy.limits.write 1) h.records.length ≤
      context.connection.store.limits.write) (hne : h.records ≠ []) :
    ∃ context', s.writeHistory caller id h context = (.ok (), context') ∧
      context'.connection.Serves context'.connection.store ∧
      Store.SameData (context.connection.settled.store.write (Write.ofEntities
          ((h.dated caller.clock).map (entity ⟨space, s.settings.kind⟩ (RecordId.toName id)))))
        context'.connection.settled.store := by
  have hkeys : s.settings.keysOf caller s.settings.kind = .ok ⟨space, s.settings.kind⟩ :=
    HandleSettings.keysOf_of_current hspace
  obtain ⟨g, hg, hsame⟩ :=
    (Context.Quiet.currentKeys s.settings caller s.settings.kind).exists_eq context
  rw [hkeys] at hg
  have hfits : min (max s.settings.policy.limits.write 1) (h.records.map
      (toEntity ⟨space, s.settings.kind⟩ (RecordId.toName id) caller.clock)).length ≤
      context.connection.store.limits.write := by
    rwa [List.length_map]
  obtain ⟨c', hput, hserves', hdata⟩ := hserves.put_settled hfits (s.label id)
  refine ⟨{ g with connection := c', index := g.index.keep space }, ?_, hserves', ?_⟩
  · rw [writeHistory, if_neg (by simpa using hne), writeRecords, Action.bind_ok hg, putAll,
      Action.bind_apply, Context.onConnection, Action.onPart, hsame, hput]
    rfl
  · rw [AggregateHistory.dated, List.map_map]
    exact hdata

/-- What is read after a history was written, and the explicit transaction committed if there is one, is
that history: if it goes on from what is stored then, and was written in calls that the store lets in. -/
theorem readHistory_writeHistory {reader : Caller} {batch : Nat}
    (hspace : s.settings.resolver.current caller.tenant = .ok space)
    (hreader : s.settings.resolver.current reader.tenant = .ok space) (hbatch : 1 ≤ batch)
    (hserves : context.connection.Serves context.connection.store)
    (hroom : min (max s.settings.policy.limits.write 1) h.records.length ≤
      context.connection.store.limits.write)
    (hpage : 0 < context.connection.store.pageLimit)
    (hsize : context.connection.settled.store.size + h.records.length < Text.wordBound)
    (hstored : context.connection.settled.store.entities.filter (s.historyQuery space id).selects =
      stored.map (entity ⟨space, s.settings.kind⟩ (RecordId.toName id)))
    (hfollows : h.Follows stored caller.clock) :
    ((do
        s.writeHistory caller id h
        Context.settle
        s.readHistory reader id batch) context).1 = .ok (some h) := by
  obtain ⟨context', hwrite, hserves', hdata⟩ :=
    writeHistory_settled id hspace hserves hroom hfollows.records_ne_nil
  obtain ⟨hsettle, hsettled, -⟩ := hserves'.settle
  have hcommit : Context.settle context' =
      (.ok (), { context' with connection := context'.connection.settled }) := by
    rw [Context.settle, Context.onConnection, Action.onPart, hsettle]
  obtain ⟨found, hperm, hsorted, hresults⟩ := results_of_written hstored hdata.documents
  have hsized : context'.connection.settled.store.WellSized := by
    refine ⟨?_, ?_⟩
    · rw [hdata.pageLimit]
      exact hserves.settle.2.2 ▸ hpage
    · have hle := Write.size_applyAll_ofEntities_le context.connection.settled.store.documents
        ((h.dated caller.clock).map (entity ⟨space, s.settings.kind⟩ (RecordId.toName id)))
      rw [List.length_map, AggregateHistory.dated, List.length_map] at hle
      rw [Store.size, hdata.documents]
      exact Nat.lt_of_le_of_lt hle hsize
  have hne : found.isEmpty = false := by
    obtain ⟨r, hr⟩ := List.exists_mem_of_ne_nil _ hfollows.records_ne_nil
    exact List.isEmpty_eq_false_iff.mpr (List.ne_nil_of_mem
      (AggregateHistory.Follows.mem_found_of_dated hperm hfollows (List.mem_map_of_mem hr)))
  rw [Action.bind_ok hwrite, Action.bind_ok hcommit,
    (readHistory_of_results hreader hbatch hsettled hsized hresults).1, hne]
  rw [AggregateHistory.newest_eq (AggregateHistory.Follows.latest?_eq hperm hfollows hsorted)
    (AggregateHistory.Follows.recent_eq hperm hfollows hsorted)]
  rfl

/-- An aggregate has an event, and in an open transaction a snapshot of the same version. -/
def openedContext : Context :=
  let written := (singleStore.writeRecord ⟨none, ⟨4, 0⟩⟩ "a" (eventAt 1 3) singleContext).2
  let opened := (Context.onConnection Connection.beginScope written).2
  (singleStore.writeRecord ⟨none, ⟨5, 0⟩⟩ "a" (snapshotAt 3 [1]) opened).2

/-- The snapshot is taken again, and the event has another version. -/
def renewedHistory : AggregateHistory :=
  ⟨some ⟨3, ⟨1, 0⟩, [2]⟩, [⟨⟨1⟩, 4, ⟨1, 0⟩, [3]⟩, ⟨⟨2⟩, 6, ⟨0, 0⟩, []⟩]⟩

theorem readHistory_writeHistory_renewed :
    renewedHistory.Follows [⟨eventAt 1 3, ⟨4, 0⟩⟩, ⟨snapshotAt 3 [1], ⟨5, 0⟩⟩] ⟨5, 0⟩ ∧
      openedContext.connection.slot.isActive = true ∧
      ((do
          singleStore.writeHistory ⟨none, ⟨5, 0⟩⟩ "a" renewedHistory
          Context.settle
          singleStore.readHistory default "a" 2) openedContext).1 = .ok (some renewedHistory) := by
  have hfollows : renewedHistory.Follows
      [⟨eventAt 1 3, ⟨4, 0⟩⟩, ⟨snapshotAt 3 [1], ⟨5, 0⟩⟩] ⟨5, 0⟩ :=
    ⟨by decide, by decide, ⟨by decide, by decide⟩⟩
  have hserves : openedContext.connection.Serves openedContext.connection.store := by
    refine ⟨.refl (by decide +kernel), by decide +kernel, fun t ht => ?_⟩
    let staged := (DatedRecord.mk (snapshotAt 3 [1]) ⟨5, 0⟩).entity ⟨⟨""⟩, ⟨"order"⟩⟩ "a"
    have hslot : openedContext.connection.slot =
        .active ⟨.ofList [(staged.key, some staged.properties)], false⟩ := by
      decide +kernel
    rw [hslot] at ht
    obtain rfl := Slot.active.inj ht
    rfl
  have hspace : singleStore.settings.resolver.current none = .ok ⟨""⟩ := rfl
  refine ⟨hfollows, by decide +kernel, ?_⟩
  exact readHistory_writeHistory hspace hspace (by decide) hserves (by decide +kernel)
    (by decide +kernel) (by decide +kernel) (by decide +kernel) hfollows

end AggregateStore

end DocumentStore
