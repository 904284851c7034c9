import DocumentStore.Proofs.Access.Fetches
import DocumentStore.Proofs.Aggregate.Written
import Mathlib.Data.Set.List
set_option autoImplicit false

/-!
# The latest snapshot and the events after it

Reading a history stops at the first snapshot on the way back, wherever the pages end.  That is the
snapshot which is greatest by version and instant of writing, and the entries before it are the events
that are greater still: an event of the snapshot's own version and instant stands behind it.
-/

namespace DocumentStore

/-! ## Entries in time -/

namespace DatedRecord

/-- Entries by version, then by the instant of writing. -/
def moment : DatedRecord → DatedRecord → Ordering :=
  compareLex (compareOn fun w => w.record.version) (compareOn DatedRecord.created)

instance : Std.TransCmp moment :=
  inferInstanceAs (Std.TransCmp (compareLex (compareOn fun w : DatedRecord => w.record.version)
    (compareOn DatedRecord.created)))

theorem age_eq (a b : DatedRecord) :
    age a b = (moment a b).then (compare a.record.isSnapshot b.record.isSnapshot) := by
  simp only [age, moment, compareLex, compareOn, Ordering.then_assoc]

theorem isLE_moment {a b : DatedRecord} (h : (age a b).isLE) : (moment a b).isLE := by
  rw [age_eq, Ordering.isLE_then_iff_or] at h
  rcases h with hlt | ⟨heq, -⟩
  · rw [hlt]
    rfl
  · rw [heq]
    rfl

/-- An event that is no older than a snapshot is later. -/
theorem moment_lt_of_event {l w : DatedRecord} (hl : l.record.isSnapshot = true)
    (hw : w.record.isSnapshot = false) (h : (age l w).isLE) : moment l w = .lt := by
  rw [age_eq, Ordering.isLE_then_iff_or, hl, hw] at h
  rcases h with hlt | ⟨-, hle⟩
  · exact hlt
  · cases hle

theorem version_le_of_isLE {a b : DatedRecord} (h : (age a b).isLE) :
    a.record.version ≤ b.record.version := by
  rcases mayPrecede_of_isLE h with hlt | ⟨heq, -⟩
  · exact Int.le_of_lt hlt
  · exact Int.le_of_eq heq

/-- The snapshot of entries that is greatest by version and instant of writing; none if there is no
snapshot. -/
def IsLatest (stored : List DatedRecord) : Option DatedRecord → Prop
  | none => ∀ w ∈ stored, w.record.isSnapshot = false
  | some l => l ∈ stored ∧ l.record.isSnapshot = true ∧
      ∀ w ∈ stored, w.record.isSnapshot = true → (moment w l).isLE

/-- Whether an entry is later than the latest snapshot, if there is one. -/
def isAfter (latest : Option DatedRecord) (w : DatedRecord) : Bool :=
  match latest with
  | none => true
  | some l => moment l w == .lt

theorem IsLatest.perm {stored found : List DatedRecord} {latest : Option DatedRecord}
    (h : IsLatest found latest) (hperm : found.Perm stored) : IsLatest stored latest := by
  cases latest with
  | none => exact fun w hw => h w (hperm.mem_iff.mpr hw)
  | some l =>
    obtain ⟨hmem, hsnapshot, hgreatest⟩ := h
    exact ⟨hperm.mem_iff.mp hmem, hsnapshot, fun w hw => hgreatest w (hperm.mem_iff.mpr hw)⟩

section Backward

variable {found : List DatedRecord}

/-- The first snapshot on the way back. -/
def latest? (found : List DatedRecord) : Option DatedRecord := found.find? (·.record.isSnapshot)

/-- The events before the first snapshot on the way back. -/
def recent (found : List DatedRecord) : List DatedRecord :=
  found.takeWhile (!·.record.isSnapshot)

theorem latest?_of_event {w : DatedRecord} (h : w.record.isSnapshot = false)
    (rest : List DatedRecord) : latest? (w :: rest) = latest? rest := by
  simp [latest?, h]

theorem recent_of_event {w : DatedRecord} (h : w.record.isSnapshot = false)
    (rest : List DatedRecord) : recent (w :: rest) = w :: recent rest := by
  simp [recent, h]

theorem latest?_of_snapshot {w : DatedRecord} (h : w.record.isSnapshot = true)
    (rest : List DatedRecord) : latest? (w :: rest) = some w := by
  simp [latest?, h]

theorem recent_of_snapshot {w : DatedRecord} (h : w.record.isSnapshot = true)
    (rest : List DatedRecord) : recent (w :: rest) = [] := by
  simp [recent, h]

theorem eq_recent_append (found : List DatedRecord) :
    (latest? found = none ∧ recent found = found ∧ ∀ w ∈ found, w.record.isSnapshot = false) ∨
      ∃ l older, latest? found = some l ∧ l.record.isSnapshot = true ∧
        found = recent found ++ l :: older ∧ ∀ w ∈ recent found, w.record.isSnapshot = false := by
  induction found with
  | nil => exact .inl ⟨rfl, rfl, fun w hw => by cases hw⟩
  | cons w rest ih =>
    cases hw : w.record.isSnapshot with
    | true =>
      refine .inr ⟨w, rest, latest?_of_snapshot hw rest, hw, ?_, fun w' hw' => ?_⟩
      · rw [recent_of_snapshot hw, List.nil_append]
      · rw [recent_of_snapshot hw] at hw'
        cases hw'
    | false =>
      rw [latest?_of_event hw, recent_of_event hw]
      rcases ih with ⟨hnone, hall, hevents⟩ | ⟨l, older, hsome, hl, hsplit, hevents⟩
      · exact .inl ⟨hnone, by rw [hall], List.forall_mem_cons.mpr ⟨hw, hevents⟩⟩
      · exact .inr ⟨l, older, hsome, hl, congrArg (w :: ·) hsplit,
          List.forall_mem_cons.mpr ⟨hw, hevents⟩⟩

variable (hsorted : found.Pairwise fun a b => (age b a).isLE)

include hsorted

theorem isLatest_latest? : IsLatest found (latest? found) := by
  rcases eq_recent_append found with ⟨hnone, -, hevents⟩ | ⟨l, older, hsome, hl, hsplit, hevents⟩
  · rw [hnone]
    exact hevents
  · rw [hsome]
    refine ⟨by rw [hsplit]; simp, hl, fun w hw hsnapshot => ?_⟩
    rw [hsplit] at hw hsorted
    rcases List.mem_append.mp hw with hw | hw
    · rw [hevents w hw] at hsnapshot
      cases hsnapshot
    · rcases List.mem_cons.mp hw with rfl | hw
      · exact Std.ReflCmp.isLE_rfl
      · exact isLE_moment ((List.pairwise_cons.mp (List.pairwise_append.mp hsorted).2.1).1 w hw)

/-- The entries later than the latest snapshot are those before it on the way back. -/
theorem filter_isAfter : found.filter (isAfter (latest? found)) = recent found := by
  rcases eq_recent_append found with ⟨hnone, hall, -⟩ | ⟨l, older, hsome, hl, hsplit, hevents⟩
  · rw [hnone, hall]
    exact List.filter_eq_self.mpr fun _ _ => rfl
  · rw [hsome]
    rw [hsplit] at hsorted
    obtain ⟨-, hback, hacross⟩ := List.pairwise_append.mp hsorted
    have hrecent : (recent found).filter (isAfter (some l)) = recent found := by
      refine List.filter_eq_self.mpr fun w hw => ?_
      have hlater := moment_lt_of_event hl (hevents w hw) (hacross w hw l (List.mem_cons_self ..))
      simp [isAfter, hlater]
    have hothers : (l :: older).filter (isAfter (some l)) = [] := by
      refine List.filter_eq_nil_iff.mpr fun w hw hafter => ?_
      have hlater : moment l w = .lt := by simpa [isAfter] using hafter
      rcases List.mem_cons.mp hw with rfl | hw
      · have hself : moment w w = .eq := Std.ReflCmp.compare_self
        rw [hself] at hlater
        cases hlater
      · have hle := isLE_moment ((List.pairwise_cons.mp hback).1 w hw)
        have hswap : moment w l = (moment l w).swap := Std.OrientedCmp.eq_swap
        rw [hswap, hlater] at hle
        cases hle
    conv_lhs => rw [hsplit]
    rw [List.filter_append, hrecent, hothers, List.append_nil]

theorem pairwise_recent : (recent found).reverse.Pairwise fun a b => (moment a b).isLE := by
  refine List.pairwise_reverse.mpr ?_
  exact (hsorted.sublist (List.takeWhile_sublist _)).imp isLE_moment

/-- The first entry on the way back has the greatest version. -/
theorem max?_version {stored : List DatedRecord} (hperm : found.Perm stored) :
    (stored.map fun w => w.record.version).max? = found.head?.map fun w => w.record.version := by
  cases found with
  | nil =>
    obtain rfl := List.nil_perm.mp hperm
    rfl
  | cons w rest =>
    refine List.max?_eq_some_iff.mpr ⟨?_, fun v hv => ?_⟩
    · exact List.mem_map_of_mem (hperm.mem_iff.mp (List.mem_cons_self ..))
    · obtain ⟨w', hw', rfl⟩ := List.mem_map.mp hv
      rcases List.mem_cons.mp (hperm.mem_iff.mpr hw') with rfl | hw'
      · exact Int.le_refl _
      · exact version_le_of_isLE ((List.pairwise_cons.mp hsorted).1 w' hw')

end Backward

end DatedRecord

/-! ## Histories read from the latest entry on -/

namespace AggregateHistory

/-- The history of entries on the way back, up to the first snapshot; `events` are those already met,
oldest first. -/
def newest : List HistoryRecord → List Event → AggregateHistory
  | [], events => ⟨none, events⟩
  | .snapshot latest :: _, events => ⟨some latest, events⟩
  | .event e :: rest, events => newest rest (e :: events)

theorem newest_dated (found : List DatedRecord) (events : List Event) :
    (newest (found.map (·.record)) events).snapshot.map .snapshot =
        (DatedRecord.latest? found).map (·.record) ∧
      (newest (found.map (·.record)) events).events.map .event =
        ((DatedRecord.recent found).reverse.map (·.record)) ++ events.map .event := by
  induction found generalizing events with
  | nil => exact ⟨rfl, rfl⟩
  | cons w rest ih =>
    obtain ⟨r, created⟩ := w
    cases r with
    | snapshot latest => exact ⟨rfl, rfl⟩
    | event e =>
      obtain ⟨hsnapshot, hevents⟩ := ih (e :: events)
      refine ⟨hsnapshot, hevents.trans ?_⟩
      simp [DatedRecord.recent, HistoryRecord.isSnapshot]

theorem getLast?_newest (records : List HistoryRecord) (e : Event) (events : List Event) :
    (newest records (e :: events)).events.getLast? = (e :: events).getLast? := by
  induction records generalizing e events with
  | nil => rfl
  | cons r rest ih =>
    cases r with
    | snapshot latest => rfl
    | event e' => rw [newest, ih, List.getLast?_cons_cons]

/-- The version of a history read back is that of the first entry. -/
theorem version?_newest (records : List HistoryRecord) :
    (newest records []).version? = records.head?.map HistoryRecord.version := by
  cases records with
  | nil => rfl
  | cons r rest =>
    cases r with
    | snapshot latest => rfl
    | event e =>
      rw [newest, version?, getLast?_newest]
      rfl

theorem isEmpty_newest (records : List HistoryRecord) :
    (newest records []).isEmpty = records.isEmpty := by
  cases records with
  | nil => rfl
  | cons r rest =>
    cases r with
    | snapshot latest => rfl
    | event e =>
      have hlast := getLast?_newest rest e []
      have hne : (newest rest [e]).events ≠ [] := by
        intro hnil
        rw [hnil] at hlast
        cases hlast
      rw [newest, isEmpty, List.isEmpty_eq_false_iff.mpr hne, Bool.and_false]
      rfl

end AggregateHistory

namespace AggregateStore

open HistoryRecord DatedRecord

variable {ι : Type} [RecordId ι] {s : AggregateStore ι} {space : Namespace} {id : ι} {store : Store}
  {c : Connection} {keys : KeyFactory} {aggregate : String}

/-- Reading back pulls the events before the latest snapshot and that snapshot, and the end if there is
none. -/
theorem readBack_walk (hstore : store.WellSized) {w : Walk} {found : List DatedRecord}
    (h : w.Pending store (found.map (entity keys aggregate))) (hserves : c.Serves store) {fuel : Nat}
    (hfuel : found.length < fuel) (events : List Event) :
    ∃ pulls, 0 < pulls ∧
      min pulls found.length = (recent found).length + (latest? found).toList.length ∧
      readBack fuel (.walk w) events c =
        (.ok (.newest (found.map (·.record)) events), (w.pulled pulls c).2) := by
  induction fuel generalizing w found c events with
  | zero => omega
  | succ fuel ih =>
    have hpull := h.pull hstore hserves
    rcases hw : w.pull c with ⟨⟨item, w'⟩, c'⟩
    rw [hw] at hpull
    have hitem : item = (found.map (entity keys aggregate)).head?.map .ok := hpull.item
    have hpulled (count : Nat) : w.pulled (count + 1) c = w'.pulled count c' := by
      rw [Walk.pulled, hw]
    cases found with
    | nil =>
      subst hitem
      have hstream : (EntityStream.walk w).pull c = (⟨none, .ended⟩, c') := by
        rw [EntityStream.pull, hw]
        rfl
      refine ⟨1, Nat.one_pos, rfl, ?_⟩
      rw [hpulled, readBack]
      dsimp only
      rw [hstream]
      rfl
    | cons first rest =>
      subst hitem
      have hstream : (EntityStream.walk w).pull c =
          (⟨some (.ok (first.entity keys aggregate)), .walk w'⟩, c') := by
        rw [EntityStream.pull, hw]
        rfl
      have hread : ofEntity (first.entity keys aggregate) = .ok first.record :=
        ofEntity_toEntity ..
      rw [readBack]
      dsimp only
      rw [hstream]
      dsimp only
      rw [hread]
      obtain ⟨r, created⟩ := first
      cases r with
      | snapshot latest =>
        refine ⟨1, Nat.one_pos, ?_, by rw [hpulled]; rfl⟩
        rw [recent_of_snapshot rfl, latest?_of_snapshot rfl, List.length_cons]
        exact Nat.min_eq_left (Nat.succ_le_succ (Nat.zero_le _))
      | event e =>
        obtain ⟨pulls, -, hcount, hback⟩ :=
          ih hpull.pending hpull.serves (Nat.lt_of_succ_lt_succ hfuel) (e :: events)
        refine ⟨pulls + 1, Nat.succ_pos _, ?_, by rw [hpulled]; exact hback⟩
        rw [recent_of_event rfl, latest?_of_event rfl, List.length_cons, List.length_cons]
        omega

variable (s id) in
/-- The entities of a history are those of entries. -/
theorem exists_stored (hhistories : HistoriesOnly ⟨space, s.settings.kind⟩ store.documents) :
    ∃ stored : List DatedRecord, store.entities.filter (s.historyQuery space id).selects =
      stored.map (entity ⟨space, s.settings.kind⟩ (RecordId.toName id)) := by
  have hentries : ∀ e ∈ store.entities.filter (s.historyQuery space id).selects,
      e ∈ Set.range (entity ⟨space, s.settings.kind⟩ (RecordId.toName id)) := by
    intro e he
    obtain ⟨hmem, hselected⟩ := List.mem_filter.mp he
    obtain ⟨⟨hspace, hkind⟩, hname⟩ := selects_historyQuery.mp hselected
    obtain ⟨w, rfl⟩ := hhistories e (Store.mem_entities.mp hmem) hspace hkind _ hname
    exact ⟨w, rfl⟩
  have hrange : store.entities.filter (s.historyQuery space id).selects ∈
      Set.range (List.map (entity ⟨space, s.settings.kind⟩ (RecordId.toName id))) := by
    rw [Set.range_list_map]
    exact hentries
  obtain ⟨stored, hstored⟩ := hrange
  exact ⟨stored, hstored.symm⟩

variable (s id) in
/-- The entities of a history are those of its entries in time, newest first. -/
theorem exists_backward (hhistories : HistoriesOnly ⟨space, s.settings.kind⟩ store.documents) :
    ∃ stored found : List DatedRecord,
      (store.entities.filter fun e => e.key.space = space ∧ e.key.kind = s.settings.kind ∧
          e.get? aggregateProperty = some (.string (RecordId.toName id))) =
        stored.map (entity ⟨space, s.settings.kind⟩ (RecordId.toName id)) ∧
      found.Perm stored ∧ (found.Pairwise fun a b => (age b a).isLE) ∧
      store.results (s.historyQuery space id) =
        found.map (entity ⟨space, s.settings.kind⟩ (RecordId.toName id)) := by
  have hselects : store.entities.filter (s.historyQuery space id).selects =
      store.entities.filter fun e => e.key.space = space ∧ e.key.kind = s.settings.kind ∧
        e.get? aggregateProperty = some (.string (RecordId.toName id)) := by
    refine List.filter_congr fun e _ => ?_
    rw [Bool.eq_iff_iff, selects_historyQuery, decide_eq_true_iff, and_assoc]
  obtain ⟨stored, hstored⟩ := exists_stored s id hhistories
  exact ⟨stored, Sorted.stable (fun a b => age b a) stored, hselects ▸ hstored,
    Sorted.stable_perm .., Sorted.stable_pairwise _ stored, results_of_stored hstored⟩

/-- What is read of a history follows from what reading back gives. -/
theorem readHistory_of_readBack {caller : Caller} {batch : Nat} {context : Context}
    (hspace : s.settings.resolver.current caller.tenant = .ok space) (hbatch : 1 ≤ batch)
    {h : AggregateHistory} {c' : Connection}
    (hback : readBack (0 + context.connection.store.size + 1 + 1)
      (.walk (.start s.settings.policy (s.historyQuery space id) batch)) [] context.connection =
      (.ok h, c')) :
    s.readHistory caller id batch context =
      (.ok (if h.isEmpty then none else some h), { context with connection := c' }) := by
  have hread : Context.onConnection (fun c => readBack
      ((s.historyEntities caller id batch).bound c.store.size + 1)
      (s.historyEntities caller id batch) [] c) context =
      (.ok h, { context with connection := c' }) := by
    rw [historyEntities_eq_walk hspace hbatch]
    unfold Context.onConnection Action.onPart
    exact congrArg (fun r : Outcome AggregateHistory × Connection =>
      (r.1, { context with connection := r.2 })) hback
  rw [readHistory, Action.bind_ok hread, Action.pure_apply]

/-- Reading a history with the entries `found` on the way back. -/
theorem readHistory_of_results {caller : Caller} {batch : Nat} {context : Context}
    {found : List DatedRecord} (hspace : s.settings.resolver.current caller.tenant = .ok space)
    (hbatch : 1 ≤ batch) (hserves : context.connection.Serves context.connection.store)
    (hsized : context.connection.store.WellSized)
    (hresults : context.connection.store.results (s.historyQuery space id) =
      found.map (entity ⟨space, s.settings.kind⟩ (RecordId.toName id))) :
    (s.readHistory caller id batch context).1 =
        .ok (if found.isEmpty then none else some (.newest (found.map (·.record)) [])) ∧
      (s.readHistory caller id batch context).2.connection.store.calls =
        context.connection.store.calls.bumps .query
          (max 1 (((recent found).length + (latest? found).toList.length) ⌈/⌉
            min batch context.connection.store.pageLimit)) := by
  have hlength : found.length ≤ context.connection.store.size := by
    rw [← List.length_map (entity ⟨space, s.settings.kind⟩ (RecordId.toName id)), ← hresults]
    exact Store.length_results_le _ _
  have hpending : Walk.Pending context.connection.store
      (.start s.settings.policy (s.historyQuery space id) batch)
      (found.map (entity ⟨space, s.settings.kind⟩ (RecordId.toName id))) := by
    rw [← hresults]
    exact Walk.pending_start context.connection.store s.settings.policy batch rfl
  have hfuel : found.length < 0 + context.connection.store.size + 1 + 1 := by omega
  obtain ⟨pulls, hpulls, hcount, hback⟩ := readBack_walk hsized hpending hserves hfuel []
  have hcalls := hpending.calls_pulled hsized hserves rfl hpulls
  have hroom : (Walk.start s.settings.policy (s.historyQuery space id) batch).pageRoom
      context.connection.store = min batch context.connection.store.pageLimit :=
    congrArg (min · _) (Nat.max_eq_left hbatch)
  rw [Walk.isOver_start, if_neg (by simp [historyQuery, EntityQuery.all]), List.length_map, hcount,
    hroom] at hcalls
  rw [readHistory_of_readBack hspace hbatch hback, AggregateHistory.isEmpty_newest, List.isEmpty_map]
  exact ⟨rfl, hcalls⟩

variable (s id) in
/-- A history is read as its latest snapshot and the later events, oldest first, whatever the batches
are, and with no more queries than the pages that these entries fill. -/
theorem readHistory_eq_latest {tenant : Option Tenant} {context : Context}
    (hspace : s.settings.resolver.current tenant = .ok space)
    (hserves : context.connection.Serves context.connection.store)
    (hsized : context.connection.store.WellSized)
    (hhistories : HistoriesOnly ⟨space, s.settings.kind⟩ context.connection.store.documents) :
    ∃ (stored : List DatedRecord) (latest : Option DatedRecord) (after : List DatedRecord)
      (h : AggregateHistory),
      (context.connection.store.entities.filter fun e => e.key.space = space ∧
          e.key.kind = s.settings.kind ∧
          e.get? aggregateProperty = some (.string (RecordId.toName id))) =
        stored.map (entity ⟨space, s.settings.kind⟩ (RecordId.toName id)) ∧
      IsLatest stored latest ∧ after.Perm (stored.filter (isAfter latest)) ∧
      (after.Pairwise fun a b => (moment a b).isLE) ∧
      h.snapshot.map .snapshot = latest.map (·.record) ∧
      h.events.map .event = after.map (·.record) ∧
      h.version? = (stored.map fun w => w.record.version).max? ∧
      ∀ batch caller, 1 ≤ batch → caller.tenant = tenant →
        (s.readHistory caller id batch context).1 =
            .ok (if stored.isEmpty then none else some h) ∧
          (s.readHistory caller id batch context).2.connection.store.calls =
            context.connection.store.calls.bumps .query
              (max 1 ((after.length + latest.toList.length) ⌈/⌉
                min batch context.connection.store.pageLimit)) := by
  obtain ⟨stored, found, hstored, hperm, hsorted, hresults⟩ :=
    exists_backward s id hhistories
  obtain ⟨hsnapshot, hevents⟩ := AggregateHistory.newest_dated found []
  have hafter : (recent found).reverse.Perm (stored.filter (isAfter (latest? found))) := by
    rw [← filter_isAfter hsorted]
    exact (List.reverse_perm _).trans (hperm.filter _)
  refine ⟨stored, latest? found, (recent found).reverse, .newest (found.map (·.record)) [], hstored,
    (isLatest_latest? hsorted).perm hperm, hafter, pairwise_recent hsorted, hsnapshot,
    by rw [hevents, List.map_nil, List.append_nil], ?_, fun batch caller hbatch htenant => ?_⟩
  · rw [max?_version hsorted hperm, AggregateHistory.version?_newest, List.head?_map, Option.map_map]
    rfl
  · obtain ⟨hread, hcalls⟩ :=
      readHistory_of_results (htenant ▸ hspace) hbatch hserves hsized hresults
    rw [hperm.isEmpty_eq] at hread
    rw [List.length_reverse]
    exact ⟨hread, hcalls⟩

/-- A deployment on an empty store with pages of two. -/
def orderDeployment : Deployment :=
  { settings := { StorageSettings.standard with transactional := true, pageSize := 1 }
    resolver := .single ⟨""⟩, mapping := .builtin, store := .empty ⟨1, 1⟩ 2, metrics := .zero
    closed := false, index := .empty, keys := .empty, slots := [] }

/-- A handle on orders. -/
def orderHandle : Handle := ⟨singleStore.settings, 0⟩

/-- Order "a" has a snapshot of version 2 and an event of that version and instant, one that was
written earlier and one that was written later, and an event of version 3. -/
def orderSteps : List (Deployment.Step String) :=
  [.openHandle ⟨"order"⟩,
    .operate orderHandle ⟨none, ⟨5, 0⟩⟩ (.writeHistory "a"
      ⟨some ⟨2, ⟨0, 0⟩, [1]⟩, [⟨⟨1⟩, 2, ⟨0, 0⟩, []⟩, ⟨⟨2⟩, 3, ⟨0, 0⟩, []⟩]⟩),
    .operate orderHandle ⟨none, ⟨4, 0⟩⟩ (.writeEntry "a" (eventAt 3 2)),
    .operate orderHandle ⟨none, ⟨6, 0⟩⟩ (.writeEntry "a" (eventAt 4 2)),
    .operate orderHandle ⟨none, ⟨7, 0⟩⟩ (.writeEntry "b" (snapshotAt 9 [])),
    .operate orderHandle ⟨none, ⟨7, 0⟩⟩ (.writeCount "a" 2)]

/-- The orders as their handle finds them. -/
def orders : Context := (Deployment.run orderSteps orderDeployment).context orderHandle

/-- The events after the snapshot are on the first page, and the snapshot on the second. -/
theorem readHistory_eq_latest_orders :
    singleStore.settings.resolver.current none = .ok ⟨""⟩ ∧
    orders.connection.Serves orders.connection.store ∧ orders.connection.store.WellSized ∧
    HistoriesOnly ⟨⟨""⟩, ⟨"order"⟩⟩ orders.connection.store.documents ∧
    (singleStore.readHistory default "a" 5 orders).1 =
      .ok (some ⟨some ⟨2, ⟨0, 0⟩, [1]⟩, [⟨⟨4⟩, 2, ⟨0, 0⟩, []⟩, ⟨⟨2⟩, 3, ⟨0, 0⟩, []⟩]⟩) ∧
    (singleStore.readHistory default "a" 5 orders).2.connection.store.calls =
      orders.connection.store.calls.bumps .query 2 := by
  have hspace : singleStore.settings.resolver.current none = .ok ⟨""⟩ := rfl
  have hslot : orders.connection.slot = .idle := by decide +kernel
  have hserves : orders.connection.Serves orders.connection.store := by
    refine ⟨.refl (by decide +kernel), by decide +kernel, fun t ht => ?_⟩
    rw [hslot] at ht
    cases ht
  have hsized : orders.connection.store.WellSized := ⟨by decide +kernel, by decide +kernel⟩
  have hhistories : HistoriesOnly ⟨⟨""⟩, ⟨"order"⟩⟩ orders.connection.store.documents := by
    refine historiesOnly_run rfl rfl fun step hstep => ?_
    simp only [orderSteps, List.mem_cons, List.not_mem_nil, or_false] at hstep
    rcases hstep with rfl | rfl | rfl | rfl | rfl | rfl <;> exact trivial
  have hgiven : (singleStore.readHistory default "a" 5 orders).1 =
      .ok (some ⟨some ⟨2, ⟨0, 0⟩, [1]⟩, [⟨⟨4⟩, 2, ⟨0, 0⟩, []⟩, ⟨⟨2⟩, 3, ⟨0, 0⟩, []⟩]⟩) := by
    decide +kernel
  refine ⟨hspace, hserves, hsized, hhistories, hgiven, ?_⟩
  obtain ⟨stored, latest, after, h, -, -, -, -, hsnapshot, hevents, -, hread⟩ :=
    readHistory_eq_latest singleStore "a" hspace hserves hsized hhistories
  obtain ⟨hanswer, hcalls⟩ := hread 5 default (by decide) rfl
  rw [hgiven] at hanswer
  split at hanswer
  · cases hanswer
  · obtain rfl := Option.some.inj (Except.ok.inj hanswer)
    have hafter : after.length = 2 := by simpa using congrArg List.length hevents.symm
    have hlatest : latest.toList.length = 1 := by
      cases latest with
      | none => cases hsnapshot
      | some l => rfl
    have hpage : orders.connection.store.pageLimit = 2 := by decide +kernel
    rw [hcalls, hafter, hlatest, hpage, Nat.ceilDiv_eq_add_pred_div]
    rfl

end AggregateStore

end DocumentStore
