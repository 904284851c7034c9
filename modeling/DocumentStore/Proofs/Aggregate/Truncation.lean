import DocumentStore.Proofs.Access.Settled
import DocumentStore.Proofs.Aggregate.Latest
import DocumentStore.Proofs.Store.Removal
set_option autoImplicit false

/-!
# What a truncation leaves

A truncation reads a history backwards, counts snapshots, and deletes what is behind the one that it
stops at.  What is in front of the cut decides where it is: a history that was cut is cut at the same
place again, whatever is left behind it.
-/

namespace DocumentStore

open HistoryRecord

/-! ## The cut -/

namespace DatedRecord

/-- The entries on the way back down to the snapshot that `index` others come before. -/
def upTo (index : Nat) : List DatedRecord → List DatedRecord
  | [] => []
  | w :: rest =>
    if w.record.isSnapshot then
      match index with
      | 0 => [w]
      | index + 1 => w :: upTo index rest
    else w :: upTo index rest

/-- The entries behind that snapshot. -/
def behind (index : Nat) : List DatedRecord → List DatedRecord
  | [] => []
  | w :: rest =>
    if w.record.isSnapshot then
      match index with
      | 0 => rest
      | index + 1 => behind index rest
    else behind index rest

/-- How many snapshots there are. -/
def snapshots (found : List DatedRecord) : Nat := found.countP (·.record.isSnapshot)

theorem cut_event {w : DatedRecord} (h : w.record.isSnapshot = false) (index : Nat)
    (rest : List DatedRecord) :
    upTo index (w :: rest) = w :: upTo index rest ∧ behind index (w :: rest) = behind index rest := by
  rw [upTo.eq_def, behind.eq_def]
  simp [h]

theorem cut_here {w : DatedRecord} (h : w.record.isSnapshot = true) (rest : List DatedRecord) :
    upTo 0 (w :: rest) = [w] ∧ behind 0 (w :: rest) = rest := by
  rw [upTo.eq_def, behind.eq_def]
  simp [h]

theorem cut_later {w : DatedRecord} (h : w.record.isSnapshot = true) (index : Nat)
    (rest : List DatedRecord) :
    upTo (index + 1) (w :: rest) = w :: upTo index rest ∧
      behind (index + 1) (w :: rest) = behind index rest := by
  rw [upTo.eq_def, behind.eq_def]
  simp [h]

theorem snapshots_cons (w : DatedRecord) (rest : List DatedRecord) :
    snapshots (w :: rest) = snapshots rest + if w.record.isSnapshot then 1 else 0 := List.countP_cons

theorem upTo_append_behind (index : Nat) (found : List DatedRecord) :
    upTo index found ++ behind index found = found := by
  induction index, found using upTo.induct with
  | case1 => rfl
  | case2 w rest h =>
    obtain ⟨hupTo, hbehind⟩ := cut_here h rest
    rw [hupTo, hbehind]
    rfl
  | case3 w rest h index ih =>
    obtain ⟨hupTo, hbehind⟩ := cut_later h index rest
    rw [hupTo, hbehind, List.cons_append, ih]
  | case4 index w rest h ih =>
    obtain ⟨hupTo, hbehind⟩ := cut_event (Bool.eq_false_iff.mpr h) index rest
    rw [hupTo, hbehind, List.cons_append, ih]

/-- With no more snapshots than are to be kept before it there is no cut. -/
theorem behind_of_few {index : Nat} {found : List DatedRecord} (hfew : snapshots found ≤ index) :
    behind index found = [] := by
  induction index, found using behind.induct with
  | case1 => rfl
  | case2 w rest h =>
    rw [snapshots_cons, if_pos h] at hfew
    omega
  | case3 w rest h index ih =>
    rw [snapshots_cons, if_pos h] at hfew
    rw [(cut_later h index rest).2]
    exact ih (Nat.le_of_succ_le_succ hfew)
  | case4 index w rest h ih =>
    rw [snapshots_cons, if_neg h] at hfew
    rw [(cut_event (Bool.eq_false_iff.mpr h) index rest).2]
    exact ih hfew

/-- With more snapshots the cut is right behind one. -/
theorem upTo_of_many {index : Nat} {found : List DatedRecord} (hmany : index < snapshots found) :
    ∃ newer cutoff, upTo index found = newer ++ [cutoff] ∧ cutoff.record.isSnapshot = true ∧
      snapshots newer = index := by
  induction index, found using upTo.induct with
  | case1 => exact absurd hmany (Nat.not_lt_zero _)
  | case2 w rest h => exact ⟨[], w, (cut_here h rest).1, h, rfl⟩
  | case3 w rest h index ih =>
    rw [snapshots_cons, if_pos h] at hmany
    obtain ⟨newer, cutoff, hupTo, hcutoff, hnewer⟩ := ih (Nat.lt_of_succ_lt_succ hmany)
    refine ⟨w :: newer, cutoff, ?_, hcutoff, ?_⟩
    · rw [(cut_later h index rest).1, hupTo, List.cons_append]
    · rw [snapshots_cons, if_pos h, hnewer]
  | case4 index w rest h ih =>
    rw [snapshots_cons, if_neg h] at hmany
    obtain ⟨newer, cutoff, hupTo, hcutoff, hnewer⟩ := ih hmany
    refine ⟨w :: newer, cutoff, ?_, hcutoff, ?_⟩
    · rw [(cut_event (Bool.eq_false_iff.mpr h) index rest).1, hupTo, List.cons_append]
    · rw [snapshots_cons, if_neg h, hnewer, Nat.add_zero]

/-- The cut does not depend on what is behind it. -/
theorem behind_upTo_append {index : Nat} {found more : List DatedRecord}
    (hmore : behind index found = [] → more = []) :
    behind index (upTo index found ++ more) = more := by
  induction index, found using upTo.induct with
  | case1 =>
    rw [hmore rfl]
    rfl
  | case2 w rest h =>
    rw [(cut_here h rest).1]
    exact (cut_here h more).2
  | case3 w rest h index ih =>
    obtain ⟨hupTo, hbehind⟩ := cut_later h index rest
    rw [hbehind] at hmore
    rw [hupTo, List.cons_append, (cut_later h index _).2, ih hmore]
  | case4 index w rest h ih =>
    have hevent := Bool.eq_false_iff.mpr h
    obtain ⟨hupTo, hbehind⟩ := cut_event hevent index rest
    rw [hbehind] at hmore
    rw [hupTo, List.cons_append, (cut_event hevent index _).2, ih hmore]

/-- Whether entries on the way back are cut right behind the snapshot that `index` others come before, and
not at all if there is none. -/
structure IsCut (index : Nat) (kept removed : List DatedRecord) : Prop where
  few : snapshots (kept ++ removed) ≤ index → removed = []
  many : index < snapshots (kept ++ removed) → ∃ newer cutoff, kept = newer ++ [cutoff] ∧
    cutoff.record.isSnapshot = true ∧ snapshots newer = index

theorem isCut (index : Nat) (found : List DatedRecord) :
    IsCut index (upTo index found) (behind index found) where
  few h := behind_of_few (by rwa [upTo_append_behind] at h)
  many h := upTo_of_many (by rwa [upTo_append_behind] at h)

/-- What is read back to the latest snapshot does not depend on what is behind the cut. -/
theorem newest_upTo_append {index : Nat} {found more : List DatedRecord}
    (hmore : behind index found = [] → more = []) (events : List Event) :
    AggregateHistory.newest ((upTo index found ++ more).map (·.record)) events =
      .newest (found.map (·.record)) events := by
  induction found generalizing events with
  | nil =>
    rw [hmore rfl]
    rfl
  | cons w rest ih =>
    obtain ⟨r, created⟩ := w
    cases r with
    | snapshot latest => cases index <;> rfl
    | event e =>
      obtain ⟨hupTo, hbehind⟩ := cut_event (w := ⟨.event e, created⟩) rfl index rest
      rw [hbehind] at hmore
      rw [hupTo]
      exact ih hmore (e :: events)

/-- A truncation looks at entities as one would look at their entries. -/
theorem afterSnapshot_map (keys : KeyFactory) (aggregate : String) (index : Nat)
    (found : List DatedRecord) :
    AggregateStore.afterSnapshot index (found.map (entity keys aggregate)) =
      (behind index found).map (entity keys aggregate) := by
  have hsnapshot (w : DatedRecord) :
      AggregateStore.isSnapshotEntity (w.entity keys aggregate) = w.record.isSnapshot := by
    obtain ⟨-, -, -, hget⟩ := get?_toEntity keys aggregate w.created w.record
    rw [AggregateStore.isSnapshotEntity, entity, hget]
    cases w.record.isSnapshot <;> rfl
  induction index, found using behind.induct with
  | case1 => rfl
  | case2 w rest h =>
    rw [(cut_here h rest).2, List.map_cons, AggregateStore.afterSnapshot.eq_def]
    simp [hsnapshot, h]
  | case3 w rest h index ih =>
    rw [(cut_later h index rest).2, List.map_cons, AggregateStore.afterSnapshot.eq_def]
    simp [hsnapshot, h, ih]
  | case4 index w rest h ih =>
    have hevent := Bool.eq_false_iff.mpr h
    rw [(cut_event hevent index rest).2, List.map_cons, AggregateStore.afterSnapshot.eq_def]
    simp [hsnapshot, hevent, ih]

end DatedRecord

/-! ## What is stored of a history -/

namespace AggregateStore

open DatedRecord

variable {ι : Type} [RecordId ι] {s : AggregateStore ι} {space : Namespace} {id : ι}
  {store store' : Store} {found kept gone rest : List DatedRecord}

/-- The key of an entry of a history. -/
def entryKey (s : AggregateStore ι) (space : Namespace) (id : ι) (w : DatedRecord) : Key :=
  (w.entity ⟨space, s.settings.kind⟩ (RecordId.toName id)).key

/-- Whether a store has just these entries of the history of an aggregate, newest first. -/
def Holds (s : AggregateStore ι) (space : Namespace) (id : ι) (store : Store)
    (found : List DatedRecord) : Prop :=
  ∃ stored : List DatedRecord, found = Sorted.stable (fun a b => age b a) stored ∧
    store.entities.filter (s.historyQuery space id).selects =
      stored.map (entity ⟨space, s.settings.kind⟩ (RecordId.toName id))

theorem Holds.results (h : s.Holds space id store found) :
    store.results (s.historyQuery space id) =
      found.map (entity ⟨space, s.settings.kind⟩ (RecordId.toName id)) := by
  obtain ⟨stored, rfl, hstored⟩ := h
  exact results_of_stored hstored

variable (s id) in
theorem exists_holds (hhistories : HistoriesOnly ⟨space, s.settings.kind⟩ store.documents) :
    ∃ found, s.Holds space id store found := by
  obtain ⟨stored, hstored⟩ := exists_stored s id hhistories
  exact ⟨_, stored, rfl, hstored⟩

/-- Whether a store holds entries depends on its documents alone. -/
theorem Holds.congr (h : s.Holds space id store found) (hdocuments : store'.documents = store.documents) :
    s.Holds space id store' found := by
  obtain ⟨stored, hfound, hstored⟩ := h
  have hentities : store'.entities = store.entities := by rw [Store.entities, hdocuments, Store.entities]
  exact ⟨stored, hfound, hentities ▸ hstored⟩

/-- No two entries of a history have the same key. -/
theorem Holds.nodup_keys (h : s.Holds space id store found) : (found.map (s.entryKey space id)).Nodup := by
  obtain ⟨stored, rfl, hstored⟩ := h
  have hkeys : ((stored.map (entity ⟨space, s.settings.kind⟩ (RecordId.toName id))).map (·.key)).Nodup := by
    rw [← hstored]
    exact (List.filter_sublist.map _).nodup store.nodup_keys_entities
  rw [List.map_map] at hkeys
  exact ((Sorted.stable_perm _ stored).map _).nodup_iff.mpr hkeys

/-- When some entries were deleted, the others are left in the same order. -/
theorem Holds.remove (h : s.Holds space id store (kept ++ (gone ++ rest)))
    (hdocuments : store'.documents =
      Write.applyAll store.documents (Write.ofDeleted (gone.map (s.entryKey space id)))) :
    s.Holds space id store' (kept ++ rest) := by
  have hnodup := h.nodup_keys
  obtain ⟨stored, hfound, hstored⟩ := h
  let left (w : DatedRecord) : Bool := decide (s.entryKey space id w ∉ gone.map (s.entryKey space id))
  have hselected : store'.entities.filter (s.historyQuery space id).selects =
      (stored.filter left).map (entity ⟨space, s.settings.kind⟩ (RecordId.toName id)) := by
    rw [Store.entities_of_deleted hdocuments, List.filter_filter]
    simp only [Bool.and_comm]
    rw [← List.filter_filter, hstored, List.filter_map]
    rfl
  refine ⟨stored.filter left, ?_, hselected⟩
  rw [Sorted.stable_filter, ← hfound, List.filter_append, List.filter_append]
  rw [List.map_append, List.map_append] at hnodup
  obtain ⟨-, hback, hfront⟩ := List.nodup_append.mp hnodup
  obtain ⟨-, -, hmiddle⟩ := List.nodup_append.mp hback
  have hkept : kept.filter left = kept := by
    refine List.filter_eq_self.mpr fun w hw => decide_eq_true fun hmem => ?_
    exact hfront _ (List.mem_map_of_mem hw) _ (List.mem_append_left _ hmem) rfl
  have hgone : gone.filter left = [] := by
    refine List.filter_eq_nil_iff.mpr fun w hw hleft => ?_
    exact of_decide_eq_true hleft (List.mem_map_of_mem hw)
  have hrest : rest.filter left = rest := by
    refine List.filter_eq_self.mpr fun w hw => decide_eq_true fun hmem => ?_
    exact hmiddle _ hmem _ (List.mem_map_of_mem hw) rfl
  rw [hkept, hgone, hrest, List.nil_append]

/-! ## Reading what is left -/

section Reading

variable {caller : Caller} {batch : Nat} {context context' : Context}
  (hspace : s.settings.resolver.current caller.tenant = .ok space)

include hspace

/-- Reading backwards gives the entries that are held. -/
theorem Holds.drain {c : Connection} (h : s.Holds space id store found) (hbatch : 1 ≤ batch)
    (hsized : store.WellSized) (hserves : c.Serves store) :
    ((s.historyBackward caller id batch).drain c).1 = ⟨found.map fun w => .ok w.record, true⟩ := by
  rw [drain_historyBackward hspace hbatch hsized hserves, h.results, List.map_map]
  refine congrArg (Drained.mk · true) (List.map_congr_left fun w _ => ?_)
  exact ofEntity_toEntity ..

/-- What is read of a history up to the latest snapshot is the same whatever is left behind a cut. -/
theorem Holds.readHistory_eq {index : Nat} {more : List DatedRecord}
    (h : s.Holds space id context.connection.store found)
    (h' : s.Holds space id context'.connection.store (upTo index found ++ more))
    (hmore : behind index found = [] → more = [])
    (hserves : context.connection.Serves context.connection.store)
    (hserves' : context'.connection.Serves context'.connection.store)
    (hsized : context.connection.store.WellSized) (hsized' : context'.connection.store.WellSized) :
    (s.readHistory caller id batch context').1 = (s.readHistory caller id batch context).1 := by
  cases batch with
  | zero => rfl
  | succ batch =>
    have hbatch := Nat.succ_le_succ (Nat.zero_le batch)
    have hnewest := newest_upTo_append hmore []
    have hempty := congrArg AggregateHistory.isEmpty hnewest
    simp only [AggregateHistory.isEmpty_newest, List.isEmpty_map] at hempty
    rw [(readHistory_of_results hspace hbatch hserves hsized h.results).1,
      (readHistory_of_results hspace hbatch hserves' hsized' h'.results).1, hnewest, hempty]

end Reading

/-! ## Truncating -/

/-- Collecting a stream that has entities still to give gives all of them. -/
theorem collect_of_pending {stream : EntityStream} {items : List Entity} {c : Connection}
    (hsized : store.WellSized) (h : stream.Pending store items) (hserves : c.Serves store) {fuel : Nat}
    (hfuel : items.length < fuel) :
    ∃ c', collect fuel stream c = (.ok items, c') ∧ c'.Serves store := by
  induction fuel generalizing stream items c with
  | zero => omega
  | succ fuel ih =>
    have hpull := h.pull hsized hserves
    rw [collect]
    dsimp only
    rcases hp : stream.pull c with ⟨⟨item, rest⟩, c'⟩
    rw [hp] at hpull
    have hitem : item = items.head?.map .ok := hpull.item
    cases items with
    | nil =>
      subst hitem
      exact ⟨c', rfl, hpull.serves⟩
    | cons e more =>
      subst hitem
      obtain ⟨c'', hmore, hserves'⟩ := ih hpull.pending hpull.serves (Nat.lt_of_succ_lt_succ hfuel)
      dsimp only [List.head?_cons, Option.map_some]
      rw [List.tail_cons] at hmore
      rw [hmore]
      exact ⟨c'', rfl, hserves'⟩

variable (s space id) in
/-- The keys that a truncation deletes are those of the entries behind the cut. -/
theorem map_key_afterSnapshot (index : Nat) (found : List DatedRecord) :
    (afterSnapshot index
        (found.map (entity ⟨space, s.settings.kind⟩ (RecordId.toName id)))).map (·.key) =
      (behind index found).map (s.entryKey space id) := by
  rw [afterSnapshot_map, List.map_map]
  rfl

section Truncating

variable {caller : Caller} {context : Context} {index : Nat}
  (h : s.Holds space id context.connection.store found)
  (hspace : s.settings.resolver.current caller.tenant = .ok space)
  (hserves : context.connection.Serves context.connection.store)
  (hidle : context.connection.slot.isActive = false)
  (hsized : context.connection.store.WellSized) (hpage : 1 ≤ s.settings.pageSize)

include h hspace hserves hidle hsized hpage

/-- The reading of a truncation gives everything that is held, and changes nothing. -/
theorem Holds.collect_history : ∃ c,
    Context.onConnection (fun c => collect
        ((s.historyEntities caller id s.settings.pageSize).bound c.store.size + 1)
        (s.historyEntities caller id s.settings.pageSize) c) context =
      (.ok (found.map (entity ⟨space, s.settings.kind⟩ (RecordId.toName id))),
        { context with connection := c }) ∧
      c.Serves c.store ∧ Connection.Wrote [] context.connection c := by
  let stream := s.historyEntities caller id s.settings.pageSize
  have hpending : stream.Pending context.connection.store
      (found.map (entity ⟨space, s.settings.kind⟩ (RecordId.toName id))) := by
    rw [show stream = _ from historyEntities_eq_walk hspace hpage, ← h.results]
    exact .walk (Walk.pending_start _ _ _ rfl)
  obtain ⟨c, hcollect, hserves'⟩ :=
    collect_of_pending hsized hpending hserves (Nat.lt_succ_of_le hpending.length_le)
  have hread : Connection.Wrote [] context.connection c := by
    have hchain : Connection.Chain s.settings.policy (fun _ => False) context.connection
        (collect (stream.bound context.connection.store.size + 1) stream context.connection).2 :=
      collect_chains _ (s.historyEntities_uses caller id s.settings.pageSize) context.connection
    rw [hcollect] at hchain
    exact hchain.read hidle
  refine ⟨c, ?_, ⟨.refl hserves'.calm.failures, hserves'.isOpen, hserves'.unfinished⟩, hread⟩
  unfold Context.onConnection Action.onPart
  dsimp only
  rw [hcollect]

/-- A truncation that meets no failure deletes what is behind the cut, in calls that the store lets in, and
answers with how much it was. -/
theorem Holds.truncateOlderThan
    (hroom : min (max s.settings.policy.limits.write 1) (behind index found).length ≤
      context.connection.store.limits.write) :
    ∃ context', s.truncateOlderThan caller id index context =
        (.ok (behind index found).length, context') ∧
      context'.connection.Serves context'.connection.store ∧
      Connection.Wrote (Write.ofDeleted ((behind index found).map (s.entryKey space id)))
        context.connection context'.connection := by
  obtain ⟨c, hcollected, hserves', hread⟩ := h.collect_history hspace hserves hidle hsized hpage
  rw [AggregateStore.truncateOlderThan, Action.bind_ok hcollected]
  dsimp only
  rw [map_key_afterSnapshot, List.length_map]
  cases hbehind : behind index found with
  | nil => exact ⟨_, rfl, hserves', hread⟩
  | cons w rest =>
    rw [← hbehind]
    have hroom' : min (max s.settings.policy.limits.write 1)
        ((behind index found).map (s.entryKey space id)).length ≤ c.store.limits.write := by
      rw [List.length_map, hread.sameData.limits]
      exact hroom
    obtain ⟨c', hdelete, hserves'', hwrote⟩ :=
      hserves'.delete_wrote (hread.slot ▸ hidle) hroom' (s.label id)
    refine ⟨⟨c', context.index, context.keys⟩, ?_, hserves'', hread.trans hwrote⟩
    have hsome : (!((behind index found).map (s.entryKey space id)).isEmpty) = true := by
      rw [hbehind]
      rfl
    rw [if_pos hsome, Action.bind_apply, Context.onConnection, Action.onPart, hdelete]
    rfl

end Truncating

theorem wellSized_of_wrote_ofDeleted {c c' : Connection} {keys : List Key}
    (h : Connection.Wrote (Write.ofDeleted keys) c c') (hsized : c.store.WellSized) :
    c'.store.WellSized := by
  have hentities := Store.entities_of_deleted h.sameData.documents
  have hsize (store : Store) : store.size = store.entities.length := (List.length_map ..).symm
  refine ⟨h.sameData.pageLimit ▸ hsized.pageLimit, Nat.lt_of_le_of_lt ?_ hsized.size⟩
  rw [hsize, hsize, hentities]
  exact List.length_filter_le ..

variable (s id) in
/-- A truncation cuts the history read backwards right behind a snapshot, and answers with the number of
entries that it deletes.  What is read back to the latest snapshot stays the same, and so do all other
documents; truncating again deletes nothing more. -/
theorem truncateOlderThan_eq_cut {caller : Caller} {context : Context}
    (hspace : s.settings.resolver.current caller.tenant = .ok space)
    (hserves : context.connection.Serves context.connection.store)
    (hidle : context.connection.slot.isActive = false)
    (hsized : context.connection.store.WellSized) (hpage : 1 ≤ s.settings.pageSize)
    (hhistories : HistoriesOnly ⟨space, s.settings.kind⟩ context.connection.store.documents)
    (index : Nat) :
    ∃ kept removed : List DatedRecord, IsCut index kept removed ∧
      (∀ reader batch, s.settings.resolver.current reader.tenant = .ok space → 1 ≤ batch →
        ((s.historyBackward reader id batch).drain context.connection).1 =
          ⟨(kept ++ removed).map fun w => .ok w.record, true⟩) ∧
      (min (max s.settings.policy.limits.write 1) removed.length ≤
          context.connection.store.limits.write →
        ∃ context', s.truncateOlderThan caller id index context = (.ok removed.length, context') ∧
          (∀ reader batch, s.settings.resolver.current reader.tenant = .ok space → 1 ≤ batch →
            ((s.historyBackward reader id batch).drain context'.connection).1 =
              ⟨kept.map fun w => .ok w.record, true⟩) ∧
          (∀ reader batch, s.settings.resolver.current reader.tenant = .ok space →
            (s.readHistory reader id batch context').1 = (s.readHistory reader id batch context).1) ∧
          (∀ k, context'.connection.store.documents.get? k =
            if k ∈ removed.map (s.entryKey space id) then none
            else context.connection.store.documents.get? k) ∧
          ∀ again, s.settings.resolver.current again.tenant = .ok space →
            (s.truncateOlderThan again id index context').1 = .ok 0) := by
  obtain ⟨found, h⟩ := exists_holds s id hhistories
  have hsplit := upTo_append_behind index found
  refine ⟨upTo index found, behind index found, isCut index found, fun reader batch hreader hbatch => ?_,
    fun hroom => ?_⟩
  · rw [hsplit]
    exact h.drain hreader hbatch hsized hserves
  · obtain ⟨context', htruncate, hserves', hwrote⟩ :=
      h.truncateOlderThan hspace hserves hidle hsized hpage hroom
    have hidle' : context'.connection.slot.isActive = false := hwrote.slot ▸ hidle
    have hsized' := wellSized_of_wrote_ofDeleted hwrote hsized
    have hleft : s.Holds space id context'.connection.store (upTo index found ++ []) := by
      refine Holds.remove ?_ hwrote.sameData.documents
      rw [List.append_nil, hsplit]
      exact h
    refine ⟨context', htruncate, fun reader batch hreader hbatch => ?_, fun reader batch hreader => ?_,
      fun k => ?_, fun again hagain => ?_⟩
    · have hdrain := hleft.drain hreader hbatch hsized' hserves'
      rwa [List.append_nil] at hdrain
    · exact h.readHistory_eq hreader hleft (fun _ => rfl) hserves hserves' hsized hsized'
    · rw [hwrote.sameData.documents]
      exact Write.get?_applyAll_ofDeleted ..
    · have hnothing : behind index (upTo index found ++ []) = [] := behind_upTo_append fun _ => rfl
      have hroom' : min (max s.settings.policy.limits.write 1)
          (behind index (upTo index found ++ [])).length ≤ context'.connection.store.limits.write := by
        rw [hnothing, List.length_nil, Nat.min_zero]
        exact Nat.zero_le _
      obtain ⟨_, hagain', -⟩ :=
        hleft.truncateOlderThan hagain hserves' hidle' hsized' hpage hroom'
      rw [hagain', hnothing]
      rfl

theorem historiesOnly_orders : HistoriesOnly ⟨⟨""⟩, ⟨"order"⟩⟩ orders.connection.store.documents := by
  refine historiesOnly_run rfl rfl fun step hstep => ?_
  simp only [orderSteps, List.mem_cons, List.not_mem_nil, or_false] at hstep
  rcases hstep with rfl | rfl | rfl | rfl | rfl | rfl <;> exact trivial

/-- The order has two events behind its snapshot, one of them of the snapshot's own version and instant. -/
theorem truncateOlderThan_eq_cut_orders :
    HistoriesOnly ⟨⟨""⟩, ⟨"order"⟩⟩ orders.connection.store.documents ∧
      ∃ kept removed : List DatedRecord, IsCut 0 kept removed ∧ removed.length = 2 ∧
        (singleStore.truncateOlderThan default "a" 0 orders).1 = .ok removed.length := by
  have hspace : singleStore.settings.resolver.current none = .ok ⟨""⟩ := rfl
  have hidle : orders.connection.slot.isActive = false := by decide +kernel
  have hserves : orders.connection.Serves orders.connection.store :=
    .of_inactive (.refl (by decide +kernel)) (by decide +kernel) hidle
  have hsized : orders.connection.store.WellSized := ⟨by decide +kernel, by decide +kernel⟩
  obtain ⟨kept, removed, hcut, -, htruncate⟩ :=
    truncateOlderThan_eq_cut singleStore "a" hspace hserves hidle hsized (by decide)
      historiesOnly_orders 0
  have hroom : min (max singleStore.settings.policy.limits.write 1) removed.length ≤
      orders.connection.store.limits.write := by
    have hlimit : orders.connection.store.limits.write = 1 := by decide +kernel
    rw [hlimit]
    exact Nat.min_le_left ..
  obtain ⟨context', hdone, -⟩ := htruncate hroom
  have hgiven : (singleStore.truncateOlderThan default "a" 0 orders).1 = .ok 2 := by decide +kernel
  have hok := congrArg Prod.fst hdone
  exact ⟨historiesOnly_orders, kept, removed, hcut, Except.ok.inj (hok.symm.trans hgiven), hok⟩

end AggregateStore

end DocumentStore
