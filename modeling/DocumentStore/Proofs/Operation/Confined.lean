import DocumentStore.Proofs.Operation.Agreement
import DocumentStore.Proofs.Record.Stored
set_option autoImplicit false

/-!
# Operations write to their caller's namespace alone

What an operation puts has keys that were made for its caller.  What a truncation deletes are documents
that the query for a history found, and a query finds nothing of another namespace.
-/

namespace DocumentStore

variable {visible : Namespace → Prop}

/-! ## What queries find -/

/-- The results of a query are the documents that it selects. -/
theorem Store.mem_results {s : Store} {q : EntityQuery} {e : Entity} :
    e ∈ s.results q ↔ e ∈ s.entities ∧ q.selects e = true := by
  rw [← List.mem_filter]
  unfold results
  split
  · exact .rfl
  · exact (Sorted.stable_perm ..).mem_iff

/-- The entities of a page, unless only their keys were sent, are results of the query. -/
theorem Store.mem_results_of_mem_page {s : Store} {q : EntityQuery} (hwhole : q.keysOnly = false)
    {offset : Nat} {e : Entity} (h : e ∈ (s.page q offset).entities) : e ∈ s.results q := by
  rw [page, hwhole] at h
  exact List.mem_of_mem_drop (List.mem_of_mem_take h)

/-- Whether a walk asks for whole documents, and has at hand only such as its query selects. -/
structure Walk.Confined (documents : SortedMap Key Properties) (w : Walk) : Prop where
  whole : w.query.keysOnly = false
  atHand : ∀ e ∈ w.atHand, documents.get? e.key = some e.properties ∧ w.query.selects e = true

namespace Walk.Confined

variable {documents : SortedMap Key Properties} {w : Walk} {c : Connection}

theorem takeAtHand (h : w.Confined documents) :
    w.takeAtHand.rest.Confined documents ∧ ∀ e, w.takeAtHand.item = some (.ok e) →
      documents.get? e.key = some e.properties ∧ w.query.selects e = true := by
  obtain ⟨hwhole, hat⟩ := h
  unfold Walk.takeAtHand
  cases hw : w.atHand with
  | nil => exact ⟨⟨hwhole, List.forall_mem_nil _⟩, nofun⟩
  | cons e rest =>
    rw [hw] at hat
    obtain ⟨he, hrest⟩ := List.forall_mem_cons.mp hat
    refine ⟨⟨hwhole, hrest⟩, fun e' he' => ?_⟩
    cases he'
    exact he

theorem pull (h : w.Confined c.store.documents) (hidle : c.slot.isActive = false) :
    (w.pull c).1.rest.Confined c.store.documents ∧ ∀ e, (w.pull c).1.item = some (.ok e) →
      c.store.documents.get? e.key = some e.properties ∧ w.query.selects e = true := by
  have hfinish : w.finish.Confined c.store.documents := ⟨h.whole, List.forall_mem_nil _⟩
  rcases w.pull_cases c with
    ⟨-, hp⟩ | ⟨-, -, hp⟩ | ⟨-, -, r, c', hr, ⟨e, -, hp⟩ | ⟨page, rfl, hp⟩⟩ <;> rw [hp]
  · exact h.takeAtHand
  · exact ⟨hfinish, fun e he => by cases he⟩
  · exact ⟨hfinish, fun e he => by cases he⟩
  · obtain ⟨store, offset, hdocuments, -, rfl⟩ :=
      Connection.runQuery_eq_ok hidle (congrArg Prod.fst hr)
    refine takeAtHand ⟨h.whole, fun e he => ?_⟩
    obtain ⟨hmem, hselects⟩ := Store.mem_results.mp
      (Store.mem_results_of_mem_page (q := { w.query with limit := some w.nextLimit }) h.whole he)
    exact ⟨hdocuments ▸ Store.mem_entities.mp hmem, hselects⟩

end Walk.Confined

/-- What was collected from a walk are documents of the store that its query selects. -/
theorem AggregateStore.selects_of_mem_collect {w : Walk} {c : Connection}
    (hw : w.Confined c.store.documents) (hidle : c.slot.isActive = false) {fuel : Nat}
    {found : List Entity} (h : (collect fuel (.walk w) c).1 = .ok found) :
    ∀ e ∈ found, e ∈ c.store.entities ∧ w.query.selects e = true := by
  induction fuel generalizing w c found with
  | zero =>
    cases h
    exact List.forall_mem_nil _
  | succ fuel ih =>
    obtain ⟨hrest, hitem⟩ := hw.pull hidle
    have hsame := w.selects_pull c
    have hwrote := w.pull_wrote hidle
    unfold collect at h
    rw [EntityStream.pull] at h
    rcases hp : w.pull c with ⟨⟨_ | e | e, w'⟩, c'⟩ <;> rw [hp] at h hrest hitem hsame hwrote
    · cases h
      exact List.forall_mem_nil _
    · cases h
    · have hdocuments : c'.store.documents = c.store.documents := hwrote.sameData.documents
      dsimp only at h
      rcases hm : collect fuel (.walk w') c' with ⟨e' | more, c''⟩ <;> rw [hm] at h
      · cases h
      · cases h
        obtain ⟨hget, hselects⟩ := hitem e rfl
        refine List.forall_mem_cons.mpr ⟨⟨Store.mem_entities.mpr hget, hselects⟩, fun e he => ?_⟩
        obtain ⟨hmem, hselects⟩ :=
          ih (hdocuments ▸ hrest) (hwrote.slot ▸ hidle) (congrArg Prod.fst hm) e he
        rw [Store.mem_entities, hdocuments, ← Store.mem_entities] at hmem
        exact ⟨hmem, (congrFun hsame e).symm.trans hselects⟩

/-! ## What operations plan -/

section Plans

variable {ι : Type} [RecordId ι] {settings : HandleSettings} {caller : Caller}

theorem AggregateStore.mem_of_mem_afterSnapshot {index : Nat} {entities : List Entity} {e : Entity}
    (h : e ∈ afterSnapshot index entities) : e ∈ entities := by
  induction entities generalizing index with
  | nil => cases h
  | cons first rest ih =>
    refine List.mem_cons_of_mem _ ?_
    unfold afterSnapshot at h
    split at h
    · cases index with
      | zero => exact h
      | succ index => exact ih h
    · exact ih h

theorem RecordStore.space_of_mem_entitiesOf {mapping : ColumnMapping} {keys : KeyFactory} :
    ∀ {records : List (Record ι)} {batch : List Entity},
      entitiesOf mapping keys records = .ok batch → ∀ e ∈ batch, e.key.space = keys.space
  | [], batch, h => by
    cases h
    exact List.forall_mem_nil _
  | r :: rest, batch, h => by
    obtain ⟨e, he, h⟩ := Outcome.bind_eq_ok h
    obtain ⟨es, hes, h⟩ := Outcome.bind_eq_ok h
    cases h
    refine List.forall_mem_cons.mpr ⟨?_, space_of_mem_entitiesOf hes⟩
    rw [Record.key_toEntity he]
    rfl

/-- A truncation deletes documents of its aggregate's history. -/
theorem Operation.exists_of_mem_doomed {id : ι} {index : Nat} {c : Connection}
    (hidle : c.slot.isActive = false) {keys : List Key}
    (h : doomed settings caller id index c = .ok keys) :
    ∀ k ∈ keys, ∃ space e, settings.resolver.current caller.tenant = .ok space ∧ e ∈ c.store.entities ∧
      (AggregateStore.historyQuery ⟨settings⟩ space id).selects e = true ∧ e.key = k := by
  have hcollected (fuel : Nat) (found : List Entity)
      (hfound : (AggregateStore.collect fuel
        (AggregateStore.historyEntities ⟨settings⟩ caller id settings.pageSize) c).1 = .ok found) :
      ∀ e ∈ found, ∃ space, settings.resolver.current caller.tenant = .ok space ∧ e ∈ c.store.entities ∧
        (AggregateStore.historyQuery ⟨settings⟩ space id).selects e = true := by
    unfold AggregateStore.historyEntities at hfound
    have hfailing {e : StorageError}
        (h : (AggregateStore.collect fuel (.failing e) c).1 = .ok found) : found = [] := by
      cases fuel <;> cases h
      rfl
    split at hfound
    · exact hfailing hfound ▸ List.forall_mem_nil _
    · split at hfound
      · exact hfailing hfound ▸ List.forall_mem_nil _
      · next space hspace =>
        exact fun e he => ⟨space, hspace,
          AggregateStore.selects_of_mem_collect ⟨rfl, List.forall_mem_nil _⟩ hidle hfound e he⟩
  unfold doomed at h
  dsimp only at h
  rcases hr : (AggregateStore.collect _ _ c).1 with e | found <;> rw [hr] at h
  · cases h
  · cases h
    intro k hk
    obtain ⟨e, he, rfl⟩ := List.mem_map.mp hk
    obtain ⟨space, hspace, hmem, hselects⟩ :=
      hcollected _ found hr e (AggregateStore.mem_of_mem_afterSnapshot he)
    exact ⟨space, e, hspace, hmem, hselects, rfl⟩

variable (hvisible : ∀ space, settings.resolver.current caller.tenant = .ok space → visible space)

include hvisible

theorem Operation.visible_of_mem_historyWrites {id : ι} {records : List HistoryRecord}
    {ws : List Write} (h : historyWrites settings caller id records = .ok ws) :
    ∀ w ∈ ws, visible w.1.space := by
  obtain ⟨space, hspace, rfl⟩ := historyWrites_eq_ok h
  intro w hw
  obtain ⟨e, he, rfl⟩ := List.mem_map.mp hw
  obtain ⟨r, -, rfl⟩ := List.mem_map.mp he
  exact hvisible space hspace

theorem Operation.visible_of_mem_besideWrites {kind : Kind} {id : ι}
    {properties : List (String × NativeValue)} {ws : List Write}
    (h : besideWrites settings caller kind id properties = .ok ws) :
    ∀ w ∈ ws, visible w.1.space := by
  obtain ⟨space, hspace, rfl⟩ := besideWrites_eq_ok h
  intro w hw
  obtain rfl := List.mem_singleton.mp hw
  exact hvisible space hspace

/-- A truncation deletes nothing of other namespaces. -/
theorem Operation.visible_of_mem_doomed {id : ι} {index : Nat} {c : Connection}
    (hidle : c.slot.isActive = false) {keys : List Key}
    (h : doomed settings caller id index c = .ok keys) : ∀ k ∈ keys, visible k.space := by
  intro k hk
  obtain ⟨space, e, hspace, -, hselects, rfl⟩ := exists_of_mem_doomed hidle h k hk
  rw [EntityQuery.space_of_selects hselects]
  exact hvisible space hspace

/-- What an operation is to write is in its caller's namespace. -/
theorem Operation.visible_of_mem_writes {op : Operation ι} {c : Connection}
    (hidle : c.slot.isActive = false) {ws : List Write} (h : op.writes settings caller c = .ok ws) :
    ∀ w ∈ ws, visible w.1.space := by
  cases op with
  | read | readAll | indexMatching | scan | historyBackward | readHistory | readCount | readFlags
  | aggregates =>
    cases h
    exact List.forall_mem_nil _
  | write r =>
    obtain ⟨keys, hkeys, h⟩ := Outcome.bind_eq_ok h
    obtain ⟨e, he, h⟩ := Outcome.bind_eq_ok h
    cases h
    intro w hw
    obtain rfl := List.mem_singleton.mp hw
    dsimp only
    rw [Record.key_toEntity he]
    exact hvisible _ (HandleSettings.keysOf_eq_ok hkeys)
  | writeAll records =>
    rw [writes] at h
    split at h
    · cases h
      exact List.forall_mem_nil _
    · obtain ⟨keys, hkeys, h⟩ := Outcome.bind_eq_ok h
      obtain ⟨batch, hbatch, h⟩ := Outcome.bind_eq_ok h
      cases h
      intro w hw
      obtain ⟨e, he, rfl⟩ := List.mem_map.mp hw
      dsimp only
      rw [RecordStore.space_of_mem_entitiesOf hbatch e he]
      exact hvisible _ (HandleSettings.keysOf_eq_ok hkeys)
  | delete id =>
    obtain ⟨keys, hkeys, h⟩ := Outcome.bind_eq_ok h
    cases h
    intro w hw
    obtain rfl := List.mem_singleton.mp hw
    exact hvisible _ (HandleSettings.keysOf_eq_ok hkeys)
  | writeEntry id r => exact visible_of_mem_historyWrites hvisible h
  | writeHistory id history =>
    rw [writes] at h
    split at h
    · cases h
      exact List.forall_mem_nil _
    · exact visible_of_mem_historyWrites hvisible h
  | truncate id index =>
    obtain ⟨keys, hkeys, h⟩ := Outcome.bind_eq_ok h
    cases h
    intro w hw
    obtain ⟨k, hk, rfl⟩ := List.mem_map.mp hw
    exact visible_of_mem_doomed hvisible hidle hkeys k hk
  | writeCount id count => exact visible_of_mem_besideWrites hvisible h
  | writeFlags id flags => exact visible_of_mem_besideWrites hvisible h

end Plans

end DocumentStore
