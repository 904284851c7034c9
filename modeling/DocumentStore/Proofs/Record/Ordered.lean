import DocumentStore.Proofs.Document.Order
import DocumentStore.Proofs.Record.Scans
import DocumentStore.Proofs.Sorted.Foremost
import Mathlib.Data.List.Nodup
set_option autoImplicit false

/-!
# Scans in an order and up to a limit

A scan with an order or a limit gives the foremost of the records that its predicate is true of.  The
query for each filter is cut to the limit by itself, before the results are put together, sorted and
cut again; nothing is lost by that, however the filters overlap.
-/

namespace DocumentStore

/-! ## Sorting and cutting -/

theorem Store.cut_eq_take (limit : Option Nat) {found : List Entity} {size : Nat}
    (h : found.length ≤ size) : Store.cut limit found = found.take (limit.getD size) := by
  cases limit with
  | none => exact (List.take_of_length_le h).symm
  | some n => rfl

theorem arrange_eq_cut (order : List SortKey) (limit : Option Nat) (found : List Entity) :
    arrange order limit found =
      Store.cut limit (Sorted.stable (SortKey.compareAll order) found) := by
  cases order with
  | nil =>
    rw [stable_compareAll_nil]
    rfl
  | cons k rest => rfl

namespace RecordStore

variable {ι : Type}

/-! ## What the queries find together -/

section Scan

variable (s : RecordStore ι) (space : Namespace) (store : Store) (order : List SortKey)
  (limit : Option Nat)

/-- The foremost results of the query for one filter, or for none. -/
def foremostOf (filter : Option ConjunctiveFilter) : List Entity :=
  Store.cut limit (Sorted.stable (SortKey.compareAll order) (s.resultsOf space store filter))

/-- What a scan finds. -/
def ranked (filters : List ConjunctiveFilter) : List Entity :=
  match filters with
  | [] => s.foremostOf space store order limit none
  | [f] => s.foremostOf space store order limit (some f)
  | fs => arrange order limit
      (Sieve.byKey.sift [] (fs.flatMap fun f => s.foremostOf space store order limit (some f)))

theorem pending_walk (filter : Option ConjunctiveFilter) :
    (Walk.start s.settings.policy (s.scanQuery space order limit false filter)
      s.settings.pageSize).Pending store (s.foremostOf space store order limit filter) := by
  have hpending := Walk.pending_start store s.settings.policy s.settings.pageSize
    (q := s.scanQuery space order limit false filter) rfl
  rw [Store.results_eq_stable] at hpending
  exact hpending

theorem pendingAll_ranked (filters : List ConjunctiveFilter) :
    EntityStream.PendingAll store
      (filters.map fun f => Walk.start s.settings.policy
        (s.scanQuery space order limit false (some f)) s.settings.pageSize)
      (filters.flatMap fun f => s.foremostOf space store order limit (some f)) := by
  induction filters with
  | nil => rfl
  | cons f rest ih => exact ⟨_, _, pending_walk s space store order limit (some f), ih, rfl⟩

/-- Whether the walks are joined lazily or collected first, what comes out is the same. -/
theorem scan_pending_ranked (filters : List ConjunctiveFilter) :
    (s.scan space filters order limit false).Pending store
      (s.ranked space store order limit filters) := by
  match filters with
  | [] => exact .walk (pending_walk s space store order limit none)
  | [f] => exact .walk (pending_walk s space store order limit (some f))
  | f :: g :: rest =>
    have hwalks := pendingAll_ranked s space store order limit (f :: g :: rest)
    unfold scan ranked
    dsimp only
    split
    · next hplain =>
      obtain ⟨horder, hlimit⟩ := Bool.and_eq_true_iff.mp hplain
      rw [List.isEmpty_iff] at horder
      rw [Option.isNone_iff_eq_none] at hlimit
      subst horder hlimit
      exact .sifted .byKey [] hwalks
    · exact .merged order limit hwalks

variable {s space store}

theorem nodup_resultsOf (filter : Option ConjunctiveFilter) :
    (s.resultsOf space store filter).Nodup :=
  (Entity.nodup_of_keys store.nodup_keys_entities).filter _

theorem mem_foremostOf {filter : Option ConjunctiveFilter} {e : Entity}
    (h : e ∈ s.foremostOf space store order limit filter) : e ∈ s.resultsOf space store filter := by
  rw [foremostOf, Store.cut_eq_take limit (Nat.le_refl _)] at h
  exact (Sorted.stable_perm ..).mem_iff.mp (List.mem_of_mem_take h)

variable {order limit} in
theorem foremostOf_foremost {filter : Option ConjunctiveFilter} {size : Nat}
    (hsize : (s.resultsOf space store filter).length ≤ size)
    (htrans : Sorted.TransAmong (SortKey.compareAll order) (s.resultsOf space store filter)) :
    Sorted.Foremost (SortKey.compareAll order) (limit.getD size)
      (s.resultsOf space store filter) (s.foremostOf space store order limit filter) := by
  have hsorted : (Sorted.stable (SortKey.compareAll order)
      (s.resultsOf space store filter)).length ≤ size := by rwa [Sorted.length_stable]
  rw [foremostOf, Store.cut_eq_take limit hsorted]
  exact .stable (nodup_resultsOf filter) htrans _

theorem resultsOf_subset_scanned {filters : List ConjunctiveFilter} {f : ConjunctiveFilter}
    (hf : f ∈ filters) :
    s.resultsOf space store (some f) ⊆ s.scanned space store filters := by
  intro e he
  obtain ⟨hmem, hplace, hholds⟩ := mem_resultsOf.mp he
  exact mem_scanned.mpr ⟨hmem, hplace, .inr (List.any_eq_true.mpr ⟨f, hf, hholds⟩)⟩

/-- What the queries find together, each entity once, before it is sorted and cut. -/
theorem mem_sift_foremostOf {filters : List ConjunctiveFilter} {e : Entity} :
    e ∈ Sieve.byKey.sift []
        (filters.flatMap fun f => s.foremostOf space store order limit (some f)) ↔
      ∃ f ∈ filters, e ∈ s.foremostOf space store order limit (some f) := by
  have hentities : ∀ a ∈ filters.flatMap fun f => s.foremostOf space store order limit (some f),
      a ∈ store.entities := by
    intro a ha
    obtain ⟨f, -, ha⟩ := List.mem_flatMap.mp ha
    exact (mem_resultsOf.mp (mem_foremostOf order limit ha)).1
  rw [Sieve.mem_sift fun a ha b hb => Store.eq_of_key_eq (hentities a ha) (hentities b hb),
    List.mem_flatMap]
  exact and_iff_left List.not_mem_nil

variable {order limit}

/-- Results of several queries, each cut to the limit, put together, sorted and cut again. -/
theorem merged_foremost {filters : List ConjunctiveFilter} (hfilters : filters ≠ [])
    (htrans : Sorted.TransAmong (SortKey.compareAll order) (s.scanned space store filters)) :
    Sorted.Foremost (SortKey.compareAll order)
      (limit.getD (s.scanned space store filters).length) (s.scanned space store filters)
      (arrange order limit (Sieve.byKey.sift []
        (filters.flatMap fun f => s.foremostOf space store order limit (some f)))) := by
  generalize hfound : Sieve.byKey.sift []
    (filters.flatMap fun f => s.foremostOf space store order limit (some f)) = found
  have hmem {e : Entity} :
      e ∈ found ↔ ∃ f ∈ filters, e ∈ s.foremostOf space store order limit (some f) := by
    rw [← hfound]
    exact mem_sift_foremostOf order limit
  have hnodup : found.Nodup := by
    rw [← hfound]
    exact Entity.nodup_of_keys (Sieve.nodup_keys_sift [] _).2
  have hsub : found ⊆ s.scanned space store filters := by
    intro e he
    obtain ⟨f, hf, he⟩ := hmem.mp he
    exact resultsOf_subset_scanned hf (mem_foremostOf order limit he)
  have hsorted : (Sorted.stable (SortKey.compareAll order) found).length ≤
      (s.scanned space store filters).length := by
    rw [Sorted.length_stable]
    exact (hnodup.subperm hsub).length_le
  rw [arrange_eq_cut, Store.cut_eq_take limit hsorted]
  refine Sorted.Foremost.of_parts (filters.map fun f => s.resultsOf space store (some f))
    (.stable hnodup (htrans.mono hsub) _) hnodup hsub ?_ ?_
    (Entity.nodup_of_keys (nodup_keys_scanned filters)) htrans
  · intro part hpart
    obtain ⟨f, hf, rfl⟩ := List.mem_map.mp hpart
    have hresults : s.resultsOf space store (some f) ⊆ s.scanned space store filters :=
      resultsOf_subset_scanned hf
    exact ⟨_, foremostOf_foremost ((nodup_resultsOf _).subperm hresults).length_le
      (htrans.mono hresults), fun e he => hmem.mpr ⟨f, hf, he⟩⟩
  · intro e he
    obtain ⟨hstored, hplace, hholds⟩ := mem_scanned.mp he
    obtain ⟨f, hf, hfe⟩ := List.any_eq_true.mp (hholds.resolve_left hfilters)
    exact ⟨_, List.mem_map_of_mem hf, mem_resultsOf.mpr ⟨hstored, hplace, hfe⟩,
      resultsOf_subset_scanned hf⟩

/-- A scan finds the foremost of what the filters hold of. -/
theorem ranked_foremost (filters : List ConjunctiveFilter)
    (htrans : Sorted.TransAmong (SortKey.compareAll order) (s.scanned space store filters)) :
    Sorted.Foremost (SortKey.compareAll order)
      (limit.getD (s.scanned space store filters).length) (s.scanned space store filters)
      (s.ranked space store order limit filters) := by
  match filters with
  | [] => exact foremostOf_foremost (Nat.le_refl _) htrans
  | [f] => exact foremostOf_foremost (Nat.le_refl _) htrans
  | f :: g :: rest => exact merged_foremost (List.cons_ne_nil f _) htrans

end Scan

/-! ## Scans give the foremost matching records -/

variable [RecordId ι]

/-- Without identifiers, a scan for a predicate in an order and up to a limit gives the foremost of
the documents of the namespace and kind that the predicate is true of, each once: in ascending order,
as many as the limit allows, and none that is left out comes before one that is given.  All that is
needed of the order is that it is transitive among these documents.  This holds for every size of the
pages, under either policy, and however the filters of the predicate overlap.  If the documents are
records then these can be read and have different identifiers. -/
theorem readAllRecords_foremost [LawfulRecordId ι] (s : RecordStore ι) (caller : Caller)
    (p : Predicate) (order : List SortKey) (limit : Option Nat) (context : Context)
    (space : Namespace) (filters : List ConjunctiveFilter)
    (hspace : s.settings.resolver.current caller.tenant = .ok space)
    (hfilters : p.compile s.settings.mapping = .ok filters)
    (hserves : Connection.Serves context.connection.store context.connection)
    (hsize : context.connection.store.WellSized)
    (horder : Sorted.TransAmong (SortKey.compareAll order)
      (s.matching space context.connection.store p)) :
    ∃ (stream : ItemStream (Record ι)) (context' : Context) (chosen : List Entity),
      s.readAllRecords caller ⟨p, none, order, limit⟩ context = (.ok stream, context') ∧
      (stream.drain context'.connection).1 = ⟨chosen.map Record.ofEntity, true⟩ ∧
      Sorted.Foremost (SortKey.compareAll order)
        (limit.getD (s.matching space context.connection.store p).length)
        (s.matching space context.connection.store p) chosen ∧
      (RecordsOnly ι ⟨space, s.settings.kind⟩ context.connection.store.documents →
        ∃ records : List (Record ι), chosen.map Record.ofEntity = records.map .ok ∧
          (records.map (·.id)).Nodup) := by
  have htarget : s.scanTarget caller p = .ok (space, filters) := by
    rw [scanTarget, hspace, Outcome.ok_bind, hfilters]
    rfl
  have hperm := scanned_perm_matching hfilters space context.connection.store
  have hforemost : Sorted.Foremost (SortKey.compareAll order)
      (limit.getD (s.matching space context.connection.store p).length)
      (s.matching space context.connection.store p)
      (s.ranked space context.connection.store order limit filters) := by
    rw [← hperm.length_eq]
    exact (ranked_foremost filters (horder.mono hperm.subset)).of_perm hperm
  refine ⟨⟨s.scan space filters order limit false, Record.ofEntity⟩, context,
    s.ranked space context.connection.store order limit filters, ?_, ?_, hforemost, ?_⟩
  · rw [readAllRecords, htarget]
    rfl
  · exact ItemStream.drain_of_pending (s := (⟨s.scan space filters order limit false,
      Record.ofEntity⟩ : ItemStream (Record ι))) hsize
      (scan_pending_ranked s space _ order limit filters) hserves
  · intro hrecords
    have hstored : ∀ e ∈ s.ranked space context.connection.store order limit filters,
        e ∈ context.connection.store.entities ∧ e.key.space = space ∧ e.key.kind = s.settings.kind := by
      intro e he
      obtain ⟨hmem, hplace, -⟩ := mem_scanned.mp (hperm.mem_iff.mpr (hforemost.subset he))
      exact ⟨hmem, hplace⟩
    obtain ⟨records, hread, -, hkeys⟩ := exists_records fun e he =>
      hrecords e (Store.mem_entities.mp (hstored e he).1) (hstored e he).2.1 (hstored e he).2.2
    refine ⟨records, hread, ?_⟩
    have hnodup : ((s.ranked space context.connection.store order limit filters).map (·.key)).Nodup :=
      List.Nodup.map_on (fun a ha b hb hkey =>
        Store.eq_of_key_eq (hstored a ha).1 (hstored b hb).1 hkey) hforemost.nodup
    rw [hkeys] at hnodup
    exact .of_map (KeyFactory.key ⟨space, s.settings.kind⟩) (by rwa [List.map_map])

/-- Parcels from the heaviest on. -/
def heaviestFirst : List SortKey := [⟨"weight", .descending⟩]

theorem parcels_serve :
    Connection.Serves ((Deployment.run parcelSteps smallDeployment).context parcelHandle).connection.store
      ((Deployment.run parcelSteps smallDeployment).context parcelHandle).connection := by
  have hslot : ((Deployment.run parcelSteps smallDeployment).context parcelHandle).connection.slot =
      .committed := by
    decide +kernel
  refine ⟨.refl (by decide +kernel), by decide +kernel, fun t ht => ?_⟩
  rw [hslot] at ht
  cases ht

theorem parcels_recordsOnly :
    RecordsOnly String ⟨⟨""⟩, ⟨"parcel"⟩⟩
      (Deployment.run parcelSteps smallDeployment).store.documents := by
  refine recordsOnly_run rfl rfl fun step hstep => ?_
  simp only [parcelSteps, List.mem_cons, List.not_mem_nil, or_false] at hstep
  rcases hstep with rfl | rfl | rfl | rfl | rfl | rfl | rfl <;> exact trivial

theorem readAllRecords_foremost_overlapping :
    ∃ (stream : ItemStream (Record String)) (context' : Context) (chosen : List Entity),
      (RecordStore.mk parcelHandle.settings).readAllRecords default
          ⟨overlappingWeights, none, heaviestFirst, some 2⟩
          ((Deployment.run parcelSteps smallDeployment).context parcelHandle) =
        (.ok stream, context') ∧
      (stream.drain context'.connection).1 = ⟨chosen.map Record.ofEntity, true⟩ ∧
      chosen.length = 2 ∧ chosen.Pairwise (fun a b => (SortKey.compareAll heaviestFirst a b).isLE) ∧
      ∃ records : List (Record String), chosen.map Record.ofEntity = records.map .ok ∧
        (records.map (·.id)).Nodup := by
  have horder : Sorted.TransAmong (SortKey.compareAll heaviestFirst)
      ((RecordStore.mk (ι := String) parcelHandle.settings).matching ⟨""⟩
        ((Deployment.run parcelSteps smallDeployment).context parcelHandle).connection.store
        overlappingWeights) := by
    decide +kernel
  obtain ⟨stream, context', chosen, hscan, hdrain, hforemost, hrecords⟩ :=
    readAllRecords_foremost (RecordStore.mk parcelHandle.settings) default overlappingWeights
      heaviestFirst (some 2) ((Deployment.run parcelSteps smallDeployment).context parcelHandle) ⟨""⟩ _
      rfl rfl parcels_serve ⟨by decide +kernel, by decide +kernel⟩ horder
  exact ⟨stream, context', chosen, hscan, hdrain, hforemost.length.trans (by decide +kernel),
    hforemost.ascending, hrecords parcels_recordsOnly⟩

end RecordStore

end DocumentStore
