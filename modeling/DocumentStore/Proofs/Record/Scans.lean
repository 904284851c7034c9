import DocumentStore.Proofs.Access.Streams
import DocumentStore.Proofs.Predicate.Meaning
import DocumentStore.Proofs.Record.Written
set_option autoImplicit false

/-!
# What scans find

A scan asks one query for each filter of its predicate.  Without an order and a limit it gives the
results of these queries one after another, an entity that several of them find only once.  Since
keys tell entities apart, and are there even if nothing else was asked for, the scan for identifiers
finds the same as the scan for records.
-/

namespace DocumentStore

/-! ## Repetitions left out -/

namespace Sieve

/-- Leaving repetitions out looks at keys only. -/
theorem sift_project (keysOnly : Bool) (seen : List Mark) (found : List Entity) :
    byKey.sift seen (Store.project keysOnly found) =
      Store.project keysOnly (byKey.sift seen found) := by
  cases keysOnly with
  | false => rfl
  | true =>
    show byKey.sift seen (found.map (·.keyOnly)) = (byKey.sift seen found).map (·.keyOnly)
    induction found generalizing seen with
    | nil => rfl
    | cons e rest ih =>
      have hmark : byKey.mark? e.keyOnly = byKey.mark? e := rfl
      rw [List.map_cons, sift, sift, hmark]
      simp only [mark?]
      split
      · exact ih seen
      · rw [ih, List.map_cons]

/-- What is left has no key that was seen before, and no key twice. -/
theorem nodup_keys_sift (seen : List Mark) (found : List Entity) :
    (∀ e ∈ byKey.sift seen found, Mark.key e.key ∉ seen) ∧
      ((byKey.sift seen found).map (·.key)).Nodup := by
  obtain ⟨hunseen, hpairwise⟩ := byKey.pairwise_sift seen found
  refine ⟨fun e he hseen => hunseen e he _ hseen rfl, ?_⟩
  exact List.pairwise_map.mpr (hpairwise.imp fun hne hkey => hne (congrArg (some ∘ Mark.key) hkey))

/-- Nothing new is left out, if keys tell the entities apart. -/
theorem mem_sift {seen : List Mark} {found : List Entity}
    (hkeys : ∀ a ∈ found, ∀ b ∈ found, a.key = b.key → a = b) {e : Entity} :
    e ∈ byKey.sift seen found ↔ e ∈ found ∧ Mark.key e.key ∉ seen := by
  have hsub := byKey.sift_sublist seen found
  constructor
  · exact fun he => ⟨hsub.subset he, (nodup_keys_sift seen found).1 e he⟩
  · rintro ⟨hmem, hfresh⟩
    obtain ⟨e', he', hmark⟩ : ∃ e' ∈ byKey.sift seen found, byKey.mark? e' = some (.key e.key) :=
      exists_mem_sift.mpr ⟨hfresh, e, hmem, rfl⟩
    have hkey : e'.key = e.key := Mark.key.inj (Option.some.inj hmark)
    rwa [← hkeys e' (hsub.subset he') e hmem hkey]

end Sieve

theorem Store.project_flatMap {α : Type} (keysOnly : Bool) (f : α → List Entity) (l : List α) :
    l.flatMap (fun a => Store.project keysOnly (f a)) = Store.project keysOnly (l.flatMap f) := by
  induction l with
  | nil => exact (Store.project_nil keysOnly).symm
  | cons a rest ih => rw [List.flatMap_cons, List.flatMap_cons, ih, Store.project_append]

namespace RecordStore

variable {ι : Type}

/-! ## What the queries find together -/

section Scan

variable (s : RecordStore ι) (space : Namespace) (store : Store)

/-- The results of the query for one filter, or for none. -/
def resultsOf (filter : Option ConjunctiveFilter) : List Entity :=
  store.results (s.scanQuery space [] none false filter)

/-- What a scan without an order and a limit finds. -/
def scanned (filters : List ConjunctiveFilter) : List Entity :=
  match filters with
  | [] => s.resultsOf space store none
  | [f] => s.resultsOf space store (some f)
  | fs => Sieve.byKey.sift [] (fs.flatMap fun f => s.resultsOf space store (some f))

variable {s space store}

theorem mem_resultsOf {filter : Option ConjunctiveFilter} {e : Entity} :
    e ∈ s.resultsOf space store filter ↔ e ∈ store.entities ∧
      (e.key.space = space ∧ e.key.kind = s.settings.kind) ∧ filter.all (·.holds e) = true := by
  show e ∈ store.entities.filter (s.scanQuery space [] none false filter).selects ↔ _
  rw [List.mem_filter]
  simp only [scanQuery, EntityQuery.selects, Bool.and_eq_true, beq_iff_eq]

theorem mem_scanned {filters : List ConjunctiveFilter} {e : Entity} :
    e ∈ s.scanned space store filters ↔ e ∈ store.entities ∧
      (e.key.space = space ∧ e.key.kind = s.settings.kind) ∧
      (filters = [] ∨ filters.any (·.holds e) = true) := by
  match filters with
  | [] =>
    rw [scanned, mem_resultsOf]
    simp
  | [f] =>
    rw [scanned, mem_resultsOf]
    simp
  | f :: g :: rest =>
    have hentities : ∀ a ∈ (f :: g :: rest).flatMap fun f => s.resultsOf space store (some f),
        a ∈ store.entities := by
      intro a ha
      obtain ⟨f, -, ha⟩ := List.mem_flatMap.mp ha
      exact (mem_resultsOf.mp ha).1
    have hkeys : ∀ a ∈ (f :: g :: rest).flatMap fun f => s.resultsOf space store (some f),
        ∀ b ∈ (f :: g :: rest).flatMap fun f => s.resultsOf space store (some f),
        a.key = b.key → a = b :=
      fun a ha b hb => Store.eq_of_key_eq (hentities a ha) (hentities b hb)
    show e ∈ Sieve.byKey.sift [] _ ↔ _
    rw [Sieve.mem_sift hkeys, List.mem_flatMap]
    simp only [mem_resultsOf, Option.all_some, List.any_eq_true]
    constructor
    · rintro ⟨⟨f, hf, hmem, hplace, hholds⟩, -⟩
      exact ⟨hmem, hplace, .inr ⟨f, hf, hholds⟩⟩
    · rintro ⟨hmem, hplace, hnil | ⟨f, hf, hholds⟩⟩
      · cases hnil
      · exact ⟨⟨f, hf, hmem, hplace, hholds⟩, List.not_mem_nil⟩

theorem nodup_keys_scanned (filters : List ConjunctiveFilter) :
    ((s.scanned space store filters).map (·.key)).Nodup := by
  have hone : ∀ filter, ((s.resultsOf space store filter).map (·.key)).Nodup := by
    intro filter
    have hsub : (s.resultsOf space store filter).Sublist store.entities := List.filter_sublist
    exact (hsub.map (·.key)).nodup store.nodup_keys_entities
  match filters with
  | [] => exact hone none
  | [f] => exact hone (some f)
  | f :: g :: rest => exact (Sieve.nodup_keys_sift [] _).2

variable (space store) in
/-- The walks of a scan have the results of their queries to give. -/
theorem pendingAll_walks (filters : List ConjunctiveFilter) (keysOnly : Bool) :
    EntityStream.PendingAll store
      (filters.map fun f => Walk.start s.settings.policy
        (s.scanQuery space [] none keysOnly (some f)) s.settings.pageSize)
      (filters.flatMap fun f => Store.project keysOnly (s.resultsOf space store (some f))) := by
  induction filters with
  | nil => rfl
  | cons f rest ih =>
    exact ⟨_, _, Walk.pending_start store s.settings.policy s.settings.pageSize rfl, ih, rfl⟩

/-- A scan has to give what its queries find together, or the keys of that. -/
theorem scan_pending (filters : List ConjunctiveFilter) (keysOnly : Bool) :
    (s.scan space filters [] none keysOnly).Pending store
      (Store.project keysOnly (s.scanned space store filters)) := by
  match filters with
  | [] => exact .walk (Walk.pending_start store s.settings.policy s.settings.pageSize rfl)
  | [f] => exact .walk (Walk.pending_start store s.settings.policy s.settings.pageSize rfl)
  | f :: g :: rest =>
    have hwalks := pendingAll_walks (s := s) space store (f :: g :: rest) keysOnly
    have hsifted := EntityStream.Pending.sifted .byKey [] hwalks
    rw [Store.project_flatMap, Sieve.sift_project] at hsifted
    exact hsifted

end Scan

/-! ## Scans give each matching record once -/

/-- The documents of a namespace and kind that a predicate is true of; all of them if it is empty. -/
def matching (s : RecordStore ι) (space : Namespace) (store : Store) (p : Predicate) :
    List Entity :=
  store.entities.filter fun e => e.key.space == space && e.key.kind == s.settings.kind &&
    (p.isEmpty || p.eval (·.holds s.settings.mapping e))

/-- A scan for the filters of a predicate finds what the predicate is true of. -/
theorem scanned_perm_matching {s : RecordStore ι} {p : Predicate} {filters : List ConjunctiveFilter}
    (h : p.compile s.settings.mapping = .ok filters) (space : Namespace) (store : Store) :
    (s.scanned space store filters).Perm (s.matching space store p) := by
  have hselects : ∀ e, (filters = [] ∨ filters.any (·.holds e) = true) ↔
      (p.isEmpty || p.eval (·.holds s.settings.mapping e)) = true := by
    intro e
    cases hempty : p.isEmpty with
    | true =>
      rw [Predicate.compile_empty _ hempty] at h
      obtain rfl := Except.ok.inj h
      simp
    | false =>
      rw [Predicate.any_compile hempty h]
      simp [Predicate.compile_ne_nil hempty h]
  have hscanned : (s.scanned space store filters).Nodup :=
    Entity.nodup_of_keys (nodup_keys_scanned filters)
  have hmatching : (s.matching space store p).Nodup :=
    (Entity.nodup_of_keys store.nodup_keys_entities).filter _
  rw [List.perm_ext_iff_of_nodup hscanned hmatching]
  intro e
  rw [mem_scanned, matching, List.mem_filter, hselects e]
  simp only [Bool.and_eq_true, beq_iff_eq]

variable [RecordId ι]

/-- Entities that hold records can be read, with identifiers that their keys are those of. -/
theorem exists_records [LawfulRecordId ι] {keys : KeyFactory} {found : List Entity}
    (h : ∀ e ∈ found, e.HoldsRecord ι keys) :
    ∃ records : List (Record ι), found.map Record.ofEntity = records.map .ok ∧
      found.map (fun e => RecordId.ofName e.key.name) = records.map (.ok ·.id) ∧
      found.map (·.key) = records.map fun r => keys.key r.id := by
  induction found with
  | nil => exact ⟨[], rfl, rfl, rfl⟩
  | cons e rest ih =>
    obtain ⟨records, hread, hnames, hkeys⟩ := ih fun e he => h e (List.mem_cons_of_mem _ he)
    obtain ⟨mapping, r, hr⟩ := h e (List.mem_cons_self ..)
    obtain ⟨r', hr', hid⟩ := Record.ofEntity_toEntity hr
    have hkey : e.key = keys.key r'.id := by rw [Record.key_toEntity hr, hid]
    have hname : RecordId.ofName e.key.name = Except.ok r'.id := by
      rw [hkey]
      exact LawfulRecordId.ofName_toName r'.id
    refine ⟨r' :: records, ?_, ?_, ?_⟩
    · rw [List.map_cons, List.map_cons, hr', hread]
    · rw [List.map_cons, List.map_cons, hname, hnames]
    · rw [List.map_cons, List.map_cons, hkey, hkeys]

/-- Without identifiers, an order and a limit, a scan for a predicate gives a record for each document
of the namespace and kind that the predicate is true of, each once and nothing else, and the scan for
identifiers gives those of the same records in the same order.  This holds for every size of the
pages, under either policy, and however the filters of the predicate overlap. -/
theorem scans_agree [LawfulRecordId ι] (s : RecordStore ι) (caller : Caller) (p : Predicate)
    (context : Context) (space : Namespace) (filters : List ConjunctiveFilter)
    (hspace : s.settings.resolver.current caller.tenant = .ok space)
    (hfilters : p.compile s.settings.mapping = .ok filters)
    (hserves : Connection.Serves context.connection.store context.connection)
    (hsize : context.connection.store.WellSized)
    (hrecords : RecordsOnly ι ⟨space, s.settings.kind⟩ context.connection.store.documents) :
    ∃ (stream : ItemStream (Record ι)) (context' : Context) (records : List (Record ι)),
      s.readAllRecords caller ⟨p, none, [], none⟩ context = (.ok stream, context') ∧
      (stream.drain context'.connection).1 = ⟨records.map .ok, true⟩ ∧
      ((s.indexMatching caller p).drain context.connection).1 = ⟨records.map (.ok ·.id), true⟩ ∧
      (records.map Except.ok).Perm
        ((s.matching space context.connection.store p).map Record.ofEntity) ∧
      (records.map (·.id)).Nodup := by
  have htarget : s.scanTarget caller p = .ok (space, filters) := by
    rw [scanTarget, hspace, Outcome.ok_bind, hfilters]
    rfl
  have hholds : ∀ e ∈ s.scanned space context.connection.store filters,
      e.HoldsRecord ι ⟨space, s.settings.kind⟩ := by
    intro e he
    obtain ⟨hmem, ⟨hspace, hkind⟩, -⟩ := mem_scanned.mp he
    exact hrecords e (Store.mem_entities.mp hmem) hspace hkind
  obtain ⟨records, hread, hnames, hkeys⟩ := exists_records hholds
  refine ⟨⟨s.scan space filters [] none false, Record.ofEntity⟩, context, records, ?_, ?_, ?_, ?_, ?_⟩
  · rw [readAllRecords, htarget]
    rfl
  · have hdrain := ItemStream.drain_of_pending (s := (⟨s.scan space filters [] none false,
      Record.ofEntity⟩ : ItemStream (Record ι))) hsize (scan_pending filters false) hserves
    rw [hdrain]
    exact congrArg (Drained.mk · true) hread
  · rw [indexMatching, htarget]
    have hdrain := ItemStream.drain_of_pending (s := (⟨s.scan space filters [] none true,
      fun e => RecordId.ofName e.key.name⟩ : ItemStream ι)) hsize (scan_pending filters true) hserves
    rw [hdrain, ← hnames]
    simp only [Store.project, if_true, List.map_map]
    rfl
  · rw [← hread]
    exact (scanned_perm_matching hfilters space _).map _
  · have hnodup : ((s.scanned space context.connection.store filters).map (·.key)).Nodup :=
      nodup_keys_scanned filters
    rw [hkeys] at hnodup
    refine List.pairwise_map.mpr ((List.pairwise_map.mp hnodup).imp ?_)
    intro a b hne heq
    exact hne (congrArg _ heq)

/-- A deployment on an empty store that takes two writes at a time and answers with pages of two. -/
def smallDeployment : Deployment :=
  { settings := { StorageSettings.standard with transactional := true, pageSize := 1 }
    resolver := .single ⟨""⟩, mapping := .builtin, store := .empty ⟨2, 2⟩ 2, metrics := .zero
    closed := false, index := .empty, keys := .empty, slots := [] }

/-- A handle on parcels that asks for one entity at a time. -/
def parcelHandle : Handle :=
  { settings :=
      { kind := ⟨"parcel"⟩, policy := ⟨⟨2, 2⟩, true⟩, pageSize := 1, resolver := .single ⟨""⟩
        mapping := .builtin }
    slot := 0 }

/-- Parcels "a" to "d" of weights 1 to 4 are written in two operations, "c" again and "b" deleted. -/
def parcelSteps : List (Deployment.Step String) :=
  let parcel (id : String) (weight : Int) : Record String :=
    ⟨id, [], .ofList [("weight", .int64 weight)]⟩
  [.openHandle ⟨"parcel"⟩,
    .operate parcelHandle default (.writeAll [parcel "d" 4, parcel "b" 2, parcel "a" 1]),
    .operate parcelHandle default (.write (parcel "c" 9)), .begin parcelHandle,
    .operate parcelHandle default (.write (parcel "c" 3)),
    .operate parcelHandle default (.delete "b"), .commit parcelHandle]

/-- "weight ≤ 3 or weight ≥ 1 or weight = 4", whose filters overlap. -/
def overlappingWeights : Predicate :=
  .node .or [⟨"weight", .lessOrEqual, .int64 3⟩, ⟨"weight", .greaterOrEqual, .int64 1⟩,
    ⟨"weight", .equal, .int64 4⟩] []

theorem scans_agree_overlapping :
    ∃ (stream : ItemStream (Record String)) (context' : Context) (records : List (Record String)),
      (RecordStore.mk parcelHandle.settings).readAllRecords default
          ⟨overlappingWeights, none, [], none⟩
          ((Deployment.run parcelSteps smallDeployment).context parcelHandle) =
        (.ok stream, context') ∧
      (stream.drain context'.connection).1 = ⟨records.map .ok, true⟩ ∧
      (((RecordStore.mk parcelHandle.settings).indexMatching default overlappingWeights).drain
          ((Deployment.run parcelSteps smallDeployment).connection parcelHandle)).1 =
        ⟨records.map (.ok ·.id), true⟩ ∧
      records.length = 3 ∧ (records.map (·.id)).Nodup := by
  have hserves : Connection.Serves
      ((Deployment.run parcelSteps smallDeployment).context parcelHandle).connection.store
      ((Deployment.run parcelSteps smallDeployment).context parcelHandle).connection := by
    refine ⟨.refl (by decide +kernel), by decide +kernel, fun t ht => ?_⟩
    have hslot : ((Deployment.run parcelSteps smallDeployment).context parcelHandle).connection.slot =
        .committed := by
      decide +kernel
    rw [hslot] at ht
    cases ht
  have hrecords : RecordsOnly String ⟨⟨""⟩, ⟨"parcel"⟩⟩
      (Deployment.run parcelSteps smallDeployment).store.documents := by
    refine recordsOnly_run rfl rfl fun step hstep => ?_
    simp only [parcelSteps, List.mem_cons, List.not_mem_nil, or_false] at hstep
    rcases hstep with rfl | rfl | rfl | rfl | rfl | rfl | rfl <;> exact trivial
  obtain ⟨stream, context', records, hscan, hdrain, hindex, hperm, hnodup⟩ :=
    scans_agree (RecordStore.mk parcelHandle.settings) default overlappingWeights
      ((Deployment.run parcelSteps smallDeployment).context parcelHandle) ⟨""⟩ _ rfl rfl hserves
      ⟨by decide +kernel, by decide +kernel⟩ hrecords
  have hlength := hperm.length_eq
  rw [List.length_map, List.length_map] at hlength
  exact ⟨stream, context', records, hscan, hdrain, hindex, hlength.trans (by decide +kernel), hnodup⟩

end RecordStore

end DocumentStore
