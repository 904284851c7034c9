import DocumentStore.Proofs.Access.Chunks
import DocumentStore.Proofs.Record.Maps
import DocumentStore.Proofs.Record.Ordered
set_option autoImplicit false

/-!
# Records of given identifiers

With identifiers a query looks their keys up and filters what is there; without them it scans.  Both
find the same records, but the look-up has an answer for every identifier of the list: a record whose
identifier is repeated is given as often.  The two agree, on the records of the list each once, exactly
if no record that the scan gives is asked for twice.
-/

namespace DocumentStore

/-! ## Look-ups outside explicit transactions -/

/-- How many keys the largest call carries for a look-up of so many. -/
def Policy.largestLookup (policy : Policy) (count : Nat) : Nat :=
  min (max policy.limits.read 1) count

namespace Session

/-- Whether the calls go to the store, or to a transaction that has nothing staged. -/
def Unstaged (s : Session) : Prop := ∀ t, s.transaction = some t → t = ⟨∅, false⟩

/-- A look-up of no more keys than a call may carry finds what the store has. -/
theorem call_lookup_unstaged {store : Store} {keys : List Key} (hroom : keys.length ≤ store.limits.read)
    {s : Session} (hcalm : Store.Calm store s.store) (hunstaged : s.Unstaged) :
    ∃ s', call .lookup (Store.lookup keys) (Staging.lookup keys) s =
        (.ok (keys.map store.find?), s') ∧
      Store.Calm store s'.store ∧ s'.transaction = s.transaction := by
  have hlimit : ∀ limit, s.store.itemLimit? .lookup = some limit → keys.length ≤ limit := by
    rintro limit ⟨⟩
    rw [hcalm.limits]
    exact hroom
  rcases Store.admission_of_room hlimit with ⟨message, hmem, -⟩ | ⟨after, hadmission, hkept, hleft⟩
  · rw [hcalm.failures] at hmem
    cases hmem
  · have hdocuments : after.documents = store.documents :=
      hleft.sameData.documents.trans hcalm.documents
    have hfind : after.find? = store.find? := Store.find?_congr hdocuments
    have hcalm' : Store.Calm store after :=
      ⟨hdocuments, hleft.sameData.limits.trans hcalm.limits,
        hleft.sameData.pageLimit.trans hcalm.pageLimit, hkept.trans hcalm.failures⟩
    rw [call]
    cases ht : s.transaction with
    | none =>
      dsimp only
      rw [Store.lookup_eq, Action.bind_ok hadmission, Action.gets, hfind]
      exact ⟨_, rfl, hcalm', ht.symm ▸ rfl⟩
    | some t =>
      obtain rfl := hunstaged t ht
      dsimp only
      rw [Staging.lookup_unfinished rfl]
      dsimp only
      rw [hadmission, ← hfind]
      exact ⟨_, rfl, hcalm', rfl⟩

/-- A look-up of more keys than a call may carry is refused. -/
theorem call_lookup_crowded {store : Store} {keys : List Key} (hmany : store.limits.read < keys.length)
    {s : Session} (hcalm : Store.Calm store s.store) (hunstaged : s.Unstaged) :
    (call .lookup (Store.lookup keys) (Staging.lookup keys) s).1 =
      .error (.batchLimitExceeded store.limits.read keys.length) := by
  have hadmission : (Store.admission .lookup keys.length s.store).1 =
      .error (.batchLimitExceeded store.limits.read keys.length) := by
    rw [Store.admission_apply, hcalm.failures, Store.itemLimit?, hcalm.limits]
    dsimp only [List.find?_nil]
    rw [if_pos hmany]
  rcases hresult : Store.admission .lookup keys.length s.store with ⟨r, after⟩
  rw [hresult] at hadmission
  obtain rfl : r = _ := hadmission
  rw [call]
  cases ht : s.transaction with
  | none =>
    dsimp only
    rw [Store.lookup_eq, Action.bind_error hresult]
  | some t =>
    obtain rfl := hunstaged t ht
    dsimp only
    rw [Staging.lookup_unfinished rfl]
    dsimp only
    rw [hresult]

theorem lookupChunks_unstaged {store : Store} {parts : List (List Key)}
    (hroom : ∀ part ∈ parts, part.length ≤ store.limits.read) {s : Session}
    (hcalm : Store.Calm store s.store) (hunstaged : s.Unstaged) :
    ∃ s', lookupChunks parts s = (.ok (parts.flatten.map store.find?), s') ∧
      Store.Calm store s'.store ∧ s'.transaction = s.transaction := by
  induction parts generalizing s with
  | nil => exact ⟨s, rfl, hcalm, rfl⟩
  | cons part rest ih =>
    obtain ⟨hpart, hrest⟩ := List.forall_mem_cons.mp hroom
    obtain ⟨s₁, hcall, hcalm₁, hsame⟩ := call_lookup_unstaged hpart hcalm hunstaged
    have hunstaged₁ : s₁.Unstaged := fun t ht => hunstaged t (hsame ▸ ht)
    obtain ⟨s₂, hmore, hcalm₂, hsame₂⟩ := ih hrest hcalm₁ hunstaged₁
    refine ⟨s₂, ?_, hcalm₂, hsame₂.trans hsame⟩
    rw [lookupChunks, Action.bind_ok hcall, Action.bind_ok hmore, Action.pure_apply,
      List.flatten_cons, List.map_append]

/-- A look-up is refused at its first call, which is the largest, if that is too large. -/
theorem lookup_crowded {store : Store} {policy : Policy} {keys : List Key}
    (hmany : store.limits.read < policy.largestLookup keys.length) {s : Session}
    (hcalm : Store.Calm store s.store) (hunstaged : s.Unstaged) :
    (lookup policy.limits keys s).1 =
      .error (.batchLimitExceeded store.limits.read (policy.largestLookup keys.length)) := by
  have hne : keys ≠ [] := by
    rintro rfl
    simp [Policy.largestLookup] at hmany
  have hfirst : (keys.take (max policy.limits.read 1)).length = policy.largestLookup keys.length :=
    List.length_take
  have hcall := call_lookup_crowded (hfirst ▸ hmany) hcalm hunstaged
  rw [lookup, chunks_of_ne_nil policy.limits.read hne, lookupChunks]
  rcases hrun : call .lookup (Store.lookup (keys.take (max policy.limits.read 1)))
    (Staging.lookup (keys.take (max policy.limits.read 1))) s with ⟨r, s'⟩
  rw [hrun, hfirst] at hcall
  obtain rfl : r = _ := hcall
  rw [Action.bind_error hrun]

end Session

namespace Connection

theorem begun_unstaged (c : Connection) : c.begun.Unstaged := by
  rintro t ⟨⟩
  rfl

theorem session_none_unstaged (c : Connection) : (c.session none).Unstaged := by
  rintro t ⟨⟩

end Connection

namespace Connection.Serves

variable {store : Store} {c : Connection} (h : c.Serves store) (hidle : c.slot.isActive = false)
  (policy : Policy) {keys : List Key} (label : String)

include h hidle

/-- Outside explicit transactions a look-up is answered with what the store has for each key. -/
theorem lookup (hroom : policy.largestLookup keys.length ≤ store.limits.read) :
    ∃ c', Connection.lookup policy keys label c = (.ok (keys.map store.find?), c') ∧
      c'.Serves store := by
  have hparts : ∀ part ∈ chunks policy.limits.read keys, part.length ≤ store.limits.read := by
    intro part hpart
    have hlimit := length_le_of_mem_chunks hpart
    have hwhole := (List.sublist_flatten_of_mem hpart).length_le
    rw [flatten_chunks] at hwhole
    exact (Nat.le_min.mpr ⟨hlimit, hwhole⟩).trans hroom
  rw [Connection.lookup, execute_of_inactive h.isOpen hidle]
  split
  · obtain ⟨s', hrun, hcalm, hsame⟩ :=
      Session.lookupChunks_unstaged hparts h.begun_calm c.begun_unstaged
    rw [flatten_chunks] at hrun
    obtain ⟨c', halone, hserves, -⟩ := h.alone hrun hcalm hsame .read label
    exact ⟨c', halone, hserves⟩
  · obtain ⟨s', hrun, hcalm, -⟩ :=
      Session.lookupChunks_unstaged hparts h.calm c.session_none_unstaged
    rw [flatten_chunks] at hrun
    rw [Connection.executeDirectly, Session.lookup, hrun]
    exact ⟨_, rfl, hcalm, h.isOpen, h.unfinished⟩

/-- If its largest call is too large then a look-up is refused. -/
theorem lookup_refused (hmany : store.limits.read < policy.largestLookup keys.length) :
    (Connection.lookup policy keys label c).1 =
      .error (if policy.transactional then
          .transaction .read
            (.batchLimitExceeded store.limits.read (policy.largestLookup keys.length))
        else .batchLimitExceeded store.limits.read (policy.largestLookup keys.length)) := by
  rw [Connection.lookup, execute_of_inactive h.isOpen hidle]
  split
  · have herror := Session.lookup_crowded hmany h.begun_calm c.begun_unstaged
    rcases hrun : Session.lookup policy.limits keys c.begun with ⟨r, s'⟩
    rw [hrun] at herror
    obtain rfl : r = _ := herror
    have hbody : thenCommit (Session.lookup policy.limits keys)
        ({ c with store := c.begun.store }.session (some ⟨∅, false⟩)) = (.error _, s') :=
      Action.bind_error hrun
    rw [Connection.executeAlone, h.beginTransaction]
    dsimp only
    rw [hbody]
    rfl
  · have herror := Session.lookup_crowded hmany h.calm c.session_none_unstaged
    rw [Connection.executeDirectly]
    rcases hrun : Session.lookup policy.limits keys (c.session none) with ⟨r, s'⟩
    rw [hrun] at herror
    obtain rfl : r = _ := herror
    rfl

end Connection.Serves

/-- Draining a stream whose items were looked up and arranged at the first pull. -/
theorem ItemStream.drain_found {α : Type} {store : Store} {c c' : Connection} {policy : Policy}
    {label : String} {keys : List Key} {filters : List ConjunctiveFilter} {order : List SortKey}
    {limit : Option Nat} {items : List Entity} (hstore : store.WellSized) (hserves : c'.Serves store)
    (hfound : EntityStream.lookUp policy label keys filters order limit c = (.ok items, c'))
    (hlength : items.length ≤ keys.length) (read : Entity → Outcome α) :
    ((⟨.found policy label keys filters order limit, read⟩ : ItemStream α).drain c).1 =
      ⟨items.map read, true⟩ := by
  rw [drain]
  dsimp only [EntityStream.bound]
  rw [take, EntityStream.pull, EntityStream.pullCollected, hfound]
  cases items with
  | nil => rfl
  | cons e rest =>
    have hrest : (⟨.ready rest, read⟩ : ItemStream α).source.Pending store rest := .ready rest
    obtain ⟨s', c'', htake, hread, -⟩ := take_of_pending hstore (keys.length + 1) hrest hserves
    rw [List.length_cons] at hlength
    dsimp only [EntityStream.pullReady]
    rw [htake, List.take_of_length_le (by omega), decide_eq_true (by omega)]
    show (⟨s'.read e :: rest.map read, true⟩ : Drained α) = _
    rw [hread, List.map_cons]

/-- Draining a stream whose look-up fails at the first pull. -/
theorem ItemStream.drain_found_refused {α : Type} {c : Connection} {policy : Policy} {label : String}
    {keys : List Key} {e : StorageError}
    (hfailed : (Connection.lookup policy keys label c).1 = .error e)
    (filters : List ConjunctiveFilter) (order : List SortKey) (limit : Option Nat)
    (read : Entity → Outcome α) :
    ((⟨.found policy label keys filters order limit, read⟩ : ItemStream α).drain c).1 =
      ⟨[.error e], true⟩ := by
  rcases hlookup : Connection.lookup policy keys label c with ⟨r, c'⟩
  rw [hlookup] at hfailed
  obtain rfl : r = _ := hfailed
  rw [drain]
  dsimp only [EntityStream.bound]
  rw [take, EntityStream.pull, EntityStream.pullCollected, EntityStream.lookUp,
    Action.bind_error hlookup]
  rfl

namespace RecordStore

variable {ι : Type}

/-! ## What a look-up finds -/

/-- Without a limit a scan finds the same in every order. -/
theorem ranked_perm_scanned (s : RecordStore ι) (space : Namespace) (store : Store)
    (order : List SortKey) (filters : List ConjunctiveFilter) :
    (s.ranked space store order none filters).Perm (s.scanned space store filters) := by
  have hone : ∀ filter, (s.foremostOf space store order none filter).Perm
      (s.resultsOf space store filter) := fun filter => Sorted.stable_perm ..
  match filters with
  | [] => exact hone none
  | [f] => exact hone (some f)
  | f :: g :: rest =>
    have hmerged : (s.ranked space store order none (f :: g :: rest)).Perm
        (Sieve.byKey.sift []
          ((f :: g :: rest).flatMap fun f => s.foremostOf space store order none (some f))) := by
      show (arrange order none _).Perm _
      rw [arrange_eq_cut]
      exact Sorted.stable_perm ..
    refine hmerged.trans ?_
    rw [List.perm_ext_iff_of_nodup (Entity.nodup_of_keys (Sieve.nodup_keys_sift [] _).2)
      (Entity.nodup_of_keys (nodup_keys_scanned _))]
    intro e
    rw [mem_sift_foremostOf, mem_scanned]
    simp only [(hone _).mem_iff, mem_resultsOf, Option.all_some]
    constructor
    · rintro ⟨f, hf, hmem, hplace, hholds⟩
      exact ⟨hmem, hplace, .inr (List.any_eq_true.mpr ⟨f, hf, hholds⟩)⟩
    · rintro ⟨hmem, hplace, hnil | hholds⟩
      · cases hnil
      · obtain ⟨f, hf, hfe⟩ := List.any_eq_true.mp hholds
        exact ⟨f, hf, hmem, hplace, hfe⟩

section LookedUp

variable [RecordId ι] (s : RecordStore ι) (space : Namespace) (store : Store)
  (filters : List ConjunctiveFilter)

/-- What is there for identifiers and a filter holds of, an entity as often as it is asked for. -/
def lookedUp (ids : List ι) : List Entity :=
  (((ids.map (⟨space, s.settings.kind⟩ : KeyFactory).key).map store.find?).filterMap id).filter
    fun e => filters.isEmpty || filters.any (·.holds e)

variable {s space store filters}

theorem length_lookedUp_le (ids : List ι) :
    (s.lookedUp space store filters ids).length ≤ ids.length := by
  refine (List.length_filter_le ..).trans ((List.length_filterMap_le ..).trans ?_)
  rw [List.length_map, List.length_map]

/-- For one identifier it is what a scan finds with its key. -/
theorem lookedUp_singleton_perm (id : ι) :
    (s.lookedUp space store filters [id]).Perm
      ((s.scanned space store filters).filter
        fun e => e.key = (⟨space, s.settings.kind⟩ : KeyFactory).key id) := by
  have hnodup : (s.lookedUp space store filters [id]).Nodup := by
    refine List.Nodup.filter _ ?_
    rw [List.map_singleton, List.map_singleton]
    cases store.find? ((⟨space, s.settings.kind⟩ : KeyFactory).key id) with
    | none => exact .nil
    | some e => exact List.nodup_singleton e
  rw [List.perm_ext_iff_of_nodup hnodup
    ((Entity.nodup_of_keys (nodup_keys_scanned filters)).filter _)]
  intro e
  have hfind : store.find? ((⟨space, s.settings.kind⟩ : KeyFactory).key id) = some e ↔
      e ∈ store.entities ∧ e.key = (⟨space, s.settings.kind⟩ : KeyFactory).key id := by
    rw [Store.find?, Option.map_eq_some_iff, Store.mem_entities]
    constructor
    · rintro ⟨properties, hget, rfl⟩
      exact ⟨hget, rfl⟩
    · rintro ⟨hget, hkey⟩
      exact ⟨e.properties, hkey ▸ hget, by rw [← hkey]⟩
  rw [lookedUp, List.mem_filter, List.mem_filter, mem_scanned, decide_eq_true_iff, Bool.or_eq_true,
    List.isEmpty_iff]
  simp only [List.map_cons, List.map_nil, List.mem_filterMap, List.mem_singleton, id_eq,
    exists_eq_left, hfind]
  constructor
  · rintro ⟨⟨hmem, hkey⟩, hholds⟩
    exact ⟨⟨hmem, ⟨congrArg Key.space hkey, congrArg Key.kind hkey⟩, hholds⟩, hkey⟩
  · rintro ⟨⟨hmem, -, hholds⟩, hkey⟩
    exact ⟨⟨hmem, hkey⟩, hholds⟩

theorem lookedUp_cons (id : ι) (ids : List ι) :
    s.lookedUp space store filters (id :: ids) =
      s.lookedUp space store filters [id] ++ s.lookedUp space store filters ids := by
  rw [lookedUp, List.map_cons, List.map_cons, ← List.singleton_append, List.filterMap_append,
    List.filter_append]
  rfl

/-- A look-up finds for each of the identifiers what a scan finds for it. -/
theorem lookedUp_perm (ids : List ι) :
    (s.lookedUp space store filters ids).Perm
      (ids.flatMap fun id => (s.scanned space store filters).filter
        fun e => e.key = (⟨space, s.settings.kind⟩ : KeyFactory).key id) := by
  induction ids with
  | nil => exact .nil
  | cons id rest ih =>
    rw [lookedUp_cons, List.flatMap_cons]
    exact (lookedUp_singleton_perm id).append ih

/-- The records of one identifier are those of the entities with its key. -/
theorem map_ofEntity_filter [LawfulRecordId ι] [DecidableEq ι] {keys : KeyFactory}
    {found : List Entity} {records : List (Record ι)}
    (hread : found.map Record.ofEntity = records.map .ok)
    (hkeys : found.map (·.key) = records.map fun r => keys.key r.id) (id : ι) :
    (found.filter fun e => e.key = keys.key id).map Record.ofEntity =
      (records.filter fun r => r.id = id).map .ok := by
  induction found generalizing records with
  | nil =>
    obtain rfl := List.map_eq_nil_iff.mp hread.symm
    rfl
  | cons e rest ih =>
    cases records with
    | nil => cases hread
    | cons r records =>
      rw [List.map_cons, List.map_cons, List.cons.injEq] at hread hkeys
      have hsame : e.key = keys.key id ↔ r.id = id := by
        rw [hkeys.1]
        exact ⟨keys.key_injective, fun h => congrArg keys.key h⟩
      have hrest := ih hread.2 hkeys.2
      by_cases hid : r.id = id
      · rw [List.filter_cons_of_pos (by simpa using hsame.mpr hid),
          List.filter_cons_of_pos (by simpa using hid), List.map_cons, List.map_cons, hread.1, hrest]
      · rw [List.filter_cons_of_neg (by simpa using hsame.not.mpr hid),
          List.filter_cons_of_neg (by simpa using hid), hrest]

end LookedUp

/-! ## Records asked for several times -/

section Asked

variable [DecidableEq ι]

/-- The records of the first of the identifiers, then those of the second and so on. -/
def recordsOfEach (ids : List ι) (records : List (Record ι)) : List (Record ι) :=
  ids.flatMap fun id => records.filter fun r => r.id = id

theorem mem_recordsOfEach {ids : List ι} {records : List (Record ι)} {r : Record ι} :
    r ∈ recordsOfEach ids records ↔ r ∈ records ∧ r.id ∈ ids := by
  rw [recordsOfEach, List.mem_flatMap]
  simp only [List.mem_filter, decide_eq_true_eq]
  constructor
  · rintro ⟨id, hid, hmem, rfl⟩
    exact ⟨hmem, hid⟩
  · rintro ⟨hmem, hid⟩
    exact ⟨r.id, hid, hmem, rfl⟩

theorem count_recordsOfEach (ids : List ι) (records : List (Record ι)) (a : ι) :
    ((recordsOfEach ids records).map (·.id)).count a =
      ids.count a * (records.map (·.id)).count a := by
  have hone : ∀ id, ((records.filter fun r => r.id = id).map (·.id)).count a =
      if id = a then (records.map (·.id)).count a else 0 := by
    intro id
    have hfilter : (records.filter fun r => r.id = id).map (·.id) =
        (records.map (·.id)).filter fun i => i = id := by
      rw [List.filter_map]
      rfl
    rw [hfilter]
    split
    · next heq => exact List.count_filter (by simpa using heq.symm)
    · next hne =>
      rw [List.count_eq_zero, List.mem_filter]
      rintro ⟨-, hid⟩
      exact hne (of_decide_eq_true hid).symm
  induction ids with
  | nil => simp [recordsOfEach]
  | cons id rest ih =>
    have hcons : recordsOfEach (id :: rest) records =
        (records.filter fun r => r.id = id) ++ recordsOfEach rest records := rfl
    rw [hcons, List.map_append, List.count_append, hone, ih, List.count_cons, Nat.add_mul]
    by_cases hid : id = a
    · simp [hid, Nat.add_comm]
    · simp [hid]

/-- Nothing is given twice exactly if no identifier with a record is repeated. -/
theorem recordsOfEach_perm_iff {ids : List ι} {records : List (Record ι)}
    (hnodup : (records.map (·.id)).Nodup) :
    (recordsOfEach ids records).Perm (records.filter fun r => r.id ∈ ids) ↔
      ∀ r ∈ records, ids.count r.id ≤ 1 := by
  have hkept : ((records.filter fun r => r.id ∈ ids).map (·.id)).Nodup :=
    hnodup.sublist (List.filter_sublist.map _)
  constructor
  · intro hperm r hr
    have hgiven : ((recordsOfEach ids records).map (·.id)).Nodup :=
      (hperm.map _).nodup_iff.mpr hkept
    have hcount := List.nodup_iff_count_le_one.mp hgiven r.id
    rwa [count_recordsOfEach, List.count_eq_one_of_mem hnodup (List.mem_map_of_mem hr),
      Nat.mul_one] at hcount
  · intro honce
    have hgiven : ((recordsOfEach ids records).map (·.id)).Nodup := by
      rw [List.nodup_iff_count_le_one]
      intro a
      rw [count_recordsOfEach]
      by_cases ha : a ∈ records.map (·.id)
      · obtain ⟨r, hr, rfl⟩ := List.mem_map.mp ha
        rw [List.count_eq_one_of_mem hnodup ha, Nat.mul_one]
        exact honce r hr
      · rw [List.count_eq_zero_of_not_mem ha]
        exact Nat.zero_le _
    rw [List.perm_ext_iff_of_nodup (.of_map _ hgiven) (.of_map _ hkept)]
    intro r
    rw [mem_recordsOfEach, List.mem_filter, decide_eq_true_iff]

end Asked

/-! ## The two paths -/

section Paths

variable [RecordId ι] (s : RecordStore ι) {caller : Caller} {p : Predicate} {space : Namespace}
  {filters : List ConjunctiveFilter}

/-- With identifiers the stream of a query looks their keys up. -/
theorem readAllRecords_some (htarget : s.scanTarget caller p = .ok (space, filters)) (ids : List ι)
    (order : List SortKey) (context : Context) :
    s.readAllRecords caller ⟨p, some ids, order, none⟩ context =
      (.ok ⟨.found s.settings.policy (s.label ("ids=" ++ toString ids.length))
          (ids.map (⟨space, s.settings.kind⟩ : KeyFactory).key) filters order none, Record.ofEntity⟩,
        { context with keys := context.keys.keep ⟨space, s.settings.kind⟩ }) := by
  rw [readAllRecords, htarget]
  rfl

variable {s} {store : Store} {c : Connection}

/-- Draining that stream gives what the look-up finds. -/
theorem drain_found_ids (hserves : c.Serves store) (hidle : c.slot.isActive = false)
    (hsize : store.WellSized) {ids : List ι} (order : List SortKey) (label : String)
    (hroom : s.settings.policy.largestLookup ids.length ≤ store.limits.read) :
    ((⟨.found s.settings.policy label (ids.map (⟨space, s.settings.kind⟩ : KeyFactory).key) filters
        order none, Record.ofEntity⟩ : ItemStream (Record ι)).drain c).1 =
      ⟨(arrange order none (s.lookedUp space store filters ids)).map Record.ofEntity, true⟩ := by
  have hlength : (ids.map (⟨space, s.settings.kind⟩ : KeyFactory).key).length = ids.length :=
    List.length_map ..
  obtain ⟨c', hlookup, hserves'⟩ := hserves.lookup hidle s.settings.policy label (hlength ▸ hroom)
  refine ItemStream.drain_found hsize hserves' ?_ ?_ Record.ofEntity
  · rw [EntityStream.lookUp, Action.bind_ok hlookup]
    rfl
  · rw [hlength]
    exact (length_arrange_le ..).trans (length_lookedUp_le ids)

/-- What a scan finds in an order are records with different identifiers. -/
theorem exists_ranked_records [LawfulRecordId ι]
    (hrecords : RecordsOnly ι ⟨space, s.settings.kind⟩ store.documents)
    (filters : List ConjunctiveFilter) (order : List SortKey) :
    ∃ records : List (Record ι),
      (s.ranked space store order none filters).map Record.ofEntity = records.map .ok ∧
      (s.ranked space store order none filters).map (·.key) =
        records.map (fun r => (⟨space, s.settings.kind⟩ : KeyFactory).key r.id) ∧
      (records.map (·.id)).Nodup := by
  have hperm := ranked_perm_scanned s space store order filters
  have hholds : ∀ e ∈ s.ranked space store order none filters,
      e.HoldsRecord ι ⟨space, s.settings.kind⟩ := by
    intro e he
    obtain ⟨hmem, ⟨hspace, hkind⟩, -⟩ := mem_scanned.mp (hperm.mem_iff.mp he)
    exact hrecords e (Store.mem_entities.mp hmem) hspace hkind
  obtain ⟨records, hread, -, hkeys⟩ := exists_records hholds
  refine ⟨records, hread, hkeys, ?_⟩
  have hdistinct : ((s.ranked space store order none filters).map (·.key)).Nodup :=
    (hperm.map _).nodup_iff.mpr (nodup_keys_scanned filters)
  rw [hkeys] at hdistinct
  exact .of_map (KeyFactory.key ⟨space, s.settings.kind⟩) (by rwa [List.map_map])

/-- A look-up finds the records that a scan finds, for each of the identifiers. -/
theorem exists_lookedUp_records [LawfulRecordId ι] [DecidableEq ι] {order : List SortKey}
    {scanned : List (Record ι)}
    (hread : (s.ranked space store order none filters).map Record.ofEntity = scanned.map .ok)
    (hkeys : (s.ranked space store order none filters).map (·.key) =
      scanned.map fun r => (⟨space, s.settings.kind⟩ : KeyFactory).key r.id) (ids : List ι) :
    ∃ found : List (Record ι),
      (arrange order none (s.lookedUp space store filters ids)).map Record.ofEntity =
        found.map .ok ∧
      found.Perm (recordsOfEach ids scanned) := by
  have hfound : ((arrange order none (s.lookedUp space store filters ids)).map
      (Record.ofEntity (ι := ι))).Perm ((recordsOfEach ids scanned).map .ok) := by
    rw [arrange_eq_cut, recordsOfEach, List.map_flatMap]
    refine ((Sorted.stable_perm ..).map _).trans (((lookedUp_perm ids).map _).trans ?_)
    rw [List.map_flatMap]
    refine .flatMap_left ids fun id _ => ?_
    rw [← map_ofEntity_filter hread hkeys id]
    exact (((ranked_perm_scanned s space store order filters).filter _).map _).symm
  obtain ⟨found, hitems, hgiven⟩ :=
    (congrFun₂ (List.eq_map_comp_perm Except.ok) _ (recordsOfEach ids scanned)).mpr hfound
  exact ⟨found, hitems, hgiven⟩

/-- Outside explicit transactions and without a limit, a query with identifiers gives for each of them
the record that the query without identifiers gives for it, if there is one.  It gives the records of
the list each once, as a restriction to these identifiers would, exactly if no identifier with such a
record is repeated.  This holds for every predicate and order, whether or not there are records for
the identifiers, unless the calls of the look-up are larger than the store allows, which is reported. -/
theorem readAllRecords_ids [LawfulRecordId ι] [DecidableEq ι] (s : RecordStore ι) (caller : Caller)
    (p : Predicate) (ids : List ι) (order : List SortKey) (context : Context) (space : Namespace)
    (filters : List ConjunctiveFilter)
    (hspace : s.settings.resolver.current caller.tenant = .ok space)
    (hfilters : p.compile s.settings.mapping = .ok filters)
    (hserves : Connection.Serves context.connection.store context.connection)
    (hidle : context.connection.slot.isActive = false)
    (hsize : context.connection.store.WellSized)
    (hrecords : RecordsOnly ι ⟨space, s.settings.kind⟩ context.connection.store.documents) :
    ∃ (scan lookup : ItemStream (Record ι)) (context₁ context₂ : Context) (scanned : List (Record ι)),
      s.readAllRecords caller ⟨p, none, order, none⟩ context = (.ok scan, context₁) ∧
      (scan.drain context₁.connection).1 = ⟨scanned.map .ok, true⟩ ∧
      (scanned.map (·.id)).Nodup ∧
      s.readAllRecords caller ⟨p, some ids, order, none⟩ context = (.ok lookup, context₂) ∧
      let asked := s.settings.policy.largestLookup ids.length
      let allowed := context.connection.store.limits.read
      (asked ≤ allowed → ∃ found : List (Record ι),
        (lookup.drain context₂.connection).1 = ⟨found.map .ok, true⟩ ∧
        found.Perm (recordsOfEach ids scanned) ∧
        (found.Perm (scanned.filter fun r => r.id ∈ ids) ↔ ∀ r ∈ scanned, ids.count r.id ≤ 1)) ∧
      (allowed < asked → (lookup.drain context₂.connection).1 =
        ⟨[.error (if s.settings.policy.transactional then
            .transaction .read (.batchLimitExceeded allowed asked)
          else .batchLimitExceeded allowed asked)], true⟩) := by
  have htarget : s.scanTarget caller p = .ok (space, filters) := by
    rw [scanTarget, hspace, Outcome.ok_bind, hfilters]
    rfl
  obtain ⟨scanned, hread, hkeys, hnodup⟩ := exists_ranked_records hrecords filters order
  refine ⟨⟨s.scan space filters order none false, Record.ofEntity⟩, _, context, _, scanned,
    ?_, ?_, hnodup, s.readAllRecords_some htarget ids order context, fun hroom => ?_, fun hmany => ?_⟩
  · rw [readAllRecords, htarget]
    rfl
  · rw [← hread]
    exact ItemStream.drain_of_pending (s := (⟨s.scan space filters order none false,
      Record.ofEntity⟩ : ItemStream (Record ι))) hsize
      (scan_pending_ranked s space _ order none filters) hserves
  · obtain ⟨found, hitems, hgiven⟩ := exists_lookedUp_records hread hkeys ids
    refine ⟨found, ?_, hgiven, ?_⟩
    · rw [← hitems]
      exact drain_found_ids hserves hidle hsize order _ hroom
    · rw [← recordsOfEach_perm_iff hnodup]
      exact ⟨hgiven.symm.trans, hgiven.trans⟩
  · have hlength : (ids.map (⟨space, s.settings.kind⟩ : KeyFactory).key).length = ids.length :=
      List.length_map ..
    refine ItemStream.drain_found_refused ?_ filters order none Record.ofEntity
    have hrefused := hserves.lookup_refused hidle s.settings.policy
      (s.label ("ids=" ++ toString ids.length)) (hlength.symm ▸ hmany)
    rw [hlength] at hrefused
    exact hrefused

end Paths

/-- The parcels "c" and "a" and again "c", and "b", which is not there. -/
def parcelIds : List String := ["c", "b", "a", "c"]

theorem readAllRecords_ids_parcels :
    ∃ (scan lookup : ItemStream (Record String)) (context₁ context₂ : Context)
        (scanned found : List (Record String)),
      (RecordStore.mk parcelHandle.settings).readAllRecords default
          ⟨overlappingWeights, none, heaviestFirst, none⟩
          ((Deployment.run parcelSteps smallDeployment).context parcelHandle) = (.ok scan, context₁) ∧
      (scan.drain context₁.connection).1 = ⟨scanned.map .ok, true⟩ ∧
      (RecordStore.mk parcelHandle.settings).readAllRecords default
          ⟨overlappingWeights, some parcelIds, heaviestFirst, none⟩
          ((Deployment.run parcelSteps smallDeployment).context parcelHandle) =
        (.ok lookup, context₂) ∧
      (lookup.drain context₂.connection).1 = ⟨found.map .ok, true⟩ ∧
      found.Perm (recordsOfEach parcelIds scanned) := by
  have hslot : ((Deployment.run parcelSteps smallDeployment).context
      parcelHandle).connection.slot.isActive = false := by
    decide +kernel
  obtain ⟨scan, lookup, context₁, context₂, scanned, hscan, hdrain, -, hlookup, hroom, -⟩ :=
    readAllRecords_ids (RecordStore.mk parcelHandle.settings) default overlappingWeights parcelIds
      heaviestFirst ((Deployment.run parcelSteps smallDeployment).context parcelHandle) ⟨""⟩ _ rfl rfl
      parcels_serve hslot ⟨by decide +kernel, by decide +kernel⟩ parcels_recordsOnly
  obtain ⟨found, hdrain', hperm, -⟩ := hroom (by decide +kernel)
  exact ⟨scan, lookup, context₁, context₂, scanned, found, hscan, hdrain, hlookup, hdrain', hperm⟩

/-- The scan gives the parcels "a", "c" and "d", each once, but the query for "a" and "a" gives "a"
twice. -/
theorem repeated_identifier_given_twice :
    (((RecordStore.mk (ι := String) parcelHandle.settings).readAllRecords default
        ⟨.empty, none, [], none⟩
        ((Deployment.run parcelSteps smallDeployment).context parcelHandle)).1.toOption.map
      fun stream => (stream.drain
        ((Deployment.run parcelSteps smallDeployment).connection parcelHandle)).1.items.map
          (·.map (·.id))) = some [.ok "a", .ok "c", .ok "d"] ∧
    (((RecordStore.mk (ι := String) parcelHandle.settings).readAllRecords default
        ⟨.empty, some ["a", "a"], [], none⟩
        ((Deployment.run parcelSteps smallDeployment).context parcelHandle)).1.toOption.map
      fun stream => (stream.drain
        ((Deployment.run parcelSteps smallDeployment).connection parcelHandle)).1.items.map
          (·.map (·.id))) = some [.ok "a", .ok "a"] := by
  constructor <;> decide +kernel

end RecordStore

end DocumentStore
