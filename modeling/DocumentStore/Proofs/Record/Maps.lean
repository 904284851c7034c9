import DocumentStore.Proofs.Access.Answers
import DocumentStore.Proofs.Access.Streams
import DocumentStore.Proofs.Operation.Basic
import DocumentStore.Proofs.Record.Ids
import DocumentStore.Proofs.Record.Returned
import DocumentStore.Proofs.Record.Scans
import Mathlib.Data.List.Nodup
set_option autoImplicit false

/-!
# Record stores as finite maps

On a store that answers, a record store is no different from a map from identifiers to the records
written last, however its calls are split and whether or not each has a transaction of its own.
`RecordCall.onMap` is the map; it and the record store give the same answers to every run of calls.
-/

namespace DocumentStore

/-! ## The map -/

/-- The record written last for each identifier, if it was not deleted since. -/
abbrev RecordMap (ι : Type) : Type := ι → Option (Record ι)

namespace RecordMap

variable {ι : Type} [DecidableEq ι]

/-- Without records. -/
def empty : RecordMap ι := fun _ => none

def put (m : RecordMap ι) (r : Record ι) : RecordMap ι := Function.update m r.id (some r)

/-- A later record replaces an earlier one with its identifier. -/
def putAll (m : RecordMap ι) (records : List (Record ι)) : RecordMap ι := records.foldl put m

def remove (m : RecordMap ι) (id : ι) : RecordMap ι := Function.update m id none

end RecordMap

/-- A call of a record store on single records. -/
inductive RecordCall (ι : Type) where
  | read (id : ι)
  | readAll (ids : List ι)
  | write (r : Record ι)
  | writeAll (records : List (Record ι))
  | delete (id : ι)

namespace RecordCall

variable {ι : Type} [RecordId ι]

/-- The call as an operation of a handle. -/
def operation : RecordCall ι → Operation ι
  | .read id => .read id
  | .readAll ids => .readAll ids
  | .write r => .write r
  | .writeAll records => .writeAll records
  | .delete id => .delete id

/-- The call of a map.  Records that cannot be stored are refused, and nothing is written then. -/
def onMap [DecidableEq ι] (mapping : ColumnMapping) (keys : KeyFactory) :
    RecordCall ι → Action (RecordMap ι) (Answer ι)
  | .read id => Action.gets fun m => .record ((m id).map (·.asRead mapping))
  | .readAll ids =>
    Action.gets fun m => .recordsOf (ids.map fun id => (m id).map (·.asRead mapping))
  | .write r => do
    let _ ← Action.ofOutcome (r.toEntity mapping keys)
    Action.modify (·.put r)
    return .done
  | .writeAll records => do
    let _ ← Action.ofOutcome (RecordStore.entitiesOf mapping keys records)
    Action.modify (·.putAll records)
    return .done
  | .delete id => do
    Action.modify (·.remove id)
    return .deleted true

end RecordCall

/-- The answers to operations one after another, and the state that they lead to. -/
def Action.trace {σ α : Type} : List (Action σ α) → σ → List (Outcome α) × σ
  | [], s => ([], s)
  | x :: rest, s =>
    match x s with
    | (r, s) =>
      match trace rest s with
      | (rs, s) => (r :: rs, s)

/-- A run of calls, each on behalf of a caller, of a handle with these settings. -/
def RecordStore.runCalls {ι : Type} [RecordId ι] (settings : HandleSettings)
    (calls : List (Caller × RecordCall ι)) : Context → List (Outcome (Answer ι)) × Context :=
  Action.trace (calls.map fun call => call.2.operation.perform settings call.1)

/-- The same run of a map. -/
def RecordMap.runCalls {ι : Type} [RecordId ι] [DecidableEq ι] (mapping : ColumnMapping)
    (keys : KeyFactory) (calls : List (Caller × RecordCall ι)) :
    RecordMap ι → List (Outcome (Answer ι)) × RecordMap ι :=
  Action.trace (calls.map fun call => call.2.onMap mapping keys)

/-! ## What is stored -/

/-- Whether documents have what a map says of each identifier, and no others of the namespace and
kind. -/
structure Represents {ι : Type} [RecordId ι] (mapping : ColumnMapping) (keys : KeyFactory)
    (m : RecordMap ι) (documents : SortedMap Key Properties) : Prop where
  present : ∀ id r, m id = some r → r.id = id ∧
    ∃ e, r.toEntity mapping keys = .ok e ∧ documents.get? (keys.key id) = some e.properties
  absent : ∀ id, m id = none → documents.get? (keys.key id) = none
  only : ∀ name properties, documents.get? (keys.named name) = some properties →
    ∃ id : ι, name = RecordId.toName id

theorem KeyFactory.key_injective {ι : Type} [RecordId ι] [LawfulRecordId ι] (keys : KeyFactory)
    {a b : ι} (h : keys.key a = keys.key b) : a = b :=
  LawfulRecordId.eq_of_toName_eq (congrArg Key.name h)

namespace Represents

variable {ι : Type} [RecordId ι] {mapping : ColumnMapping} {keys : KeyFactory} {m : RecordMap ι}
  {documents : SortedMap Key Properties}

theorem empty (h : ∀ name, documents.get? (keys.named name) = none) :
    Represents mapping keys (RecordMap.empty : RecordMap ι) documents where
  present id r hr := nomatch hr
  absent id _ := h (RecordId.toName id)
  only name properties hget := by
    rw [h name] at hget
    cases hget

section Writes

variable [LawfulRecordId ι] [DecidableEq ι]

theorem put (h : Represents mapping keys m documents) {r : Record ι} {e : Entity}
    (he : r.toEntity mapping keys = .ok e) :
    Represents mapping keys (m.put r) (Staging.applyWrite documents e.key (some e.properties)) := by
  have hkey := Record.key_toEntity he
  have hget := Write.get?_applyWrite documents (e.key, some e.properties)
  dsimp only at hget
  refine ⟨fun id r' hr' => ?_, fun id hid => ?_, fun name properties hproperties => ?_⟩
  · rw [hget, hkey]
    by_cases hid : id = r.id
    · subst hid
      rw [RecordMap.put, Function.update_self, Option.some.injEq] at hr'
      subst hr'
      exact ⟨rfl, e, he, if_pos rfl⟩
    · rw [RecordMap.put, Function.update_of_ne hid] at hr'
      rw [if_neg (fun heq => hid (keys.key_injective heq))]
      exact h.present id r' hr'
  · by_cases hid' : id = r.id
    · subst hid'
      rw [RecordMap.put, Function.update_self] at hid
      cases hid
    · rw [RecordMap.put, Function.update_of_ne hid'] at hid
      rw [hget, hkey, if_neg (fun heq => hid' (keys.key_injective heq))]
      exact h.absent id hid
  · rw [hget, hkey] at hproperties
    split at hproperties
    · next heq => exact ⟨r.id, congrArg Key.name heq⟩
    · exact h.only name properties hproperties

theorem putAll (h : Represents mapping keys m documents) {records : List (Record ι)}
    {batch : List Entity} (hbatch : RecordStore.entitiesOf mapping keys records = .ok batch) :
    Represents mapping keys (m.putAll records)
      (Write.applyAll documents (Write.ofEntities batch)) := by
  induction records generalizing m documents batch with
  | nil =>
    cases hbatch
    exact h
  | cons r rest ih =>
    obtain ⟨e, he, hbatch⟩ := Outcome.bind_eq_ok hbatch
    obtain ⟨es, hes, hbatch⟩ := Outcome.bind_eq_ok hbatch
    cases hbatch
    exact ih (h.put he) hes

theorem remove (h : Represents mapping keys m documents) (id : ι) :
    Represents mapping keys (m.remove id) (Staging.applyWrite documents (keys.key id) none) := by
  have hget := Write.get?_applyWrite documents (keys.key id, none)
  dsimp only at hget
  refine ⟨fun id' r hr => ?_, fun id' hid' => ?_, fun name properties hproperties => ?_⟩
  · by_cases hid : id' = id
    · subst hid
      rw [RecordMap.remove, Function.update_self] at hr
      cases hr
    · rw [RecordMap.remove, Function.update_of_ne hid] at hr
      rw [hget, if_neg (fun heq => hid (keys.key_injective heq))]
      exact h.present id' r hr
  · rw [hget]
    split
    · rfl
    · next hne =>
      have hid : id' ≠ id := fun heq => hne (congrArg keys.key heq)
      rw [RecordMap.remove, Function.update_of_ne hid] at hid'
      exact h.absent id' hid'
  · rw [hget] at hproperties
    split at hproperties
    · cases hproperties
    · exact h.only name properties hproperties

end Writes

section Reads

variable [LawfulRecordId ι] {store : Store}

theorem recordOf_find? (h : Represents mapping keys m store.documents) (id : ι) :
    RecordStore.recordOf (store.find? (keys.key id)) = .ok ((m id).map (·.asRead mapping)) := by
  rw [Store.find?]
  cases hr : m id with
  | none =>
    rw [h.absent id hr]
    rfl
  | some r =>
    obtain ⟨rfl, e, he, hget⟩ := h.present id r hr
    have hentity : (⟨keys.key r.id, e.properties⟩ : Entity) = e := by rw [← Record.key_toEntity he]
    rw [hget, Option.map_some, RecordStore.recordOf, hentity, Record.ofEntity_eq_asRead he]
    rfl

theorem recordsOf_find? (h : Represents mapping keys m store.documents) (ids : List ι) :
    RecordStore.recordsOf ((ids.map keys.key).map store.find?) =
      .ok (ids.map fun id => (m id).map (·.asRead mapping)) := by
  induction ids with
  | nil => rfl
  | cons id rest ih =>
    rw [List.map_cons, List.map_cons, RecordStore.recordsOf, h.recordOf_find? id, ih]
    rfl

end Reads

end Represents

/-! ## One call -/

namespace RecordStore

variable {ι : Type} [RecordId ι] {settings : HandleSettings} {space : Namespace} {m : RecordMap ι}
  {context : Context}

/-- Whether a handle is answered, and its records are those of a map. -/
structure Models (settings : HandleSettings) (space : Namespace) (m : RecordMap ι)
    (context : Context) : Prop where
  ready : context.connection.Ready settings.policy.limits
  records : Represents settings.mapping ⟨space, settings.kind⟩ m context.connection.store.documents

theorem currentKeys_ok {caller : Caller} (h : settings.resolver.current caller.tenant = .ok space)
    (kind : Kind) (context : Context) :
    Context.currentKeys settings caller kind context =
      (.ok ⟨space, kind⟩, { context with keys := context.keys.keep ⟨space, kind⟩ }) := by
  rw [Context.currentKeys, h]
  rfl

theorem Models.of_sameData {c : Connection} {index : NamespaceIndex} {cache : KeyFactoryCache}
    (hready : c.Ready settings.policy.limits) {store : Store} (hdata : Store.SameData store c.store)
    (h : Represents settings.mapping ⟨space, settings.kind⟩ m store.documents) :
    Models settings space m ⟨c, index, cache⟩ :=
  ⟨hready, by rw [show c.store.documents = store.documents from hdata.documents]; exact h⟩

theorem Models.putAll {m' : RecordMap ι} (h : Models settings space m context) (batch : List Entity)
    (hbatch : Represents settings.mapping ⟨space, settings.kind⟩ m'
      (Write.applyAll context.connection.store.documents (Write.ofEntities batch)))
    (keys : KeyFactory) (what : String) :
    ∃ context', putAll (ι := ι) ⟨settings⟩ keys batch what context = (.ok (), context') ∧
      Models settings space m' context' := by
  obtain ⟨c, hput, hc, hdata⟩ := Connection.put_answers h.ready batch
    (label (ι := ι) ⟨settings⟩ what)
  simp only [RecordStore.putAll, Action.bind_apply, Context.onConnection, Action.onPart, hput]
  exact ⟨_, rfl, .of_sameData hc hdata hbatch⟩

variable [LawfulRecordId ι] [DecidableEq ι]

/-- A call is answered as by the map, and leaves what the map leaves. -/
theorem Models.call (h : Models settings space m context) {caller : Caller}
    (hspace : settings.resolver.current caller.tenant = .ok space) (call : RecordCall ι) :
    (call.operation.perform settings caller context).1 =
        (call.onMap settings.mapping ⟨space, settings.kind⟩ m).1 ∧
      Models settings space (call.onMap settings.mapping ⟨space, settings.kind⟩ m).2
        (call.operation.perform settings caller context).2 := by
  have hkeys := currentKeys_ok hspace settings.kind context
  have hasked : Models settings space m
      { context with keys := context.keys.keep ⟨space, settings.kind⟩ } := ⟨h.ready, h.records⟩
  cases call with
  | read id =>
    obtain ⟨c, hlookup, hc, hdata⟩ := Connection.lookup_answers hasked.ready
      [(⟨space, settings.kind⟩ : KeyFactory).key id]
      (label (ι := ι) ⟨settings⟩ ("id=" ++ ((⟨space, settings.kind⟩ : KeyFactory).key id).name))
    have hanswer := h.records.recordOf_find? id
    simp only [RecordCall.operation, Operation.perform, RecordStore.read, RecordStore.keys,
      Action.bind_apply, hkeys, Context.onConnection, Action.onPart, hlookup, Action.ofOutcome,
      List.map_cons, List.map_nil, List.head?_cons, Option.join_some, hanswer]
    exact ⟨rfl, .of_sameData hc hdata h.records⟩
  | readAll ids =>
    obtain ⟨c, hlookup, hc, hdata⟩ := Connection.lookup_answers hasked.ready
      (ids.map (⟨space, settings.kind⟩ : KeyFactory).key)
      (label (ι := ι) ⟨settings⟩ ("ids=" ++ toString ids.length))
    have hanswer := h.records.recordsOf_find? ids
    simp only [RecordCall.operation, Operation.perform, RecordStore.readAllByIds, RecordStore.keys,
      Action.bind_apply, hkeys, Context.onConnection, Action.onPart, hlookup, Action.ofOutcome,
      hanswer]
    exact ⟨rfl, .of_sameData hc hdata h.records⟩
  | write r =>
    simp only [RecordCall.operation, Operation.perform, RecordStore.write, RecordStore.keys,
      Action.bind_apply, hkeys, Action.ofOutcome, RecordCall.onMap]
    cases hr : r.toEntity settings.mapping ⟨space, settings.kind⟩ with
    | error e => exact ⟨rfl, hasked⟩
    | ok e =>
      obtain ⟨context', hput, hmodels⟩ := hasked.putAll [e] (h.records.put hr)
        ⟨space, settings.kind⟩ ("id=" ++ e.key.name)
      simp only [hput]
      exact ⟨rfl, hmodels⟩
  | writeAll records =>
    cases records with
    | nil => exact ⟨rfl, h⟩
    | cons r rest =>
      simp only [RecordCall.operation, Operation.perform, RecordStore.writeAll, RecordStore.keys,
        List.isEmpty_cons, Bool.false_eq_true, if_false, Action.bind_apply, hkeys, Action.ofOutcome,
        RecordCall.onMap]
      cases hrecords : entitiesOf settings.mapping ⟨space, settings.kind⟩ (r :: rest) with
      | error e => exact ⟨rfl, hasked⟩
      | ok batch =>
        obtain ⟨context', hput, hmodels⟩ := hasked.putAll batch (h.records.putAll hrecords)
          ⟨space, settings.kind⟩ ("records=" ++ toString batch.length)
        simp only [hput]
        exact ⟨rfl, hmodels⟩
  | delete id =>
    obtain ⟨c, hdelete, hc, hdata⟩ := Connection.delete_answers hasked.ready
      [(⟨space, settings.kind⟩ : KeyFactory).key id]
      (label (ι := ι) ⟨settings⟩ ("id=" ++ ((⟨space, settings.kind⟩ : KeyFactory).key id).name))
    simp only [RecordCall.operation, Operation.perform, RecordStore.delete, RecordStore.keys,
      Action.bind_apply, hkeys, Context.onConnection, Action.onPart, hdelete]
    exact ⟨rfl, .of_sameData hc hdata (h.records.remove id)⟩

/-! ## The index -/

omit [LawfulRecordId ι] [DecidableEq ι] in
theorem exists_identifiers {keys : KeyFactory} {found : List Key}
    (h : ∀ k ∈ found, ∃ id : ι, k = keys.key id) : ∃ ids : List ι, found = ids.map keys.key := by
  induction found with
  | nil => exact ⟨[], rfl⟩
  | cons k rest ih =>
    obtain ⟨⟨id, rfl⟩, hrest⟩ := List.forall_mem_cons.mp h
    obtain ⟨ids, rfl⟩ := ih hrest
    exact ⟨id :: ids, rfl⟩

omit [LawfulRecordId ι] [DecidableEq ι] in
/-- The keys of the namespace and kind with a document are those of the identifiers in the map. -/
theorem Models.mem_keys (h : Models settings space m context) (k : Key) :
    k ∈ ((⟨settings⟩ : RecordStore ι).scanned space context.connection.store []).map (·.key) ↔
      ∃ id : ι, k = (⟨space, settings.kind⟩ : KeyFactory).key id ∧ (m id).isSome = true := by
  rw [List.mem_map]
  constructor
  · rintro ⟨e, he, rfl⟩
    obtain ⟨hmem, ⟨hspace, hkind⟩, -⟩ := mem_scanned.mp he
    have hkey : e.key = (⟨space, settings.kind⟩ : KeyFactory).named e.key.name := by
      rw [KeyFactory.named, ← hspace, ← hkind]
    have hget := Store.mem_entities.mp hmem
    rw [hkey] at hget
    obtain ⟨id, hid⟩ := h.records.only _ _ hget
    refine ⟨id, by rw [hkey, hid, KeyFactory.key], ?_⟩
    rw [hid] at hget
    rw [Option.isSome_iff_ne_none]
    intro hnone
    rw [← KeyFactory.key, h.records.absent id hnone] at hget
    cases hget
  · rintro ⟨id, rfl, hid⟩
    obtain ⟨r, hr⟩ := Option.isSome_iff_exists.mp hid
    obtain ⟨-, e, -, hget⟩ := h.records.present id r hr
    refine ⟨⟨_, e.properties⟩, mem_scanned.mpr ⟨Store.mem_entities.mpr hget, ⟨rfl, rfl⟩, .inl rfl⟩, rfl⟩

omit [DecidableEq ι] in
/-- The index of a handle lists the identifiers that the map has a record for, each once. -/
theorem Models.index (h : Models settings space m context) {caller : Caller}
    (hspace : settings.resolver.current caller.tenant = .ok space)
    (hsize : context.connection.store.WellSized) :
    ∃ ids : List ι, ((Operation.indexMatching .empty none).perform settings caller context).1 =
        .ok (.ids ⟨ids.map .ok, true⟩) ∧
      ids.Nodup ∧ ∀ id, id ∈ ids ↔ (m id).isSome = true := by
  let records : RecordStore ι := ⟨settings⟩
  let keys : KeyFactory := ⟨space, settings.kind⟩
  let found := records.scanned space context.connection.store []
  obtain ⟨ids, hids⟩ : ∃ ids : List ι, found.map (·.key) = ids.map keys.key :=
    exists_identifiers fun k hk => ((h.mem_keys k).mp hk).imp fun _ hid => hid.1
  refine ⟨ids, ?_, ?_, fun id => ?_⟩
  · have hserves : Connection.Serves context.connection.store context.connection := by
      refine ⟨.refl h.ready.store.failures, h.ready.isOpen, fun t ht => ?_⟩
      have hidle := h.ready.idle
      rw [ht] at hidle
      cases hidle
    have hindex : records.indexMatching caller .empty =
        ⟨records.scan space [] [] none true, fun e => RecordId.ofName e.key.name⟩ := by
      rw [indexMatching, scanTarget, hspace, Outcome.ok_bind, Predicate.compile_empty _ rfl]
      rfl
    have hnames : found.map (fun e => RecordId.ofName (ι := ι) e.key.name) = ids.map .ok := by
      have hmap := congrArg (List.map fun k : Key => RecordId.ofName (ι := ι) k.name) hids
      rw [List.map_map, List.map_map] at hmap
      refine hmap.trans (List.map_congr_left fun id _ => ?_)
      exact LawfulRecordId.ofName_toName id
    have hdrain : ((records.indexMatching caller .empty).drain context.connection).1 =
        ⟨ids.map .ok, true⟩ := by
      rw [hindex, ItemStream.drain_of_pending hsize (scan_pending [] true) hserves, ← hnames]
      simp only [Store.project, if_true, List.map_map]
      rfl
    simp only [Operation.perform, Action.bind_apply, Context.pull]
    rcases hr : (records.indexMatching caller .empty).drain context.connection with ⟨d, rest, c⟩
    rw [hr] at hdrain
    obtain rfl : d = ⟨ids.map .ok, true⟩ := hdrain
    rfl
  · have hnodup : (found.map (·.key)).Nodup := nodup_keys_scanned []
    rw [hids] at hnodup
    exact List.Nodup.of_map keys.key hnodup
  · have hmem := h.mem_keys (keys.key id)
    rw [show List.map _ _ = ids.map keys.key from hids,
      List.mem_map_of_injective fun _ _ => keys.key_injective] at hmem
    rw [hmem]
    constructor
    · rintro ⟨id', hkey, hid'⟩
      rw [keys.key_injective hkey]
      exact hid'
    · exact fun hid => ⟨id, rfl, hid⟩

/-! ## Runs -/

theorem Models.runCalls (h : Models settings space m context)
    {calls : List (Caller × RecordCall ι)}
    (hspace : ∀ call ∈ calls, settings.resolver.current call.1.tenant = .ok space) :
    (runCalls settings calls context).1 =
        (RecordMap.runCalls settings.mapping ⟨space, settings.kind⟩ calls m).1 ∧
      Models settings space
        (RecordMap.runCalls settings.mapping ⟨space, settings.kind⟩ calls m).2
        (runCalls settings calls context).2 := by
  induction calls generalizing m context with
  | nil => exact ⟨rfl, h⟩
  | cons call rest ih =>
    obtain ⟨hfirst, hrest⟩ := List.forall_mem_cons.mp hspace
    obtain ⟨hanswer, hmodels⟩ := h.call hfirst call.2
    obtain ⟨hanswers, hmodels'⟩ := ih hmodels hrest
    exact ⟨congrArg₂ List.cons hanswer hanswers, hmodels'⟩

/-- From no records of the kind, a record store on a store that answers is a map: every run of calls
has the answers of the map, with and without a transaction for each, and the index lists the
identifiers that the map then has a record for, each once. -/
theorem refines_map (settings : HandleSettings) (space : Namespace) (context : Context)
    (calls : List (Caller × RecordCall ι))
    (hready : context.connection.Ready settings.policy.limits)
    (hnone : ∀ name, context.connection.store.documents.get? ⟨space, settings.kind, name⟩ = none)
    (hspace : ∀ call ∈ calls, settings.resolver.current call.1.tenant = .ok space) :
    (runCalls settings calls context).1 =
        (RecordMap.runCalls settings.mapping ⟨space, settings.kind⟩ calls .empty).1 ∧
      ∀ caller, settings.resolver.current caller.tenant = .ok space →
        (runCalls settings calls context).2.connection.store.WellSized →
        ∃ ids : List ι,
          ((Operation.indexMatching .empty none).perform settings caller
              (runCalls settings calls context).2).1 = .ok (.ids ⟨ids.map .ok, true⟩) ∧
          ids.Nodup ∧
          ∀ id, id ∈ ids ↔ ((RecordMap.runCalls settings.mapping ⟨space, settings.kind⟩ calls
            .empty).2 id).isSome = true := by
  have hempty : Models settings space (RecordMap.empty : RecordMap ι) context :=
    ⟨hready, .empty hnone⟩
  obtain ⟨hanswers, hmodels⟩ := hempty.runCalls hspace
  exact ⟨hanswers, fun caller hcaller hsize => hmodels.index hcaller hsize⟩

/-- A transactional handle that reads and writes one record in each call. -/
def ledgerSettings : HandleSettings :=
  { kind := ⟨"ledger"⟩, policy := ⟨⟨1, 0⟩, true⟩, pageSize := 1, resolver := .single ⟨""⟩
    mapping := .builtin }

/-- A store without documents that lets single items in. -/
def ledgerContext : Context :=
  { connection := ⟨.empty ⟨1, 1⟩ 1, .zero, false, .idle⟩, index := .empty, keys := .empty }

/-- A record is replaced in the operation that writes it first, and another one is deleted. -/
def ledgerCalls : List (Caller × RecordCall Int64) :=
  let record (id : Int64) (payload : List UInt8) (weight : Int) : Record Int64 :=
    ⟨id, payload, .ofList [("weight", .int32 weight)]⟩
  [(default, .writeAll [record (-1) [1] 4, record 7 [] 5, record (-1) [2] 3]),
    (default, .delete 7), (default, .delete 8), (default, .readAll [-1, 7, -1])]

/-- The record that is left. -/
def ledgerRecord : Record Int64 := ⟨-1, [2], .ofList [("weight", .int64 3)]⟩

theorem refines_map_ledger :
    (runCalls ledgerSettings ledgerCalls ledgerContext).1 =
        [.ok .done, .ok (.deleted true), .ok (.deleted true),
          .ok (.recordsOf [some ledgerRecord, none, some ledgerRecord])] ∧
      ∃ ids : List Int64,
        ((Operation.indexMatching .empty none).perform ledgerSettings default
            (runCalls ledgerSettings ledgerCalls ledgerContext).2).1 =
          .ok (.ids ⟨ids.map .ok, true⟩) ∧ ids.Nodup ∧ -1 ∈ ids ∧ 7 ∉ ids := by
  obtain ⟨hanswers, hindex⟩ := refines_map ledgerSettings ⟨""⟩ ledgerContext ledgerCalls
    ⟨rfl, rfl, rfl, by decide, by decide⟩ (fun _ => rfl) (fun call hcall => by
      simp only [ledgerCalls, List.mem_cons, List.not_mem_nil, or_false] at hcall
      rcases hcall with rfl | rfl | rfl | rfl <;> rfl)
  obtain ⟨ids, hids, hnodup, hmem⟩ := hindex default rfl ⟨by decide +kernel, by decide +kernel⟩
  refine ⟨hanswers.trans rfl, ids, hids, hnodup, (hmem (-1)).mpr rfl, fun hseven => ?_⟩
  have hnone := (hmem 7).mp hseven
  cases hnone

end RecordStore

end DocumentStore
