import DocumentStore.Proofs.Store.Writes
import DocumentStore.Record.Basic
set_option autoImplicit false

/-!
# Entities that hold records

What a record was stored as can be read again: the identifier is the record's own, and the payload's
property is a blob whatever the columns are.  A namespace and kind have `RecordsOnly` if all of
their documents hold records.
-/

namespace DocumentStore

namespace Record

variable {ι : Type} [RecordId ι]

theorem get?_storeColumns {mapping : ColumnMapping} {id : ι} : ∀ {columns : List (String × ColumnValue)}
    {properties stored : Properties}, storeColumns mapping id columns properties = .ok stored →
    stored.get? payloadProperty = properties.get? payloadProperty
  | [], properties, stored, h => by
    cases h
    rfl
  | (name, value) :: rest, properties, stored, h => by
    unfold storeColumns at h
    split at h
    · cases h
    · next hname =>
      obtain ⟨native, -, h⟩ := Outcome.bind_eq_ok h
      rw [get?_storeColumns h, SortedMap.get?_insert, if_neg (Ne.symm hname)]

omit [RecordId ι] in
/-- Properties whose payload, if there is one, is a blob can be read into a record, which keeps its
identifier. -/
theorem readProperties_ok (key : Key) : ∀ (entries : List (String × NativeValue)) (r : Record ι),
    (∀ value, (payloadProperty, value) ∈ entries → ∃ bytes, value = .blob bytes) →
    ∃ r', readProperties key entries r = .ok r' ∧ r'.id = r.id
  | [], r, _ => ⟨r, rfl, rfl⟩
  | (name, value) :: rest, r, h => by
    have hrest : ∀ value, (payloadProperty, value) ∈ rest → ∃ bytes, value = .blob bytes :=
      fun value hmem => h value (List.mem_cons_of_mem _ hmem)
    by_cases hname : name = payloadProperty
    · subst hname
      obtain ⟨bytes, rfl⟩ := h value (List.mem_cons_self ..)
      rw [readProperties, if_pos rfl]
      exact readProperties_ok key rest _ hrest
    · unfold readProperties
      rw [if_neg hname]
      exact readProperties_ok key rest _ hrest

/-- What a record was stored as is read as a record with its identifier. -/
theorem ofEntity_toEntity [LawfulRecordId ι] {mapping : ColumnMapping} {keys : KeyFactory}
    {r : Record ι} {e : Entity} (h : r.toEntity mapping keys = .ok e) :
    ∃ r', ofEntity e = .ok r' ∧ r'.id = r.id := by
  obtain ⟨properties, hstored, h⟩ := Outcome.bind_eq_ok h
  cases h
  have hpayload : properties.get? payloadProperty = some (.blob r.payload) := by
    rw [get?_storeColumns hstored, SortedMap.get?_insert, if_pos rfl]
  obtain ⟨r', hread, hid⟩ := readProperties_ok (keys.key r.id) properties.entries
    ⟨r.id, [], ∅⟩ (by
      intro value hmem
      have hvalue := SortedMap.get?_eq_some_iff.mpr hmem
      rw [hpayload] at hvalue
      exact ⟨r.payload, (Option.some.inj hvalue).symm⟩)
  have hname : RecordId.ofName (keys.key r.id).name = Except.ok r.id :=
    LawfulRecordId.ofName_toName r.id
  refine ⟨r', ?_, hid⟩
  rw [ofEntity, hname]
  exact hread

theorem key_toEntity {mapping : ColumnMapping} {keys : KeyFactory} {r : Record ι} {e : Entity}
    (h : r.toEntity mapping keys = .ok e) : e.key = keys.key r.id := by
  obtain ⟨properties, -, h⟩ := Outcome.bind_eq_ok h
  cases h
  rfl

end Record

/-- Whether an entity is what a record is stored as, under one mapping or another. -/
def Entity.HoldsRecord (ι : Type) [RecordId ι] (keys : KeyFactory) (e : Entity) : Prop :=
  ∃ (mapping : ColumnMapping) (r : Record ι), r.toEntity mapping keys = .ok e

/-- Entities with different keys are different. -/
theorem Entity.nodup_of_keys {found : List Entity} (h : (found.map (·.key)).Nodup) : found.Nodup :=
  List.Pairwise.of_map _ (fun _ _ hne heq => hne (congrArg _ heq)) h

namespace Store

theorem mem_entities {s : Store} {e : Entity} :
    e ∈ s.entities ↔ s.documents.get? e.key = some e.properties := by
  rw [SortedMap.get?_eq_some_iff, entities, List.mem_map]
  constructor
  · rintro ⟨entry, hentry, rfl⟩
    exact hentry
  · intro h
    exact ⟨_, h, rfl⟩

theorem eq_of_key_eq {s : Store} {a b : Entity} (ha : a ∈ s.entities) (hb : b ∈ s.entities)
    (h : a.key = b.key) : a = b := by
  have hproperties := mem_entities.mp ha
  rw [h, mem_entities.mp hb] at hproperties
  obtain ⟨key, properties⟩ := a
  obtain rfl : key = b.key := h
  obtain rfl : b.properties = properties := Option.some.inj hproperties
  rfl

/-- No two entities have the same key. -/
theorem nodup_keys_entities (s : Store) : (s.entities.map (·.key)).Nodup := by
  rw [entities, List.map_map]
  refine List.pairwise_map.mpr (s.documents.ascending.imp ?_)
  intro a b hlt heq
  rw [show a.1 = b.1 from heq] at hlt
  simp at hlt

end Store

theorem KeyFactory.eq_of_eq {f g : KeyFactory} (hspace : f.space = g.space) (hkind : f.kind = g.kind) :
    f = g := by
  cases f
  cases g
  rw [mk.injEq]
  exact ⟨hspace, hkind⟩

/-- Whether every document of a namespace and kind holds a record. -/
def RecordsOnly (ι : Type) [RecordId ι] (keys : KeyFactory)
    (documents : SortedMap Key Properties) : Prop :=
  ∀ e : Entity, documents.get? e.key = some e.properties → e.key.space = keys.space →
    e.key.kind = keys.kind → e.HoldsRecord ι keys

/-- Whether a write leaves records only: it puts one in, removes a document, or is of another
namespace or kind. -/
def Write.OfRecord (ι : Type) [RecordId ι] (keys : KeyFactory) (w : Write) : Prop :=
  ∀ properties, w.2 = some properties → w.1.space = keys.space → w.1.kind = keys.kind →
    Entity.HoldsRecord ι keys ⟨w.1, properties⟩

end DocumentStore
