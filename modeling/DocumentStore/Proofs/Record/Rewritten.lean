import DocumentStore.Proofs.Access.Views
import DocumentStore.Proofs.Operation.Chains
import DocumentStore.Proofs.Record.Ids
import DocumentStore.Proofs.Record.Returned
set_option autoImplicit false

/-!
# Records that are written back

Under a mapping that stores what it gave back as it stored it before, a record that was read and is
written back is stored as the same entity, property by property and doubles bit by bit.  The built-in
mapping is one, so that a record that is read and written back leaves the store as it was.
-/

namespace DocumentStore

/-! ## Columns -/

namespace ColumnMapping

/-- Whether a stored value that is read back is stored as the same value again. -/
def Stable (m : ColumnMapping) : Prop :=
  ∀ v native, m.apply v = .ok native → m.apply (.ofNative native) = .ok native

theorem builtin_apply_ofNative (native : NativeValue) :
    builtin.apply (.ofNative native) = .ok native := by
  cases native <;> rfl

theorem builtin_stable : builtin.Stable := fun _ native _ => builtin_apply_ofNative native

/-- The built-in mapping stores every value but those of custom types. -/
theorem builtin_apply_error_iff {v : ColumnValue} :
    (∃ error, builtin.apply v = .error error) ↔ ∃ typeName value, v = .custom typeName value := by
  cases v with
  | custom typeName value => exact ⟨fun _ => ⟨typeName, value, rfl⟩, fun _ => ⟨_, rfl⟩⟩
  | null | text | int32 | int64 | float32 | float64 | bool | bytes | enumeration | message
    | timestamp => exact ⟨fun ⟨_, h⟩ => (by cases h), fun ⟨_, _, h⟩ => (by cases h)⟩

end ColumnMapping

namespace Record

variable {ι : Type} [RecordId ι]

/-! ## Entities -/

/-- Columns cannot be stored exactly if one of them has the payload's name or a value that the mapping
refuses. -/
theorem storeColumns_error_iff {mapping : ColumnMapping} {id : ι}
    {columns : List (String × ColumnValue)} {properties : Properties} :
    (∃ error, storeColumns mapping id columns properties = .error error) ↔
      ∃ column ∈ columns,
        column.1 = payloadProperty ∨ ∃ error, mapping.apply column.2 = .error error := by
  induction columns generalizing properties with
  | nil => exact ⟨fun ⟨_, h⟩ => (by cases h), fun ⟨_, h, _⟩ => (by cases h)⟩
  | cons column rest ih =>
    obtain ⟨name, value⟩ := column
    rw [List.exists_mem_cons_iff, storeColumns]
    by_cases hname : name = payloadProperty
    · rw [if_pos hname]
      exact ⟨fun _ => .inl (.inl hname), fun _ => ⟨_, rfl⟩⟩
    · rw [if_neg hname]
      cases hvalue : mapping.apply value with
      | error error => exact ⟨fun _ => .inl (.inr ⟨error, rfl⟩), fun _ => ⟨error, rfl⟩⟩
      | ok native =>
        rw [Outcome.ok_bind, ih]
        refine ⟨.inr, fun h => h.resolve_left ?_⟩
        rintro (hreserved | ⟨error, herror⟩)
        · exact hname hreserved
        · cases herror

theorem toEntity_error_iff {mapping : ColumnMapping} {keys : KeyFactory} {r : Record ι} :
    (∃ error, r.toEntity mapping keys = .error error) ↔
      ∃ name value, r.columns.get? name = some value ∧
        (name = payloadProperty ∨ ∃ error, mapping.apply value = .error error) := by
  have hstore : (∃ error, r.toEntity mapping keys = .error error) ↔ ∃ error,
      storeColumns mapping r.id r.columns.entries
        (SortedMap.insert ∅ payloadProperty (.blob r.payload)) = .error error := by
    unfold toEntity
    dsimp only
    cases storeColumns mapping r.id r.columns.entries
        (SortedMap.insert ∅ payloadProperty (.blob r.payload)) with
    | error e => exact ⟨fun _ => ⟨e, rfl⟩, fun _ => ⟨e, rfl⟩⟩
    | ok properties => exact ⟨fun ⟨_, h⟩ => (by cases h), fun ⟨_, h⟩ => (by cases h)⟩
  simp only [hstore, storeColumns_error_iff, Prod.exists, SortedMap.get?_eq_some_iff]

/-- Columns that come back are stored as before. -/
theorem storeColumns_returned {mapping : ColumnMapping} (hstable : mapping.Stable) {id : ι}
    {columns : List (String × ColumnValue)} {properties stored : Properties}
    (h : storeColumns mapping id columns properties = .ok stored) :
    storeColumns mapping id (columns.map fun column => (column.1, mapping.returned column.2))
      properties = .ok stored := by
  induction columns generalizing properties with
  | nil => exact h
  | cons column rest ih =>
    obtain ⟨name, value⟩ := column
    rw [storeColumns] at h
    split at h
    · cases h
    · next hname =>
      obtain ⟨native, hnative, h⟩ := Outcome.bind_eq_ok h
      have hreturned : mapping.returned value = .ofNative native := by
        rw [ColumnMapping.returned, hnative]
      rw [List.map_cons, storeColumns, if_neg hname, hreturned, hstable value native hnative]
      exact ih h

/-- A record that comes back is stored as the entity that it was read from. -/
theorem toEntity_asRead {mapping : ColumnMapping} (hstable : mapping.Stable) {keys : KeyFactory}
    {r : Record ι} {e : Entity} (h : r.toEntity mapping keys = .ok e) :
    (r.asRead mapping).toEntity mapping keys = .ok e := by
  obtain ⟨properties, hstored, h⟩ := Outcome.bind_eq_ok h
  cases h
  have hstored' : storeColumns mapping (r.asRead mapping).id (r.asRead mapping).columns.entries
      (SortedMap.insert ∅ payloadProperty (.blob (r.asRead mapping).payload)) = .ok properties :=
    storeColumns_returned hstable hstored
  rw [toEntity, hstored']
  rfl

omit [RecordId ι] in
/-- Whether a record is as another one comes back under the built-in mapping: of the same identifier
and payload, with the same columns, each as what its stored value reads back as. -/
structure ComesBackAs (r r' : Record ι) : Prop where
  id : r'.id = r.id
  payload : r'.payload = r.payload
  names : r'.columns.keys = r.columns.keys
  column : ∀ name value, r.columns.get? name = some value →
    ∃ native, ColumnMapping.builtin.apply value = .ok native ∧
      r'.columns.get? name = some (.ofNative native)

theorem comesBackAs_asRead {keys : KeyFactory} {r : Record ι} {e : Entity}
    (h : r.toEntity .builtin keys = .ok e) : r.ComesBackAs (r.asRead .builtin) where
  id := rfl
  payload := rfl
  names := by
    simp only [asRead, SortedMap.keys, SortedMap.mapValues, List.map_map, Function.comp_def]
  column name value hvalue := by
    cases hnative : ColumnMapping.builtin.apply value with
    | error error =>
      have hfails : ∃ error', r.toEntity .builtin keys = .error error' :=
        toEntity_error_iff.mpr ⟨name, value, hvalue, .inr ⟨error, hnative⟩⟩
      obtain ⟨error', herror⟩ := hfails
      rw [h] at herror
      cases herror
    | ok native =>
      refine ⟨native, rfl, ?_⟩
      rw [asRead, SortedMap.get?_mapValues, hvalue, Option.map_some, ColumnMapping.returned, hnative]

end Record

/-! ## Reading and writing back -/

namespace RecordStore

variable {ι : Type} [RecordId ι]

/-- Reads a record and writes it back as it was read, if there is one. -/
def rewrite (s : RecordStore ι) (caller : Caller) (id : ι) : Action Context Unit := do
  match ← s.read caller id with
  | none => return ()
  | some r => s.write caller r

variable {settings : HandleSettings} {caller : Caller} {allowed : Write → Prop} {keys : KeyFactory}
  (hkeys : settings.keysOf caller settings.kind = .ok keys) {s : Context}
  (husable : s.connection.slot.Usable)

omit hkeys husable in
theorem read_chain (settings : HandleSettings) (caller : Caller) (id : ι) :
    Connection.Chain settings.policy allowed s.connection
      (read ⟨settings⟩ caller id s).2.connection :=
  Context.Chains.prepare (.currentKeys _ _ _)
    (fun _ _ => (Context.Chains.onConnection (.lookup _ _)).bind fun _ => .quiet (.ofOutcome _)) s

include hkeys husable

/-- A read that is answered gives the record of the entity that the handle sees. -/
theorem read_eq_ok {id : ι} {found : Option (Record ι)}
    (h : (read ⟨settings⟩ caller id s).1 = .ok found) :
    recordOf (s.connection.view (keys.key id)) = .ok found := by
  obtain ⟨s', hquiet, hsame⟩ :=
    (Context.Quiet.currentKeys settings caller settings.kind).exists_eq s
  rw [hkeys] at hquiet
  rw [← hsame] at husable ⊢
  rw [read, RecordStore.keys, Action.bind_ok hquiet] at h
  obtain ⟨entities, hlookup, h⟩ := Action.bind_eq_ok h
  obtain rfl := Connection.lookup_eq_ok husable hlookup
  exact h

omit husable in
/-- What is written back as it is seen is redundant. -/
theorem write_chain {r : Record ι} {e : Entity}
    (hstored : r.toEntity settings.mapping keys = .ok e) (hallowed : allowed (e.key, some e.properties)) :
    Connection.Chain settings.policy allowed s.connection
      (write ⟨settings⟩ caller r s).2.connection := by
  refine Context.Chains.prepare (.currentKeys _ _ _) (fun keys' hkeys' => ?_) s
  obtain rfl : keys' = keys := Except.ok.inj (hkeys'.symm.trans hkeys)
  refine .prepare (.ofOutcome _) fun e' he' => putAll_chains _ _ _ fun w hw => ?_
  obtain rfl : e' = e := Except.ok.inj (he'.symm.trans hstored)
  obtain rfl := List.mem_singleton.mp hw
  exact hallowed

end RecordStore

/-- A record is refused exactly if it has a column of the payload's name or of a custom type.  Otherwise
it comes back with the same identifier, payload and column names, each column as what its stored value
reads back as, and what comes back is stored as the same entity.  So reading it and writing it back
changes no document, and nothing that the handle sees, whichever of the calls fail. -/
theorem Record.rewritten_unchanged {ι : Type} [RecordId ι] [LawfulRecordId ι] (keys : KeyFactory)
    (r : Record ι) :
    ((∃ error, r.toEntity .builtin keys = .error error) ↔
      (∃ value, r.columns.get? payloadProperty = some value) ∨
        ∃ name typeName value, r.columns.get? name = some (.custom typeName value)) ∧
    ∀ e, r.toEntity .builtin keys = .ok e →
      ∃ r', ofEntity e = .ok r' ∧ r.ComesBackAs r' ∧ r'.toEntity .builtin keys = .ok e ∧
        ∀ (settings : HandleSettings) (caller : Caller) (s : Context),
          settings.mapping = .builtin → settings.keysOf caller settings.kind = .ok keys →
          s.connection.slot.Usable → s.connection.view e.key = some e →
          (∀ found, (RecordStore.read ⟨settings⟩ caller r.id s).1 = .ok found → found = some r') ∧
          s.connection.SeesSame (RecordStore.rewrite ⟨settings⟩ caller r.id s).2.connection := by
  constructor
  · rw [toEntity_error_iff]
    simp only [ColumnMapping.builtin_apply_error_iff]
    constructor
    · rintro ⟨name, value, hvalue, rfl | ⟨typeName, custom, rfl⟩⟩
      · exact .inl ⟨value, hvalue⟩
      · exact .inr ⟨name, typeName, custom, hvalue⟩
    · rintro (⟨value, hvalue⟩ | ⟨name, typeName, custom, hvalue⟩)
      · exact ⟨payloadProperty, value, hvalue, .inl rfl⟩
      · exact ⟨name, _, hvalue, .inr ⟨typeName, custom, rfl⟩⟩
  · intro e he
    have hread := ofEntity_eq_asRead he
    have hback := toEntity_asRead ColumnMapping.builtin_stable he
    refine ⟨r.asRead .builtin, hread, comesBackAs_asRead he, hback, ?_⟩
    intro settings caller s hmapping hkeys husable hseen
    have hfound : ∀ found, (RecordStore.read ⟨settings⟩ caller r.id s).1 = .ok found →
        found = some (r.asRead .builtin) := by
      intro found hanswer
      have hanswered := RecordStore.read_eq_ok hkeys husable hanswer
      rw [← key_toEntity he, hseen, RecordStore.recordOf, hread] at hanswered
      exact (Except.ok.inj hanswered).symm
    refine ⟨hfound, ?_⟩
    have hsame := (RecordStore.read_chain settings caller r.id).seesSame husable
    rw [RecordStore.rewrite, Action.bind_apply]
    rcases hr : RecordStore.read ⟨settings⟩ caller r.id s with ⟨error | found, s'⟩ <;>
      rw [hr] at hsame hfound
    · exact hsame
    · obtain rfl := hfound found rfl
      have hstored : (r.asRead .builtin).toEntity settings.mapping keys = .ok e := by
        rw [hmapping]
        exact hback
      have hseen' : s'.connection.view e.key = some e := hsame.view ▸ hseen
      exact hsame.trans ((RecordStore.write_chain hkeys hstored hseen').seesSame hsame.usable)

/-! ### A reading whose columns all change their types -/

/-- A reading with columns of types that do not come back, one of them not a number. -/
def wornReading : Record Int64 :=
  ⟨-7, [1, 255], .ofList [("level", .int32 3), ("note", .message "Note" (.text "worn")),
    ("speed", .float32 ⟨0x7fa00001⟩), ("status", .enumeration "Status" 2)]⟩

/-- A handle on readings, with a transaction for each operation. -/
def readingSettings : HandleSettings :=
  ⟨⟨"reading"⟩, ⟨.standard, true⟩, 10, .single ⟨"plant"⟩, .builtin⟩

/-- What an operation finds if an entity is stored and the next put will fail. -/
def readingContext (e : Entity) : Context :=
  ⟨⟨((Store.empty .standard 10).put1 e).failNext (.call .put) "full", .zero, false, .idle⟩,
    .empty, .empty⟩

theorem Record.rewritten_unchanged_reading :
    ∃ (e : Entity) (r' : Record Int64),
      wornReading.toEntity .builtin ⟨⟨"plant"⟩, ⟨"reading"⟩⟩ = .ok e ∧ ofEntity e = .ok r' ∧
      r'.columns.get? "speed" = some (.float64 ⟨0x7ffc000020000000⟩) ∧
      r'.toEntity .builtin ⟨⟨"plant"⟩, ⟨"reading"⟩⟩ = .ok e ∧
      (readingContext e).connection.SeesSame
        (RecordStore.rewrite ⟨readingSettings⟩ default wornReading.id
          (readingContext e)).2.connection := by
  obtain ⟨-, hstable⟩ := Record.rewritten_unchanged ⟨⟨"plant"⟩, ⟨"reading"⟩⟩ wornReading
  obtain ⟨r', hread, hback, hsame, hcycle⟩ := hstable _ rfl
  obtain ⟨native, hnative, hspeed⟩ := hback.column "speed" (.float32 ⟨0x7fa00001⟩) rfl
  obtain rfl : NativeValue.double ⟨0x7ffc000020000000⟩ = native := Except.ok.inj (Eq.trans rfl hnative)
  refine ⟨_, r', rfl, hread, hspeed, hsame, ?_⟩
  exact (hcycle readingSettings default (readingContext _) rfl rfl
    (.of_isActive_eq_false rfl) rfl).2

end DocumentStore
