import DocumentStore.Proofs.Record.Stored
set_option autoImplicit false

/-!
# Records that come back

What is read for a record that was stored is the record itself: its identifier, its payload byte for
byte, and its columns, each as the value that its stored form reads back as.
-/

namespace DocumentStore

/-! ## Entries one by one -/

namespace SortedMap

variable {κ ν ν' : Type} [Ord κ] [Std.TransOrd κ] [Std.LawfulEqOrd κ]

/-- In ascending entries a key is that of the first entry, or looked up among the rest. -/
theorem lookupEntry_cons [DecidableEq κ] {k a : κ} {v : ν} {rest : List (κ × ν)}
    (h : ((a, v) :: rest).Pairwise fun a b => compare a.1 b.1 = .lt) :
    lookupEntry k ((a, v) :: rest) = if k = a then some v else lookupEntry k rest := by
  obtain ⟨hfirst, -⟩ := List.pairwise_cons.mp h
  have hne (hc : compare k a ≠ .eq) : k ≠ a := by
    rintro rfl
    exact hc Std.ReflCmp.compare_self
  rw [lookupEntry]
  cases hc : compare k a with
  | lt =>
    rw [if_neg (hne (by rw [hc]; decide)),
      lookupEntry_eq_none_of_lt fun e he => Std.TransCmp.lt_trans hc (hfirst e he)]
  | eq => rw [if_pos (Std.LawfulEqOrd.eq_of_compare hc)]
  | gt => rw [if_neg (hne (by rw [hc]; decide))]

omit [Std.TransOrd κ] [Std.LawfulEqOrd κ] in
/-- The map with every value replaced. -/
def mapValues (f : ν → ν') (m : SortedMap κ ν) : SortedMap κ ν' :=
  ⟨m.entries.map fun e => (e.1, f e.2), List.pairwise_map.mpr m.ascending⟩

omit [Std.TransOrd κ] [Std.LawfulEqOrd κ] in
theorem lookupEntry_map (f : ν → ν') (k : κ) (entries : List (κ × ν)) :
    lookupEntry k (entries.map fun e => (e.1, f e.2)) = (lookupEntry k entries).map f := by
  induction entries with
  | nil => rfl
  | cons e rest ih =>
    rw [List.map_cons, lookupEntry, lookupEntry, ih]
    cases compare k e.1 <;> rfl

omit [Std.TransOrd κ] [Std.LawfulEqOrd κ] in
@[simp] theorem get?_mapValues (f : ν → ν') (m : SortedMap κ ν) (k : κ) :
    (m.mapValues f).get? k = (m.get? k).map f :=
  lookupEntry_map f k m.entries

end SortedMap

/-! ## Columns -/

/-- The value that the stored form of a value reads back as. -/
def ColumnMapping.returned (m : ColumnMapping) (v : ColumnValue) : ColumnValue :=
  match m.apply v with
  | .ok native => .ofNative native
  | .error _ => v

namespace Record

variable {ι : Type}

/-- The record as it comes back: its columns have the types of their stored values. -/
def asRead (mapping : ColumnMapping) (r : Record ι) : Record ι :=
  { r with columns := r.columns.mapValues mapping.returned }

/-- What was stored of columns: none of them is named like the payload's property, and each reads
back as its stored form does. -/
theorem storeColumns_ok [RecordId ι] {mapping : ColumnMapping} {id : ι} :
    ∀ {columns : List (String × ColumnValue)} {properties stored : Properties},
    (columns.Pairwise fun a b => compare a.1 b.1 = .lt) →
    storeColumns mapping id columns properties = .ok stored →
    SortedMap.lookupEntry payloadProperty columns = none ∧
      ∀ name, (stored.get? name).map .ofNative =
        ((SortedMap.lookupEntry name columns).map mapping.returned).or
          ((properties.get? name).map .ofNative)
  | [], properties, stored, _, h => by
    cases h
    exact ⟨rfl, fun _ => rfl⟩
  | (column, value) :: rest, properties, stored, hascending, h => by
    unfold storeColumns at h
    split at h
    · cases h
    · next hcolumn =>
      obtain ⟨native, hnative, h⟩ := Outcome.bind_eq_ok h
      obtain ⟨hpayload, hstored⟩ := storeColumns_ok (List.pairwise_cons.mp hascending).2 h
      have hreturned : mapping.returned value = .ofNative native := by
        rw [ColumnMapping.returned, hnative]
      constructor
      · rw [SortedMap.lookupEntry_cons hascending, if_neg (Ne.symm hcolumn), hpayload]
      · intro name
        rw [hstored, SortedMap.lookupEntry_cons hascending, SortedMap.get?_insert]
        by_cases hname : name = column
        · subst hname
          have hrest : SortedMap.lookupEntry name rest = none :=
            SortedMap.lookupEntry_eq_none_of_lt (List.pairwise_cons.mp hascending).1
          rw [if_pos rfl, if_pos rfl, hrest, Option.map_some, Option.map_some, hreturned]
          rfl
        · rw [if_neg hname, if_neg hname]

/-- What was read of properties: the payload is that of its property, if there is one, and every other
property is a column. -/
theorem readProperties_spec {key : Key} :
    ∀ {entries : List (String × NativeValue)} {r r' : Record ι},
    (entries.Pairwise fun a b => compare a.1 b.1 = .lt) →
    readProperties key entries r = .ok r' →
    (∀ bytes, SortedMap.lookupEntry payloadProperty entries = some (.blob bytes) →
      r'.payload = bytes) ∧
    (SortedMap.lookupEntry payloadProperty entries = none → r'.payload = r.payload) ∧
    ∀ name, r'.columns.get? name =
      if name = payloadProperty then r.columns.get? name
      else ((SortedMap.lookupEntry name entries).map .ofNative).or (r.columns.get? name)
  | [], r, r', _, h => by
    cases h
    refine ⟨fun bytes hnone => (by cases hnone), fun _ => rfl, fun name => ?_⟩
    split <;> rfl
  | (property, value) :: rest, r, r', hascending, h => by
    have hrest : SortedMap.lookupEntry property rest = none :=
      SortedMap.lookupEntry_eq_none_of_lt (List.pairwise_cons.mp hascending).1
    simp only [SortedMap.lookupEntry_cons hascending]
    unfold readProperties at h
    by_cases hproperty : property = payloadProperty
    · subst hproperty
      rw [if_pos rfl] at h
      cases value with
      | blob bytes =>
        obtain ⟨-, hpayload, hcolumns⟩ := readProperties_spec (List.pairwise_cons.mp hascending).2 h
        refine ⟨fun bytes' hbytes => ?_, fun hnone => ?_, fun name => ?_⟩
        · cases hbytes
          exact hpayload hrest
        · cases hnone
        · rw [hcolumns name]
          split
          · rfl
          · rfl
      | null | boolean | integer | double | string | timestamp => cases h
    · rw [if_neg hproperty] at h
      obtain ⟨hbytes, hpayload, hcolumns⟩ := readProperties_spec (List.pairwise_cons.mp hascending).2 h
      rw [if_neg (Ne.symm hproperty)]
      refine ⟨hbytes, hpayload, fun name => ?_⟩
      rw [hcolumns name, SortedMap.get?_insert]
      by_cases hname : name = property
      · subst hname
        rw [if_neg hproperty, if_neg hproperty, if_pos rfl, if_pos rfl, hrest]
        rfl
      · rw [if_neg hname, if_neg hname]

/-- A record that was stored comes back. -/
theorem ofEntity_eq_asRead [RecordId ι] [LawfulRecordId ι] {mapping : ColumnMapping}
    {keys : KeyFactory} {r : Record ι} {e : Entity} (h : r.toEntity mapping keys = .ok e) :
    ofEntity e = .ok (r.asRead mapping) := by
  obtain ⟨r', hread, hid⟩ := ofEntity_toEntity h
  obtain ⟨properties, hstored, h⟩ := Outcome.bind_eq_ok h
  cases h
  obtain ⟨hreserved, hvalues⟩ := storeColumns_ok r.columns.ascending hstored
  have hblob : properties.get? payloadProperty = some (.blob r.payload) := by
    rw [get?_storeColumns hstored, SortedMap.get?_insert, if_pos rfl]
  have hname : RecordId.ofName (keys.key r.id).name = Except.ok r.id :=
    LawfulRecordId.ofName_toName r.id
  rw [ofEntity, hname, Outcome.ok_bind] at hread
  obtain ⟨hpayload, -, hcolumns⟩ := readProperties_spec properties.ascending hread
  have hcolumns' : r'.columns = r.columns.mapValues mapping.returned := by
    apply SortedMap.ext_get?
    intro name
    rw [hcolumns name, SortedMap.get?_mapValues]
    by_cases hpayload : name = payloadProperty
    · subst hpayload
      rw [if_pos rfl, SortedMap.get?, SortedMap.get?, hreserved]
      rfl
    · have hvalue := hvalues name
      rw [SortedMap.get?_insert, if_neg hpayload] at hvalue
      rw [if_neg hpayload]
      rw [SortedMap.get?_empty, Option.or_none]
      rw [SortedMap.get?_empty, Option.map_none, Option.or_none] at hvalue
      exact hvalue
  rw [ofEntity, hname, Outcome.ok_bind, hread]
  obtain ⟨id', payload', columns'⟩ := r'
  obtain rfl : id' = r.id := hid
  obtain rfl : payload' = r.payload := hpayload r.payload hblob
  obtain rfl : columns' = r.columns.mapValues mapping.returned := hcolumns'
  rfl

end Record

end DocumentStore
