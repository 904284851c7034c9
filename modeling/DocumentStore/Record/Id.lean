import DocumentStore.Document.Entity
import DocumentStore.Fault
import DocumentStore.Text.Numeral
import DocumentStore.Uuid
set_option autoImplicit false

/-!
# Identifiers

An identifier type is one whose values can be written as the name of a key and read back from it.
Texts, signed and unsigned 64-bit numbers and UUIDs are identifiers.
-/

namespace DocumentStore

/-- A type of identifiers. -/
class RecordId (ι : Type) where
  /-- The name of the key. -/
  toName : ι → String
  /-- The identifier that a name is read as. -/
  ofName : String → Outcome ι
  /-- The identifier as messages show it. -/
  describe : ι → String

/-- Names read back as the identifiers they were written for. -/
class LawfulRecordId (ι : Type) [RecordId ι] : Prop where
  ofName_toName (i : ι) : RecordId.ofName (RecordId.toName i) = .ok i

instance : RecordId String where
  toName s := s
  ofName name := .ok name
  describe := Text.quoted

instance : LawfulRecordId String := ⟨fun _ => rfl⟩

theorem LawfulRecordId.eq_of_toName_eq {ι : Type} [RecordId ι] [LawfulRecordId ι] {a b : ι}
    (h : RecordId.toName a = RecordId.toName b) : a = b := by
  have hread := ofName_toName a
  rw [h, ofName_toName b] at hread
  exact (Except.ok.inj hread).symm

instance : RecordId Int64 where
  toName n := toString n.toInt
  ofName name :=
    match Text.integer? name.toList with
    | some n => .ok (Int64.ofInt n)
    | none => .error (.invalidIdentifier (Text.quoted name ++ " is not an i64"))
  describe n := toString n.toInt

instance : RecordId UInt64 where
  toName n := toString n.toNat
  ofName name :=
    match Text.natural? name.toList with
    | some n => .ok (UInt64.ofNat n)
    | none => .error (.invalidIdentifier (Text.quoted name ++ " is not a u64"))
  describe n := toString n.toNat

instance : RecordId Uuid where
  toName := Uuid.toText
  ofName name :=
    match Uuid.ofText? name with
    | some u => .ok u
    | none => .error (.invalidIdentifier (Text.quoted name ++ " is not a UUID"))
  describe := Uuid.toText

/-- The keys of one kind in one namespace. -/
structure KeyFactory where
  space : Namespace
  kind : Kind
  deriving DecidableEq, Repr, Inhabited

namespace KeyFactory

/-- The key with a name. -/
def named (f : KeyFactory) (name : String) : Key := ⟨f.space, f.kind, name⟩

/-- The key of an identifier. -/
def key {ι : Type} [RecordId ι] (f : KeyFactory) (id : ι) : Key := f.named (RecordId.toName id)

end KeyFactory

/-- The key factories asked for so far, each once. -/
structure KeyFactoryCache where
  factories : List KeyFactory
  deriving DecidableEq, Repr

namespace KeyFactoryCache

/-- A cache before its first use. -/
def empty : KeyFactoryCache := ⟨[]⟩

instance : Inhabited KeyFactoryCache := ⟨empty⟩

/-- The cache after a factory was asked for. -/
def keep (c : KeyFactoryCache) (f : KeyFactory) : KeyFactoryCache :=
  if f ∈ c.factories then c else ⟨f :: c.factories⟩

/-- The number of factories. -/
def size (c : KeyFactoryCache) : Nat := c.factories.length

end KeyFactoryCache

end DocumentStore
