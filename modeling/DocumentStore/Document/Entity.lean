import DocumentStore.Document.Value
import DocumentStore.Sorted.Map
set_option autoImplicit false

/-!
# Entities and their keys

An entity is what the store keeps under one key: named properties.  A key has three parts, the
namespace that separates data owners, the kind of document and the name, and keys are ordered by
these in turn.
-/

namespace DocumentStore

/-- A partition of the store, by the name stored for it.  The default namespace has no name. -/
structure Namespace where
  name : String
  deriving DecidableEq, Repr, Inhabited

instance : Ord Namespace := ⟨compareOn Namespace.name⟩

/-- A class of documents. -/
structure Kind where
  name : String
  deriving DecidableEq, Repr, Inhabited

instance : Ord Kind := ⟨compareOn Kind.name⟩

/-- The kind for values kept beside documents of this one. -/
def Kind.child (k : Kind) (suffix : String) : Kind := ⟨k.name ++ "." ++ suffix⟩

/-- The identity of an entity in the store. -/
structure Key where
  space : Namespace
  kind : Kind
  name : String
  deriving DecidableEq, Repr, Inhabited

namespace Key

instance : Ord Key :=
  ⟨compareLex (compareOn fun k => k.space.name)
    (compareLex (compareOn fun k => k.kind.name) (compareOn Key.name))⟩

instance : Std.TransOrd Key :=
  inferInstanceAs (Std.TransCmp (compareLex (compareOn fun k : Key => k.space.name)
    (compareLex (compareOn fun k => k.kind.name) (compareOn Key.name))))

instance : Std.LawfulEqOrd Key where
  eq_of_compare {a b} h := by
    obtain ⟨⟨an⟩, ⟨ak⟩, a⟩ := a
    obtain ⟨⟨bn⟩, ⟨bk⟩, b⟩ := b
    simp only [compare, compareLex, compareOn, Ordering.then_eq_eq] at h
    obtain ⟨h1, h2, h3⟩ := h
    have e1 := Std.LawfulEqOrd.eq_of_compare (α := String) h1
    have e2 := Std.LawfulEqOrd.eq_of_compare (α := String) h2
    have e3 := Std.LawfulEqOrd.eq_of_compare (α := String) h3
    subst e1; subst e2; subst e3; rfl

/-- The parts of a key, separated by slashes. -/
def toText (k : Key) : String := k.space.name ++ "/" ++ k.kind.name ++ "/" ++ k.name

end Key

/-- The named values of an entity. -/
abbrev Properties := SortedMap String NativeValue

/-- A document of the store. -/
structure Entity where
  key : Key
  properties : Properties
  deriving DecidableEq

namespace Entity

instance : Inhabited Entity := ⟨⟨default, ∅⟩⟩

/-- The value of a property. -/
def get? (e : Entity) (property : String) : Option NativeValue := e.properties.get? property

/-- The same entity without its properties. -/
def keyOnly (e : Entity) : Entity := ⟨e.key, ∅⟩

end Entity

end DocumentStore
