import DocumentStore.Document.Entity
import DocumentStore.Text.Base64
import DocumentStore.Text.Numeral
set_option autoImplicit false

/-!
# What the store can be asked

A query names one namespace and kind, and has at most one conjunctive filter, a list of sort keys, a
limit, and a cursor at which an earlier query stopped.  Its answer is one page.
-/

namespace DocumentStore

/-- The comparisons the store evaluates itself. -/
inductive FilterOp where
  | equal
  | greaterThan
  | lessThan
  | greaterThanOrEqual
  | lessThanOrEqual
  deriving DecidableEq, Repr, Inhabited

namespace FilterOp

/-- Whether a comparison result satisfies the operator. -/
def accepts : FilterOp → Ordering → Bool
  | .equal, o => o == .eq
  | .greaterThan, o => o == .gt
  | .lessThan, o => o == .lt
  | .greaterThanOrEqual, o => o != .lt
  | .lessThanOrEqual, o => o != .gt

/-- The name of the operator. -/
def name : FilterOp → String
  | .equal => "Equal"
  | .greaterThan => "GreaterThan"
  | .lessThan => "LessThan"
  | .greaterThanOrEqual => "GreaterThanOrEqual"
  | .lessThanOrEqual => "LessThanOrEqual"

end FilterOp

/-- A condition on one property. -/
structure PropertyFilter where
  property : String
  op : FilterOp
  value : NativeValue
  deriving DecidableEq, Repr, Inhabited

namespace PropertyFilter

/-- Whether the entity has the property, with a value of the filter's type that the operator accepts
in comparison with the filter's value. -/
def holds (f : PropertyFilter) (e : Entity) : Bool :=
  match (e.get? f.property).bind (·.compare? f.value) with
  | some o => f.op.accepts o
  | none => false

/-- The filter as messages show it. -/
def describe (f : PropertyFilter) : String :=
  f.property ++ " " ++ f.op.name ++ " " ++ f.value.describe

end PropertyFilter

/-- Conditions that all have to hold. -/
structure ConjunctiveFilter where
  filters : List PropertyFilter
  deriving DecidableEq, Repr, Inhabited

namespace ConjunctiveFilter

/-- Whether every condition holds of the entity. -/
def holds (f : ConjunctiveFilter) (e : Entity) : Bool := f.filters.all (·.holds e)

/-- The filter as messages show it. -/
def describe (f : ConjunctiveFilter) : String :=
  String.intercalate " AND " (f.filters.map (·.describe))

end ConjunctiveFilter

/-- The direction of a sort key. -/
inductive Direction where
  | ascending
  | descending
  deriving DecidableEq, Repr, Inhabited

/-- A property to sort by. -/
structure SortKey where
  property : String
  direction : Direction
  deriving DecidableEq, Repr, Inhabited

namespace SortKey

/-- The value an entity is sorted by; a missing property sorts as null. -/
def value (k : SortKey) (e : Entity) : NativeValue := (e.get? k.property).getD .null

/-- The comparison of two entities by one sort key. -/
def compare (k : SortKey) (a b : Entity) : Ordering :=
  match k.direction with
  | .ascending => (k.value a).order (k.value b)
  | .descending => (k.value b).order (k.value a)

/-- The comparison of two entities by sort keys in turn. -/
def compareAll : List SortKey → Entity → Entity → Ordering
  | [], _, _ => .eq
  | k :: rest, a, b => (k.compare a b).then (compareAll rest a b)

end SortKey

/-- A place in the results of a query, as a text that callers pass on unread. -/
structure Cursor where
  token : String
  deriving DecidableEq, Repr, Inhabited

namespace Cursor

open Text

/-- What a token says before the offset. -/
def label : List Char := "offset:".toList

/-- The bytes of ASCII characters. -/
def asciiBytes (s : List Char) : List UInt8 := s.map fun c => UInt8.ofNat c.toNat

/-- The characters of bytes that are all ASCII. -/
def asciiChars? (bytes : List UInt8) : Option (List Char) :=
  if bytes.all (· < 128) then some (bytes.map fun b => Char.ofNat b.toNat) else none

/-- The cursor after a number of results. -/
def ofOffset (n : Nat) : Cursor :=
  ⟨String.ofList (Base64.encode (asciiBytes (label ++ Nat.toDigits 10 n)))⟩

/-- The number of results before a cursor, if the token says one. -/
def offset? (c : Cursor) : Option Nat := do
  let bytes ← Base64.decode c.token.toList
  let chars ← asciiChars? bytes
  let digits ← label.isPrefixOf? chars
  natural? digits

end Cursor

/-- A query for the entities of one namespace and kind. -/
structure EntityQuery where
  space : Namespace
  kind : Kind
  filter : Option ConjunctiveFilter
  order : List SortKey
  limit : Option Nat
  start : Option Cursor
  keysOnly : Bool
  deriving DecidableEq, Repr, Inhabited

namespace EntityQuery

/-- Every entity of a namespace and kind. -/
def all (space : Namespace) (kind : Kind) : EntityQuery :=
  { space, kind, filter := none, order := [], limit := none, start := none, keysOnly := false }

/-- Whether the query asks for the entity. -/
def selects (q : EntityQuery) (e : Entity) : Bool :=
  e.key.space == q.space && e.key.kind == q.kind && q.filter.all (·.holds e)

/-- The query as messages show it. -/
def describe (q : EntityQuery) : String :=
  "kind=" ++ q.kind.name ++ " namespace=" ++ Text.quoted q.space.name ++
    match q.filter with
    | some f => " filter=[" ++ f.describe ++ "]"
    | none => ""

end EntityQuery

/-- One answer of the store to a query. -/
structure Page where
  entities : List Entity
  endCursor : Option Cursor
  /-- Whether results remain after this page. -/
  more : Bool
  deriving DecidableEq, Inhabited

end DocumentStore
