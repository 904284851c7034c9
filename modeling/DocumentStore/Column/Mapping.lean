import DocumentStore.Fault
set_option autoImplicit false

/-!
# How columns are stored

A registry from value types to the functions that turn a column value into a stored one.  The
built-in functions store each type in its own way and refuse values of others; a registered function
replaces the one before it.  A value with a type name is stored by the function for that name, if
there is one, and by that of its general type otherwise.
-/

namespace DocumentStore

/-- A way to store column values. -/
abbrev TypeMapping := ColumnValue → Outcome NativeValue

namespace TypeMapping

/-- The refusal of a value of another type. -/
def mismatch (expected : ValueType) (actual : ColumnValue) : StorageError :=
  .configuration ("mapping for " ++ expected.describe ++ " received a " ++
    actual.valueType.describe ++ " value")

/-- The built-in way to store values of a type. -/
def builtin? (type : ValueType) : Option TypeMapping :=
  match type with
  | .null => some fun _ => .ok .null
  | .text => some fun
    | .text s => .ok (.string s)
    | v => .error (mismatch type v)
  | .int32 => some fun
    | .int32 n => .ok (.integer n)
    | v => .error (mismatch type v)
  | .int64 => some fun
    | .int64 n => .ok (.integer n)
    | v => .error (mismatch type v)
  | .float32 => some fun
    | .float32 x => .ok (.double x.toDouble)
    | v => .error (mismatch type v)
  | .float64 => some fun
    | .float64 x => .ok (.double x)
    | v => .error (mismatch type v)
  | .bool => some fun
    | .bool b => .ok (.boolean b)
    | v => .error (mismatch type v)
  | .bytes => some fun
    | .bytes b => .ok (.blob b)
    | v => .error (mismatch type v)
  | .enumeration => some fun
    | .enumeration _ ordinal => .ok (.integer ordinal)
    | v => .error (mismatch type v)
  | .message => some fun
    | .message _ value => .ok (.string value.render)
    | v => .error (mismatch type v)
  | .timestamp => some fun
    | .timestamp t => .ok (.timestamp t)
    | v => .error (mismatch type v)
  | .named _ => none

end TypeMapping

/-- The ways to store each type. -/
structure ColumnMapping where
  find? : ValueType → Option TypeMapping

namespace ColumnMapping

/-- The registry of the built-in ways. -/
def builtin : ColumnMapping := ⟨TypeMapping.builtin?⟩

instance : Inhabited ColumnMapping := ⟨builtin⟩

/-- The registry in which values of `type` are stored by `mapping`. -/
def register (m : ColumnMapping) (type : ValueType) (mapping : TypeMapping) : ColumnMapping :=
  ⟨fun t => if t = type then some mapping else m.find? t⟩

/-- The way to store values of a type. -/
def of (m : ColumnMapping) (type : ValueType) : Outcome TypeMapping :=
  match m.find? type with
  | some mapping => .ok mapping
  | none => .error (.unmappedColumnType type)

/-- The stored form of a value. -/
def apply (m : ColumnMapping) (v : ColumnValue) : Outcome NativeValue :=
  match v.namedType?.bind m.find? with
  | some mapping => mapping v
  | none => do (← m.of v.valueType) v

end ColumnMapping

end DocumentStore
