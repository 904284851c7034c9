import DocumentStore.Document.Value
import DocumentStore.Json.Basic
set_option autoImplicit false

/-!
# Column values

A record's columns hold typed values as callers give them.  An enumeration constant, a message and
a custom value also carry the name of their own type.
-/

namespace DocumentStore

/-- A typed value of a column. -/
inductive ColumnValue where
  | null
  | text (s : String)
  | int32 (n : Int)
  | int64 (n : Int)
  | float32 (x : Single)
  | float64 (x : Double)
  | bool (b : Bool)
  | bytes (b : List UInt8)
  /-- An enumeration constant, by its ordinal. -/
  | enumeration (typeName : String) (ordinal : Int)
  /-- An embedded structured value. -/
  | message (typeName : String) (value : Json)
  | timestamp (t : Timestamp)
  /-- A value of a type that only a registered mapping can store. -/
  | custom (typeName : String) (value : Json)
  deriving Repr, Inhabited

/-- The type of a column value, by which its mapping is found. -/
inductive ValueType where
  | null
  | text
  | int32
  | int64
  | float32
  | float64
  | bool
  | bytes
  | enumeration
  | message
  | timestamp
  /-- One particular enumeration, message or custom type. -/
  | named (name : String)
  deriving DecidableEq, Repr, Inhabited

/-- The type as messages show it. -/
def ValueType.describe : ValueType → String
  | .null => "Null"
  | .text => "Text"
  | .int32 => "Int32"
  | .int64 => "Int64"
  | .float32 => "Float32"
  | .float64 => "Float64"
  | .bool => "Bool"
  | .bytes => "Bytes"
  | .enumeration => "Enum"
  | .message => "Message"
  | .timestamp => "Timestamp"
  | .named name => name

namespace ColumnValue

/-- The general type of a value. -/
def valueType : ColumnValue → ValueType
  | .null => .null
  | .text _ => .text
  | .int32 _ => .int32
  | .int64 _ => .int64
  | .float32 _ => .float32
  | .float64 _ => .float64
  | .bool _ => .bool
  | .bytes _ => .bytes
  | .enumeration _ _ => .enumeration
  | .message _ _ => .message
  | .timestamp _ => .timestamp
  | .custom name _ => .named name

/-- The particular type of a value that carries a type name. -/
def namedType? : ColumnValue → Option ValueType
  | .enumeration name _ => some (.named name)
  | .message name _ => some (.named name)
  | .custom name _ => some (.named name)
  | _ => none

/-- The column value that a stored value reads back as. -/
def ofNative : NativeValue → ColumnValue
  | .null => .null
  | .boolean b => .bool b
  | .integer n => .int64 n
  | .double x => .float64 x
  | .string s => .text s
  | .blob b => .bytes b
  | .timestamp t => .timestamp t

end ColumnValue

end DocumentStore
