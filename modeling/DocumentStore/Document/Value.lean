import DocumentStore.Number.Shortest
import DocumentStore.Text.Quoted
import DocumentStore.Time.Timestamp
set_option autoImplicit false

/-!
# Stored values

What the store keeps in a property.  Two orders compare stored values: filters compare values of one
type only, while sorting places every value, types ranked

  null < integer and timestamp < boolean < blob < string < double

with an integer and a timestamp compared as microseconds.
-/

namespace DocumentStore

/-- A value as the store keeps it. -/
inductive NativeValue where
  | null
  | boolean (b : Bool)
  | integer (n : Int)
  | double (x : Double)
  | string (s : String)
  | blob (bytes : List UInt8)
  | timestamp (t : Timestamp)
  deriving DecidableEq, Repr, Inhabited

namespace NativeValue

/-- The place of a value's type when values of different types are sorted. -/
def rank : NativeValue → Nat
  | .null => 0
  | .integer _ => 1
  | .timestamp _ => 1
  | .boolean _ => 2
  | .blob _ => 3
  | .string _ => 4
  | .double _ => 5

/-- The comparison of filters: defined for values of one type only. -/
def compare? : NativeValue → NativeValue → Option Ordering
  | .null, .null => some .eq
  | .boolean a, .boolean b => some (compare a b)
  | .integer a, .integer b => some (compare a b)
  | .double a, .double b => some (compare a b)
  | .string a, .string b => some (compare a b)
  | .blob a, .blob b => some (compare a b)
  | .timestamp a, .timestamp b => some (compare a b)
  | _, _ => none

/-- The comparison of sorting, defined for all values. -/
def order (a b : NativeValue) : Ordering :=
  match compare? a b with
  | some o => o
  | none =>
    match a, b with
    | .integer n, .timestamp t => compare n t.micros
    | .timestamp t, .integer n => compare t.micros n
    | a, b => compare a.rank b.rank

/-! ## Reading one type -/

/-- The text of a string value. -/
def string? : NativeValue → Option String
  | .string s => some s
  | _ => none

/-- The number of an integer value. -/
def integer? : NativeValue → Option Int
  | .integer n => some n
  | _ => none

/-- The truth value of a boolean value. -/
def boolean? : NativeValue → Option Bool
  | .boolean b => some b
  | _ => none

/-- The bytes of a blob value. -/
def blob? : NativeValue → Option (List UInt8)
  | .blob bytes => some bytes
  | _ => none

/-- The instant of a timestamp value. -/
def timestamp? : NativeValue → Option Timestamp
  | .timestamp t => some t
  | _ => none

/-! ## Shown in messages -/

open Number Text

/-- Floating point in messages: positional from `10 ^ -4` to below `10 ^ 16`. -/
def doubleLayout : Layout := ⟨-4, 15, false, .upward⟩

/-- A double in messages. -/
def showDouble (x : Double) : String :=
  if x.isNaN then "NaN"
  else
    (if x.isNegative then "-" else "") ++
      if x.isInfinite then "inf" else renderMagnitude binary64 doubleLayout x.magnitude

/-- A value in messages: its type, with the value in parentheses. -/
def describe : NativeValue → String
  | .null => "Null"
  | .boolean b => "Boolean(" ++ toString b ++ ")"
  | .integer n => "Integer(" ++ toString n ++ ")"
  | .double x => "Double(" ++ showDouble x ++ ")"
  | .string s => "String(" ++ quoted s ++ ")"
  | .blob bytes =>
    "Blob([" ++ String.intercalate ", " (bytes.map fun b => toString b.toNat) ++ "])"
  | .timestamp t => "Timestamp(" ++ t.toText ++ ")"

end NativeValue

end DocumentStore
