import DocumentStore.Number.Shortest
import DocumentStore.Sorted.Map
set_option autoImplicit false

/-!
# JSON values and their canonical text

A value's object members are listed in ascending key order, each key once, so equal values have
equal texts.  The canonical text has no blanks; numbers keep whether they were written as whole
numbers or as floating point.
-/

namespace DocumentStore

open Number

/-- A JSON number: a whole number of 64 bits, or a double. -/
inductive JsonNumber where
  /-- From 0 up to `2 ^ 64 - 1`. -/
  | natural (n : Nat)
  /-- From `-2 ^ 63` up to -1. -/
  | negative (n : Int)
  | float (x : Double)
  deriving DecidableEq, Repr, Inhabited

/-- A JSON value. -/
inductive Json where
  | null
  | boolean (b : Bool)
  | number (n : JsonNumber)
  | text (s : String)
  | array (items : List Json)
  | object (members : List (String × Json))
  deriving Repr, Inhabited

namespace Json

/-- Floating point in JSON: positional from `10 ^ -5` to below `10 ^ 16`, a signed exponent
elsewhere. -/
def doubleLayout : Layout := ⟨-5, 15, true, .toEven⟩

/-- Single precision is positional from `10 ^ -6` to below `10 ^ 13`. -/
def singleLayout : Layout := ⟨-6, 12, true, .toEven⟩

/-- The text of a double; what is not a finite number is `null`. -/
def doubleText (x : Double) : String :=
  if binary64.infinity ≤ x.magnitude then "null"
  else (if x.isNegative then "-" else "") ++ renderMagnitude binary64 doubleLayout x.magnitude

/-- The text of a single-precision number. -/
def singleText (x : Single) : String :=
  if binary32.infinity ≤ x.magnitude then "null"
  else (if x.isNegative then "-" else "") ++ renderMagnitude binary32 singleLayout x.magnitude

/-- The text of a number. -/
def numberText : JsonNumber → String
  | .natural n => toString n
  | .negative n => toString n
  | .float x => doubleText x

/-- A digit of an escape, in lower case. -/
def hexDigit (n : Nat) : String := (Nat.digitChar (n % 16)).toString

/-- A character inside a string. -/
def escapeChar (c : Char) : String :=
  match c with
  | '"' => "\\\""
  | '\\' => "\\\\"
  | '\x08' => "\\b"
  | '\x0c' => "\\f"
  | '\n' => "\\n"
  | '\r' => "\\r"
  | '\t' => "\\t"
  | c =>
    if c.toNat < 0x20 then "\\u00" ++ hexDigit (c.toNat / 16) ++ hexDigit c.toNat
    else c.toString

/-- A string in quotes. -/
def textText (s : String) : String := "\"" ++ String.join (s.toList.map escapeChar) ++ "\""

/-- Items between brackets. -/
def arrayText (items : List String) : String := "[" ++ String.intercalate "," items ++ "]"

/-- Members between braces, in the given order. -/
def objectText (members : List (String × String)) : String :=
  "\x7b" ++ String.intercalate "," (members.map fun m => textText m.1 ++ ":" ++ m.2) ++ "\x7d"

mutual

/-- The text of a value. -/
def render : Json → String
  | .null => "null"
  | .boolean b => if b then "true" else "false"
  | .number n => numberText n
  | .text s => textText s
  | .array items => arrayText (renderItems items)
  | .object members => objectText (renderMembers members)

/-- The texts of the items of an array. -/
def renderItems : List Json → List String
  | [] => []
  | v :: rest => render v :: renderItems rest

/-- The texts of the members of an object. -/
def renderMembers : List (String × Json) → List (String × String)
  | [] => []
  | (k, v) :: rest => (k, render v) :: renderMembers rest

end

/-- The member of an object with a given key. -/
def member? (key : String) : Json → Option Json
  | .object members => (members.find? fun m => m.1 = key).map (·.2)
  | _ => none

/-- The characters of a value that is a string. -/
def text? : Json → Option String
  | .text s => some s
  | _ => none

end Json

end DocumentStore
