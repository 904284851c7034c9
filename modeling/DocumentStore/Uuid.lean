import DocumentStore.Text.Quoted
set_option autoImplicit false

/-!
# Universally unique identifiers

A 128-bit number.  It is written as 32 lower-case hexadecimal digits in groups of 8, 4, 4, 4 and 12;
reading also takes upper-case digits, the digits without hyphens, and the grouped form in braces or
after `urn:uuid:` in any mixture of cases.
-/

namespace DocumentStore

/-- A universally unique identifier. -/
structure Uuid where
  value : BitVec 128
  deriving DecidableEq, Repr, Inhabited

namespace Uuid

/-- The lowest `count` hexadecimal digits of a number, most significant first. -/
def hexDigits : Nat → Nat → List Char
  | 0, _ => []
  | count + 1, n => hexDigits count (n / 16) ++ [Nat.digitChar (n % 16)]

/-- The value of a hexadecimal digit. -/
def hexValue? (c : Char) : Option Nat :=
  if '0' ≤ c ∧ c ≤ '9' then some (c.toNat - '0'.toNat)
  else if 'a' ≤ c ∧ c ≤ 'f' then some (c.toNat - 'a'.toNat + 10)
  else if 'A' ≤ c ∧ c ≤ 'F' then some (c.toNat - 'A'.toNat + 10)
  else none

/-- The number that hexadecimal digits add to the digits before them. -/
def hexFrom (acc : Nat) : List Char → Option Nat
  | [] => some acc
  | c :: rest =>
    match hexValue? c with
    | some d => hexFrom (acc * 16 + d) rest
    | none => none

/-- The five groups of the written form. -/
def toList (u : Uuid) : List Char :=
  let digits (count place : Nat) : List Char := hexDigits count (u.value.toNat / Nat.pow 16 place)
  digits 8 24 ++ '-' :: digits 4 20 ++ '-' :: digits 4 16 ++ '-' :: digits 4 12 ++ '-' :: digits 12 0

/-- The written form. -/
def toText (u : Uuid) : String := String.ofList u.toList

/-- An identifier from its 32 digits. -/
def ofDigits? (digits : List Char) : Option Uuid :=
  if digits.length = 32 then (hexFrom 0 digits).map fun n => ⟨BitVec.ofNat 128 n⟩ else none

/-- An identifier from the grouped form, hyphens after the 8th, 12th, 16th and 20th digit. -/
def ofGroups? (s : List Char) : Option Uuid :=
  if s.length = 36 ∧ s[8]? = some '-' ∧ s[13]? = some '-' ∧ s[18]? = some '-' ∧ s[23]? = some '-' then
    ofDigits? (s.take 8 ++ (s.drop 9).take 4 ++ (s.drop 14).take 4 ++ (s.drop 19).take 4 ++ s.drop 24)
  else none

/-- The name of the scheme in front of an identifier. -/
def scheme : List Char := "urn:uuid:".toList

/-- The grouped form inside its optional wrapping. -/
def unwrap? (s : List Char) : Option (List Char) :=
  match s with
  | '\x7b' :: rest => if rest.getLast? = some '\x7d' then some rest.dropLast else none
  | s =>
    if (s.take scheme.length).map Char.toLower = scheme then some (s.drop scheme.length)
    else some s

/-- Reads any accepted form. -/
def ofText? (s : String) : Option Uuid :=
  let chars := s.toList
  if chars.length = 32 then ofDigits? chars else unwrap? chars >>= ofGroups?

end Uuid

end DocumentStore
