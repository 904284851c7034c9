set_option autoImplicit false

/-!
# Decimal numerals

Reading whole numbers of a bounded range from text.  Digits are the ten ASCII ones, leading zeros
and a plus sign are allowed, and a numeral outside the range is refused rather than wrapped.
-/

namespace DocumentStore.Text

/-- The value of an ASCII digit. -/
def digitValue? (c : Char) : Option Nat :=
  if '0' ≤ c ∧ c ≤ '9' then some (c.toNat - '0'.toNat) else none

/-- The value of a text of digits read after a number `acc`. -/
def digitsFrom (acc : Nat) : List Char → Option Nat
  | [] => some acc
  | c :: rest =>
    match digitValue? c with
    | some d => digitsFrom (acc * 10 + d) rest
    | none => none

/-- The value of a non-empty text of digits. -/
def digits? : List Char → Option Nat
  | [] => none
  | s => digitsFrom 0 s

/-- One more than the largest number of an unsigned 64-bit word. -/
def wordBound : Nat := Nat.pow 2 64

/-- One more than the largest number of a signed 64-bit word. -/
def signedBound : Nat := Nat.pow 2 63

/-- A number below `2 ^ 64`: digits, after an optional plus sign. -/
def natural? (s : List Char) : Option Nat :=
  let digits := match s with
    | '+' :: rest => digits? rest
    | s => digits? s
  digits.filter (· < wordBound)

/-- A whole number from `-2 ^ 63` up to `2 ^ 63 - 1`: digits, after an optional sign. -/
def integer? (s : List Char) : Option Int :=
  let value : Option Int := match s with
    | '+' :: rest => (digits? rest).map Int.ofNat
    | '-' :: rest => (digits? rest).map fun n => -Int.ofNat n
    | s => (digits? s).map Int.ofNat
  value.filter fun n => -Int.ofNat signedBound ≤ n && n < Int.ofNat signedBound

/-- A number with at least `width` digits, zeros put in front. -/
def padded (width n : Nat) : String :=
  let digits := Nat.toDigits 10 n
  String.ofList (List.replicate (width - digits.length) '0' ++ digits)

end DocumentStore.Text
