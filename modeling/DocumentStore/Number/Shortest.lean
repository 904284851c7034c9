import DocumentStore.Number.Binary
set_option autoImplicit false

/-!
# The fewest decimal digits that read back

A finite magnitude is written with the fewest significant digits whose value rounds back to it, and
of the texts of that length with the one nearest to it.  The search tries the grids of 1, 2, …
digits; on each only the two grid points around the magnitude can lie in the interval of the numbers
that round to it.
-/

namespace DocumentStore.Number

/-- What is written when two texts of equal length are equally near. -/
inductive Tie where
  /-- The one whose last digit is even. -/
  | toEven
  /-- The larger one. -/
  | upward
  deriving DecidableEq, Repr, Inhabited

/-- A magnitude and the ends of the interval that rounds to it, over one denominator. -/
structure Rounding where
  low : Nat
  value : Nat
  high : Nat
  denominator : Nat
  /-- Whether the ends round to the magnitude too. -/
  closed : Bool
  deriving DecidableEq, Repr, Inhabited

namespace Rounding

/-- The interval of a positive finite magnitude.  Below a power of two the magnitudes are closer. -/
def ofMagnitude (f : BinaryFormat) (magnitude : Nat) : Rounding :=
  let (significand, exponent) := f.parts magnitude
  let narrow := significand = f.binade ∧ f.leastExponent < exponent
  let (scale, denominator) := ratio 1 (exponent - 2)
  { low := (4 * significand - if narrow then 1 else 2) * scale
    value := 4 * significand * scale
    high := (4 * significand + 2) * scale
    denominator := denominator
    closed := significand % 2 = 0 }

/-- The power of ten just above the magnitude. -/
def place (r : Rounding) : Int :=
  if r.denominator ≤ r.value then (Nat.toDigits 10 (r.value / r.denominator)).length
  else 1 - Int.ofNat (Nat.toDigits 10 ((r.denominator - 1) / r.value)).length

/-- Whether `n` steps of a grid, one step being `step / unit`, round to the magnitude. -/
def holds (r : Rounding) (unit step n : Nat) : Bool :=
  if r.closed then r.low * unit ≤ n * step && n * step ≤ r.high * unit
  else r.low * unit < n * step && n * step < r.high * unit

/-- The grid point at exponent `exponent` that is written, if one reads back. -/
def pick? (r : Rounding) (tie : Tie) (exponent : Int) : Option Nat :=
  let unit := Nat.pow 10 (-exponent).toNat
  let step := r.denominator * Nat.pow 10 exponent.toNat
  let below := r.value * unit / step
  match r.holds unit step below, r.holds unit step (below + 1) with
  | false, false => none
  | true, false => some below
  | false, true => some (below + 1)
  | true, true =>
    match compare (2 * (r.value * unit)) ((2 * below + 1) * step) with
    | .lt => some below
    | .gt => some (below + 1)
    | .eq =>
      match tie with
      | .upward => some (below + 1)
      | .toEven => some (if below % 2 = 0 then below else below + 1)

/-- The first grid with a point that reads back, from `exponent` on down over `count` grids. -/
def search (r : Rounding) (tie : Tie) : Nat → Int → Nat × Int
  | 0, exponent =>
    let step := r.denominator * Nat.pow 10 exponent.toNat
    (r.value * Nat.pow 10 (-exponent).toNat / step, exponent)
  | count + 1, exponent =>
    match r.pick? tie exponent with
    | some n => (n, exponent)
    | none => search r tie count (exponent - 1)

end Rounding

/-- Significant digits without trailing zeros, and the power of ten of the first. -/
structure Scientific where
  digits : List Char
  exponent : Int
  deriving DecidableEq, Repr, Inhabited

/-- The number of digits that always suffices. -/
def BinaryFormat.digitBound (f : BinaryFormat) : Nat := f.precision * 3 / 10 + 2

/-- The shortest digits of a positive finite magnitude. -/
def shortest (f : BinaryFormat) (tie : Tie) (magnitude : Nat) : Scientific :=
  let r := Rounding.ofMagnitude f magnitude
  let (n, exponent) := r.search tie f.digitBound (r.place - 1)
  let digits := Nat.toDigits 10 n
  { digits := (digits.reverse.dropWhile (· == '0')).reverse
    exponent := exponent + digits.length - 1 }

/-- How a text lays digits out: which exponents are written positionally, and whether a positive
exponent has a sign. -/
structure Layout where
  leastPositional : Int
  greatestPositional : Int
  plusSign : Bool
  tie : Tie
  deriving DecidableEq, Repr, Inhabited

/-- The text of digits in a layout; positional text has at least one digit after the point. -/
def Scientific.render (s : Scientific) (layout : Layout) : String :=
  let count := s.digits.length
  if layout.leastPositional ≤ s.exponent ∧ s.exponent ≤ layout.greatestPositional then
    if s.exponent < 0 then
      "0." ++ String.ofList (List.replicate ((-s.exponent).toNat - 1) '0' ++ s.digits)
    else
      let whole := s.exponent.toNat + 1
      if count ≤ whole then
        String.ofList (s.digits ++ List.replicate (whole - count) '0') ++ ".0"
      else String.ofList (s.digits.take whole) ++ "." ++ String.ofList (s.digits.drop whole)
  else
    let mantissa := match s.digits with
      | [] => ""
      | [d] => d.toString
      | d :: rest => d.toString ++ "." ++ String.ofList rest
    let sign := if s.exponent < 0 then "-" else if layout.plusSign then "+" else ""
    mantissa ++ "e" ++ sign ++ toString s.exponent.natAbs

/-- The text of a finite magnitude. -/
def renderMagnitude (f : BinaryFormat) (layout : Layout) (magnitude : Nat) : String :=
  if magnitude = 0 then "0.0" else (shortest f layout.tie magnitude).render layout

end DocumentStore.Number
