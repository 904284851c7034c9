set_option autoImplicit false

/-!
# Binary floating point, exactly

A floating-point number is its bits.  A finite magnitude is a significand times a power of two, and
rounding a quotient of natural numbers to the nearest magnitude, ties to the even significand, is
done in exact arithmetic.  Doubles and singles share the definitions through `BinaryFormat`.
-/

namespace DocumentStore.Number

/-- The width of significand and exponent of a binary interchange format. -/
structure BinaryFormat where
  precision : Nat
  exponentBits : Nat
  deriving DecidableEq, Repr, Inhabited

/-- Double precision. -/
def binary64 : BinaryFormat := ⟨53, 11⟩

/-- Single precision. -/
def binary32 : BinaryFormat := ⟨24, 8⟩

/-- The quotient rounded to the nearest whole number, a half to the even one. -/
def roundHalfEven (num den : Nat) : Nat :=
  let q := num / den
  match compare (2 * (num % den)) den with
  | .lt => q
  | .eq => if q % 2 = 0 then q else q + 1
  | .gt => q + 1

namespace BinaryFormat

variable (f : BinaryFormat)

/-- The number of significand values of one exponent. -/
def binade : Nat := Nat.pow 2 (f.precision - 1)

/-- The value of the sign bit. -/
def signBit : Nat := Nat.pow 2 (f.precision + f.exponentBits - 1)

/-- The magnitude of infinity; a larger one is not a number. -/
def infinity : Nat := (Nat.pow 2 f.exponentBits - 1) * f.binade

/-- The exponent of the smallest positive magnitude. -/
def leastExponent : Int := 3 - Int.ofNat (Nat.pow 2 (f.exponentBits - 1)) - Int.ofNat f.precision

/-- A finite magnitude as significand and exponent of two. -/
def parts (magnitude : Nat) : Nat × Int :=
  let exponent := magnitude / f.binade
  let fraction := magnitude % f.binade
  if exponent = 0 then (fraction, f.leastExponent)
  else (fraction + f.binade, f.leastExponent + exponent - 1)

/-- The magnitude nearest to `num / den`, ties to even; infinity beyond the finite ones. -/
def nearest (num den : Nat) : Nat :=
  if num = 0 then 0
  else
    let estimate : Int := Int.ofNat num.log2 - Int.ofNat den.log2
    let below := num * Nat.pow 2 (-estimate).toNat < den * Nat.pow 2 estimate.toNat
    let leading := if below then estimate - 1 else estimate
    let unit := max (leading - (f.precision - 1 : Nat)) f.leastExponent
    let significand :=
      roundHalfEven (num * Nat.pow 2 (-unit).toNat) (den * Nat.pow 2 unit.toNat)
    min ((unit - f.leastExponent).toNat * f.binade + significand) f.infinity

end BinaryFormat

/-- The quotient of natural numbers that a significand and an exponent of two stand for. -/
def ratio (significand : Nat) (exponent : Int) : Nat × Nat :=
  (significand * Nat.pow 2 exponent.toNat, Nat.pow 2 (-exponent).toNat)

end DocumentStore.Number

namespace DocumentStore

open Number

/-- A double-precision number, as its bits. -/
structure Double where
  bits : UInt64
  deriving DecidableEq, Repr, Inhabited

namespace Double

/-- Whether the sign bit is set. -/
def isNegative (x : Double) : Bool := decide (binary64.signBit ≤ x.bits.toNat)

/-- The bits below the sign. -/
def magnitude (x : Double) : Nat := x.bits.toNat % binary64.signBit

/-- A number from its sign and magnitude. -/
def ofMagnitude (negative : Bool) (magnitude : Nat) : Double :=
  ⟨UInt64.ofNat (if negative then binary64.signBit + magnitude else magnitude)⟩

/-- The number nearest to a signed quotient. -/
def nearest (negative : Bool) (num den : Nat) : Double :=
  ofMagnitude negative (binary64.nearest num den)

/-- The number nearest to a whole number. -/
def ofInt (n : Int) : Double := nearest (decide (n < 0)) n.natAbs 1

/-- Positive zero. -/
def zero : Double := ⟨0⟩

/-- Whether the bits are those of infinity, of either sign. -/
def isInfinite (x : Double) : Bool := x.magnitude == binary64.infinity

/-- Whether the bits stand for no number. -/
def isNaN (x : Double) : Bool := decide (binary64.infinity < x.magnitude)

/-- The place of a number in the total order of all bit patterns: negative ones first, larger
magnitudes further from zero, and negative zero just below zero. -/
def rank (x : Double) : Int :=
  if x.isNegative then -(Int.ofNat x.magnitude) - 1 else Int.ofNat x.magnitude

instance : Ord Double := ⟨compareOn rank⟩

end Double

/-- A single-precision number, as its bits. -/
structure Single where
  bits : UInt32
  deriving DecidableEq, Repr, Inhabited

namespace Single

/-- Whether the sign bit is set. -/
def isNegative (x : Single) : Bool := decide (binary32.signBit ≤ x.bits.toNat)

/-- The bits below the sign. -/
def magnitude (x : Single) : Nat := x.bits.toNat % binary32.signBit

/-- The number nearest to a signed quotient. -/
def nearest (negative : Bool) (num den : Nat) : Single :=
  let magnitude := binary32.nearest num den
  ⟨UInt32.ofNat (if negative then binary32.signBit + magnitude else magnitude)⟩

/-- The same number in double precision; what is not a number becomes a quiet one. -/
def toDouble (x : Single) : Double :=
  if binary32.infinity < x.magnitude then
    let fraction := x.magnitude % binary32.binade
    let quiet := binary64.binade / 2
    .ofMagnitude x.isNegative
      (binary64.infinity + ((fraction * (binary64.binade / binary32.binade)) ||| quiet))
  else if x.magnitude = binary32.infinity then .ofMagnitude x.isNegative binary64.infinity
  else
    let (significand, exponent) := binary32.parts x.magnitude
    let (num, den) := ratio significand exponent
    .nearest x.isNegative num den

/-- The single-precision number nearest to a double. -/
def ofDouble (x : Double) : Single :=
  if binary64.infinity ≤ x.magnitude then
    ⟨UInt32.ofNat ((if x.isNegative then binary32.signBit else 0) + binary32.infinity +
      (if x.isNaN then binary32.binade / 2 else 0))⟩
  else
    let (significand, exponent) := binary64.parts x.magnitude
    let (num, den) := ratio significand exponent
    nearest x.isNegative num den

end Single

end DocumentStore
