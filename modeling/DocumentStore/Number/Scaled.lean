import DocumentStore.Number.Binary
set_option autoImplicit false

/-!
# A number times a power of ten

The double that a decimal numeral denotes is computed in two roundings: the digits to a double, then
one multiplication or division by the double nearest to the power of ten.  Powers beyond `10 ^ 308`
are no doubles; a smaller scale is reached by dividing by `10 ^ 308` first.
-/

namespace DocumentStore

open Number

namespace Double

/-- The finite magnitude of a double as a quotient. -/
def quotient (x : Double) : Nat × Nat :=
  let (significand, exponent) := binary64.parts x.magnitude
  ratio significand exponent

/-- The double nearest to a power of ten. -/
def powerOfTen (n : Nat) : Double := nearest false (Nat.pow 10 n) 1

/-- The rounded product of two magnitudes. -/
def times (x y : Double) : Double :=
  let (a, b) := x.quotient
  let (c, d) := y.quotient
  nearest false (a * c) (b * d)

/-- The rounded quotient of two magnitudes. -/
def dividedBy (x y : Double) : Double :=
  let (a, b) := x.quotient
  let (c, d) := y.quotient
  nearest false (a * d) (b * c)

/-- The greatest power of ten that is a double. -/
def greatestPower : Nat := 308

/-- A magnitude times a power of ten.  Three divisions by the greatest power take every double to
zero, after which the scale has no effect. -/
def scaleBy (x : Double) (exponent : Int) : Nat → Option Double
  | 0 => some x
  | steps + 1 =>
    if exponent.natAbs ≤ greatestPower then
      if 0 ≤ exponent then
        let product := x.times (powerOfTen exponent.natAbs)
        if product.isInfinite then none else some product
      else some (x.dividedBy (powerOfTen exponent.natAbs))
    else if x = zero then some x
    else if 0 ≤ exponent then none
    else scaleBy (x.dividedBy (powerOfTen greatestPower)) (exponent + greatestPower) steps

/-- The magnitude of digits times a power of ten, unless it is beyond the finite ones. -/
def scaled (digits : Nat) (exponent : Int) : Option Double :=
  (nearest false digits 1).scaleBy exponent 4

end Double

end DocumentStore
