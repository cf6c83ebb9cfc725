import FixtureLiterals.Binary64.Basic

/-!
# The float nearest to a number

A positive rational number is divided by a power of two so that its integer part has
exactly fifty-three bits, or fewer where the exponent can sink no further, and is
then rounded to the nearest integer, a half going to the even neighbour. Counting
patterns upward from zero makes the result uniform: the magnitude of the rounded
number is the rounded integer plus `2 ^ 52` for each step of the exponent, and a
rounding that carries into a new bit arrives at the next exponent by itself.
-/

namespace FixtureLiterals.Binary64

/-- A quotient rounded to the nearest integer; a half goes to the even neighbour. -/
def roundHalfEven (numerator denominator : Nat) : Nat :=
  let quotient := numerator / denominator
  let remainder := numerator % denominator
  if 2 * remainder < denominator then quotient
  else if denominator < 2 * remainder then quotient + 1
  else quotient + quotient % 2

/-- The greatest power of two that does not exceed a positive quotient. The lengths
of the operands leave two candidates, which a comparison decides between. -/
def binade (numerator denominator : Nat) : Int :=
  let estimate : Int := (numerator.log2 : Int) - denominator.log2
  if denominator * Nat.pow 2 estimate.toNat ≤ numerator * Nat.pow 2 (-estimate).toNat then estimate
  else estimate - 1

/-- The magnitude nearest to a quotient. It is not below `infinity` exactly when the
quotient is out of the range of finite floats. -/
def nearestMagnitude (numerator denominator : Nat) : Nat :=
  if numerator = 0 then 0
  else
    let scale := max (binade numerator denominator - 52) (-1074)
    (scale + 1074).toNat * exponentBit +
      roundHalfEven (numerator * Nat.pow 2 (-scale).toNat) (denominator * Nat.pow 2 scale.toNat)

/-- The float nearest to the integer `significand` times a power of ten, with a sign.
A number beyond the finite range has none. The first two tests settle numbers that
are far out of range, whose power of ten would be needlessly large. -/
def ofDecimal? (negative : Bool) (significand : Nat) (exponent : Int) : Option Binary64 :=
  let digits : Int := (Nat.toDigits 10 significand).length
  if significand = 0 ∨ digits + exponent < -323 then some (ofMagnitude negative 0)
  else if 309 < digits + exponent then none
  else
    let magnitude :=
      nearestMagnitude (significand * Nat.pow 10 exponent.toNat) (Nat.pow 10 (-exponent).toNat)
    if magnitude < infinity then some (ofMagnitude negative magnitude) else none

end FixtureLiterals.Binary64
