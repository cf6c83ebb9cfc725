/-!
# Floats as bit patterns

A float is its 64-bit pattern in the binary interchange format: a sign, eleven bits
of exponent and fifty-two bits of fraction. The pattern without the sign is the
float's magnitude. Magnitudes are ordered like the absolute values that they stand
for, then comes infinity, and above it are the patterns that are no number. Zero has
two patterns, and no operation here identifies them.
-/

namespace FixtureLiterals

/-- A float, given by its 64-bit pattern. -/
structure Binary64 where
  bits : UInt64
deriving DecidableEq, Repr

namespace Binary64

/-- The sign bit, which is the highest one: two to the power of 63. -/
def signBit : Nat := 0x8000000000000000

/-- The bit above the fraction, which is the lowest one of the exponent: two to the
power of 52. -/
def exponentBit : Nat := 0x10000000000000

/-- The pattern without the sign bit. -/
def magnitude (float : Binary64) : Nat := float.bits.toNat % signBit

/-- Whether the sign bit is set. -/
def isNegative (float : Binary64) : Bool := decide (signBit ≤ float.bits.toNat)

/-- The magnitude of the infinities: all exponent bits and no fraction bit. -/
def infinity : Nat := 0x7FF * exponentBit

/-- Whether a float is finite. -/
def isFinite (float : Binary64) : Bool := decide (float.magnitude < infinity)

/-- Whether a float is one of the infinities. -/
def isInfinite (float : Binary64) : Bool := decide (float.magnitude = infinity)

/-- Whether a pattern is no number. -/
def isNaN (float : Binary64) : Bool := decide (infinity < float.magnitude)

/-- Whether a float is a zero of either sign. -/
def isZero (float : Binary64) : Bool := decide (float.magnitude = 0)

/-- The float of a sign and a magnitude below the sign bit. -/
def ofMagnitude (negative : Bool) (magnitude : Nat) : Binary64 :=
  ⟨UInt64.ofNat (if negative then signBit + magnitude else magnitude)⟩

/-- The integer that a finite float scales by a power of two. Above the subnormal
numbers it has a leading bit that the pattern leaves out. -/
def significand (float : Binary64) : Nat :=
  if float.magnitude < exponentBit then float.magnitude
  else exponentBit + float.magnitude % exponentBit

/-- The power of two that scales the significand of a finite float. The subnormal
numbers share the power of the least normal ones. -/
def scale (float : Binary64) : Int := (max 1 (float.magnitude / exponentBit) : Nat) - 1075

/-- Numerator of the absolute value of a finite float. -/
def numerator (float : Binary64) : Nat := float.significand * Nat.pow 2 float.scale.toNat

/-- Denominator of the absolute value of a finite float, a power of two. -/
def denominator (float : Binary64) : Nat := Nat.pow 2 (-float.scale).toNat

/-- The magnitude of the greatest finite number of the 32-bit format, which is
`(2 ^ 24 - 1) * 2 ^ 104`. -/
def greatestFloat32 : Nat := 0x47EFFFFFE0000000

/-- Whether a float is finite and beyond every finite number of the 32-bit format.
Since magnitudes are ordered like absolute values, patterns decide it. -/
def exceedsFloat32 (float : Binary64) : Bool :=
  float.isFinite && decide (greatestFloat32 < float.magnitude)

end Binary64

end FixtureLiterals
