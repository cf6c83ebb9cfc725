import FixtureLiterals.Binary64.Shortest
import FixtureLiterals.Text.Numeral

/-!
# Written floats

A finite float is written with its shortest digits, either positionally, with zeros
filled in up to the decimal point, or in scientific notation, with one digit before
the point and a power of ten behind. Where one gives way to the other, and how each
is spelled, is the decision of a layout. Three layouts are in use: one for source
text, one for documents and one for messages.
-/

namespace FixtureLiterals.Binary64

/-- How finite floats are written. -/
structure Layout where
  /-- The decimals of these orders are written positionally. -/
  isPositional : Int → Bool
  /-- Whether a number without a fraction is written with `.0`. -/
  keepsFraction : Bool
  /-- Whether a power of ten that is not negative is written with a plus sign. -/
  plusSign : Bool
  /-- Which of two equally near decimals is taken. -/
  tie : Tie

/-- The digits before the decimal point. -/
def wholeDigits (decimal : Decimal) : List Char :=
  if decimal.order < 0 then ['0']
  else (decimal.digits.take (decimal.order.toNat + 1)).rightpad (decimal.order.toNat + 1) '0'

/-- The digits behind the decimal point. -/
def fractionDigits (decimal : Decimal) : List Char :=
  if decimal.order < 0 then List.replicate ((-decimal.order).toNat - 1) '0' ++ decimal.digits
  else decimal.digits.drop (decimal.order.toNat + 1)

/-- A decimal with all its places written out. -/
def positional (keepsFraction negative : Bool) (decimal : Decimal) : Text.Numeral where
  negative := negative
  whole := wholeDigits decimal
  fraction :=
    let fraction := fractionDigits decimal
    if fraction.isEmpty && keepsFraction then ['0'] else fraction
  exponent := none

/-- A decimal with one digit before the point and a power of ten. -/
def scientific (plusSign negative : Bool) (decimal : Decimal) : Text.Numeral where
  negative := negative
  whole := decimal.digits.take 1
  fraction := decimal.digits.drop 1
  exponent := some {
    sign := if decimal.order < 0 then .minus else if plusSign then .plus else .omitted
    digits := Nat.toDigits 10 decimal.order.natAbs
  }

/-- The numeral of a finite float. A zero counts as one whole digit. -/
def numeral (layout : Layout) (float : Binary64) : Text.Numeral :=
  let decimal := if float.isZero then ⟨['0'], 0⟩ else shortest layout.tie float
  if layout.isPositional decimal.order then
    positional layout.keepsFraction float.isNegative decimal
  else scientific layout.plusSign float.isNegative decimal

/-- The text of a finite float. -/
def text (layout : Layout) (float : Binary64) : String := (numeral layout float).text

/-- Source text is positional from `0.0001` up to sixteen whole digits, and always
has a fraction or a power of ten, so that it reads as a float. -/
def sourceLayout : Layout where
  isPositional order := decide (-4 ≤ order ∧ order < 16)
  keepsFraction := true
  plusSign := false
  tie := .upward

/-- Documents are positional from `0.00001` up to sixteen whole digits, and write the
sign of every power of ten. -/
def documentLayout : Layout where
  isPositional order := decide (-5 ≤ order ∧ order < 16)
  keepsFraction := true
  plusSign := true
  tie := .toEven

/-- Messages are always positional and add nothing to a whole number. -/
def messageLayout : Layout where
  isPositional _ := true
  keepsFraction := false
  plusSign := false
  tie := .upward

end FixtureLiterals.Binary64
