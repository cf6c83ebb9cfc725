/-!
# Numerals

A numeral is a written decimal number, taken apart: its sign, the digits before and
behind the decimal point, and a power of ten. Documents are read into numerals and
numbers are laid out as numerals, so that both sides share one notion of a number's
text. Integers, code points, bytes and bit patterns also have plain texts of their
own, in decimal or lower-case hexadecimal.
-/

namespace FixtureLiterals.Text

/-- A natural number in decimal, without leading zeros. -/
def decimal (number : Nat) : String := String.ofList (Nat.toDigits 10 number)

/-- An integer in decimal, with a minus sign in front of a negative one. -/
def signedDecimal : Int → String
  | .ofNat number => decimal number
  | .negSucc predecessor => "-" ++ decimal (predecessor + 1)

/-- A natural number in lower-case hexadecimal. -/
def hexadecimal (number : Nat) : String := String.ofList (Nat.toDigits 16 number)

/-- A natural number in lower-case hexadecimal, padded with zeros to a width. It is
never cut. -/
def paddedHexadecimal (width number : Nat) : String :=
  String.ofList ((Nat.toDigits 16 number).leftpad width '0')

/-- The sign in front of a power of ten, which may be left out. -/
inductive ExponentSign where
  | omitted
  | plus
  | minus
deriving DecidableEq, Repr

/-- The characters of an exponent's sign. -/
def ExponentSign.characters : ExponentSign → List Char
  | .omitted => []
  | .plus => ['+']
  | .minus => ['-']

/-- A written power of ten. -/
structure Exponent where
  sign : ExponentSign
  digits : List Char
deriving DecidableEq, Repr

/-- The number that a written power of ten raises to. -/
def Exponent.toInt (exponent : Exponent) : Int :=
  let size : Int := Nat.ofDigitChars 10 exponent.digits 0
  if exponent.sign = .minus then -size else size

/-- A written decimal number. -/
structure Numeral where
  negative : Bool
  /-- The digits before the point. -/
  whole : List Char
  /-- The digits behind the point; there is no point where there are none. -/
  fraction : List Char
  exponent : Option Exponent
deriving DecidableEq, Repr

namespace Numeral

/-- The characters of a numeral. -/
def characters (numeral : Numeral) : List Char :=
  (if numeral.negative then ['-'] else []) ++ numeral.whole ++
    (if numeral.fraction.isEmpty then [] else '.' :: numeral.fraction) ++
    (match numeral.exponent with
      | none => []
      | some exponent => 'e' :: exponent.sign.characters ++ exponent.digits)

/-- The text of a numeral. -/
def text (numeral : Numeral) : String := String.ofList numeral.characters

/-- The numeral of an integer. -/
def ofInt (number : Int) : Numeral where
  negative := decide (number < 0)
  whole := Nat.toDigits 10 number.natAbs
  fraction := []
  exponent := none

/-- All digits as one integer, regardless of the point. -/
def significand (numeral : Numeral) : Nat :=
  Nat.ofDigitChars 10 (numeral.whole ++ numeral.fraction) 0

/-- The power of ten that scales the significand. -/
def scale (numeral : Numeral) : Int :=
  (match numeral.exponent with
    | none => 0
    | some exponent => exponent.toInt) - numeral.fraction.length

/-- The integer that a numeral stands for, if it is written as one. A fraction or a
power of ten makes a numeral a float even where its value is whole, and so does a
minus sign in front of zero. -/
def integer? (numeral : Numeral) : Option Int :=
  if numeral.fraction.isEmpty && numeral.exponent.isNone &&
      !(numeral.negative && numeral.significand == 0) then
    some (if numeral.negative then -(numeral.significand : Int) else numeral.significand)
  else none

end Numeral

end FixtureLiterals.Text
