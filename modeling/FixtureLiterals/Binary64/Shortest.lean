import FixtureLiterals.Binary64.Nearest

/-!
# The shortest decimal of a float

A float is written with the fewest digits from which it can be read back, and among
the decimals of that length with the one nearest to it. For each length in turn the
two neighbours of the float on the decimal grid of that length are tried, and the
first grid with a neighbour that reads back settles the digits. Seventeen digits are
always enough; behind them stands the float's exact decimal expansion, so that the
result reads back by construction.
-/

namespace FixtureLiterals.Binary64

/-- A positive decimal number: its digits, of which the first is not zero, and the
power of ten of the first digit. -/
structure Decimal where
  digits : List Char
  order : Int
deriving DecidableEq, Repr

/-- Which of two equally near decimals is taken. -/
inductive Tie where
  | upward
  | toEven
deriving DecidableEq, Repr

/-- The decimal `count * 10 ^ exponent`, without zeros at its end. -/
def Decimal.ofCount (count : Nat) (exponent : Int) : Decimal :=
  let digits := Nat.toDigits 10 count
  ⟨(digits.reverse.dropWhile (· == '0')).reverse, exponent + digits.length - 1⟩

/-- The power of ten of the first digit of a positive quotient. -/
def decimalOrder (numerator denominator : Nat) : Int :=
  let estimate : Int :=
    ((Nat.toDigits 10 numerator).length : Int) - (Nat.toDigits 10 denominator).length
  if denominator * Nat.pow 10 estimate.toNat ≤ numerator * Nat.pow 10 (-estimate).toNat then estimate
  else estimate - 1

/-- Whether `count * 10 ^ exponent` is nearer to a magnitude than to any other. -/
def readsBack (magnitude count : Nat) (exponent : Int) : Bool :=
  nearestMagnitude (count * Nat.pow 10 exponent.toNat) (Nat.pow 10 (-exponent).toNat) == magnitude

/-- The neighbour on the grid of multiples of `10 ^ exponent` that represents a
float, if one of the two does. Where both do, the nearer one is taken. -/
def onGrid (tie : Tie) (float : Binary64) (exponent : Int) : Option Nat :=
  let numerator := float.numerator * Nat.pow 10 (-exponent).toNat
  let denominator := float.denominator * Nat.pow 10 exponent.toNat
  let below := numerator / denominator
  let remainder := numerator % denominator
  match readsBack float.magnitude below exponent, readsBack float.magnitude (below + 1) exponent with
  | false, false => none
  | true, false => some below
  | false, true => some (below + 1)
  | true, true =>
    if 2 * remainder < denominator then some below
    else if denominator < 2 * remainder then some (below + 1)
    else
      match tie with
      | .upward => some (below + 1)
      | .toEven => some (below + below % 2)

/-- The exact decimal expansion of a finite float. Each negative power of two turns
into a power of five and a negative power of ten. -/
def exactDecimal (float : Binary64) : Decimal :=
  Decimal.ofCount (float.numerator * Nat.pow 5 (-float.scale).toNat) (min float.scale 0)

/-- Try grids of ever more digits, the next one with `length` digits. -/
def searchGrids (tie : Tie) (float : Binary64) (order : Int) : Nat → Nat → Decimal
  | 0, _ => exactDecimal float
  | attempts + 1, length =>
    let exponent := order - length + 1
    match onGrid tie float exponent with
    | some count => Decimal.ofCount count exponent
    | none => searchGrids tie float order attempts (length + 1)

/-- The shortest decimal of a finite float other than zero. -/
def shortest (tie : Tie) (float : Binary64) : Decimal :=
  searchGrids tie float (decimalOrder float.numerator float.denominator) 17 1

end FixtureLiterals.Binary64
