import FixtureLiterals.Fixture
import FixtureLiterals.Proofs.Binary64.Rounding
import FixtureLiterals.Proofs.Document.Tokens
import FixtureLiterals.Proofs.Fitting.Success

/-!
# What Go makes of a float's text

Go reads a decimal constant as an exact rational number. A minus sign in front of it is an
operation on that number, and only then is the number rounded to a float. The infinities are
calls.

So the text of a float denotes the float that its decimal is rounded to, which is the float
itself, with one exception. The rational number zero has no sign, and the text of negative zero,
which is written with a minus sign like all negative floats, denotes positive zero.
-/

namespace FixtureLiterals

open Binary64 Document Text Text.Numeral

/-- The number that a numeral stands for, where the sign is an operation on it. -/
def Text.Numeral.signedValue (numeral : Text.Numeral) : Rat :=
  if numeral.negative then -numeral.value else numeral.value

namespace Emission

/-- Reads the power of ten at the end of a constant, which may be left out. -/
def goPower? (characters : List Char) : Option (Option Exponent) :=
  match exponentPart? characters with
  | some (exponent, []) => some exponent
  | _ => none

/-- Reads a Go constant without a sign, whose digits are not separated. One side of a point may be
without digits. An integer that starts with a zero is a constant of another base. -/
def goUnsigned? (negative : Bool) (characters : List Char) : Option Numeral :=
  let whole := characters.takeWhile Char.isDigit
  match characters.dropWhile Char.isDigit with
  | [] =>
    if whole = ['0'] ∨ whole.head?.any (· ≠ '0') then some ⟨negative, whole, [], none⟩ else none
  | '.' :: rest =>
    let fraction := rest.takeWhile Char.isDigit
    if whole ++ fraction = [] then none
    else (goPower? (rest.dropWhile Char.isDigit)).map (⟨negative, whole, fraction, ·⟩)
  | rest => if whole = [] then none else (goPower? rest).map (⟨negative, whole, [], ·⟩)

/-- Reads a decimal constant of Go. -/
def goConstant? : List Char → Option Numeral
  | '-' :: rest => goUnsigned? true rest
  | characters => goUnsigned? false characters

/-- The call that stands for an infinity in Go. -/
def goInfinity (negative : Bool) : String := if negative then "math.Inf(-1)" else "math.Inf(1)"

/-- The float that an expression denotes in Go where a 64-bit float is expected. -/
inductive GoDenotes (text : String) : Binary64 → Prop where
  | infinity (negative : Bool) (called : text = goInfinity negative) :
    GoDenotes text (.ofMagnitude negative Binary64.infinity)
  | constant {numeral : Numeral} {float : Binary64} (read : goConstant? text.toList = some numeral)
      (rounded : RoundsTo numeral.signedValue float) : GoDenotes text float

/-- A call is no constant. -/
theorem goConstant?_goInfinity (negative : Bool) :
    goConstant? (goInfinity negative).toList = none := by
  cases negative <;> decide

/-- An expression denotes one float. -/
theorem GoDenotes.unique {text : String} {first second : Binary64} (denotes : GoDenotes text first)
    (other : GoDenotes text second) : first = second := by
  have apart (negative : Bool) {numeral : Numeral} (called : text = goInfinity negative)
      (read : goConstant? text.toList = some numeral) : False := by
    rw [called, goConstant?_goInfinity] at read
    exact nomatch read
  cases denotes with
  | infinity negative called =>
    cases other with
    | infinity sign spelled =>
      have same : goInfinity negative = goInfinity sign := called.symm.trans spelled
      cases negative <;> cases sign <;> first | rfl | exact absurd same (by decide)
    | constant read => exact (apart negative called read).elim
  | constant read rounded =>
    cases other with
    | infinity negative called => exact (apart negative called read).elim
    | constant again alike =>
      obtain rfl := Option.some.inj (read.symm.trans again)
      exact rounded.unique alike

/-- Nothing but its digits follows the sign of a power of ten. -/
theorem exponentSign_append (sign : ExponentSign) {digits : List Char} (each : AreDigits digits)
    (nonempty : digits ≠ []) : exponentSign (sign.characters ++ digits) = (sign, digits) := by
  obtain ⟨first, others, rfl, digit⟩ := eq_cons_of_areDigits each nonempty
  cases sign with
  | omitted =>
    unfold exponentSign
    rw [ExponentSign.characters, List.nil_append]
    split
    · rename_i spelled
      rw [(List.cons.inj spelled).1] at digit
      exact absurd digit (by decide)
    · rename_i spelled
      rw [(List.cons.inj spelled).1] at digit
      exact absurd digit (by decide)
    · rfl
  | plus => rfl
  | minus => rfl

/-- A written power of ten is read back. -/
theorem goPower?_exponentCharacters {exponent : Option Exponent}
    (proper : ∀ power ∈ exponent, AreDigits power.digits ∧ power.digits ≠ []) :
    goPower? (exponentCharacters exponent) = some exponent := by
  cases exponent with
  | none => rfl
  | some power =>
    obtain ⟨each, nonempty⟩ := proper power rfl
    have ending : Leaves Char.isDigit [] := nofun
    obtain ⟨taken, left⟩ := takeWhile_of_leaves each ending
    rw [List.append_nil] at taken left
    have some : power.digits.isEmpty = false := by simpa using nonempty
    rw [goPower?, exponentCharacters, List.cons_append, exponentPart?, if_pos (.inl rfl),
      exponentSign_append power.sign each nonempty]
    simp only [taken, left, some]
    rfl

/-- A written power of ten ends the digits in front of it. -/
theorem leaves_exponentCharacters (exponent : Option Exponent) :
    Leaves Char.isDigit (exponentCharacters exponent) := by
  cases exponent with
  | none => exact nofun
  | some power =>
    rintro _ ⟨⟩
    decide

/-- A numeral that is written with a point or with a power of ten is read back without its
sign. -/
theorem goUnsigned?_characters {numeral : Numeral} (proper : numeral.Proper)
    (marked : numeral.fraction ≠ [] ∨ numeral.exponent ≠ none) :
    goUnsigned? numeral.negative (numeral.whole ++
      (fractionCharacters numeral.fraction ++ exponentCharacters numeral.exponent)) =
        some numeral := by
  obtain ⟨negative, whole, fraction, exponent⟩ := numeral
  obtain ⟨wholeDigits, begun, fractionDigits, power⟩ := proper
  have read := goPower?_exponentCharacters power
  have ends := leaves_exponentCharacters exponent
  dsimp only at *
  by_cases pointless : fraction = []
  · obtain ⟨taken, left⟩ := takeWhile_of_leaves wholeDigits ends
    obtain ⟨written, rfl⟩ :=
      Option.ne_none_iff_exists'.mp (marked.resolve_left (not_not.mpr pointless))
    rw [pointless, fractionCharacters, List.isEmpty_nil, if_pos rfl, List.nil_append, goUnsigned?]
    simp only [taken, left]
    rw [exponentCharacters, List.cons_append] at read ⊢
    change (if whole = [] then none else (goPower? _).map _) = _
    rw [if_neg begun, read, Option.map_some]
  · have point : fractionCharacters fraction = '.' :: fraction := by
      rw [fractionCharacters, if_neg (by simpa using pointless)]
    have stops : Leaves Char.isDigit
        (fractionCharacters fraction ++ exponentCharacters exponent) := by
      rw [point]
      rintro _ ⟨⟩
      decide
    obtain ⟨taken, left⟩ := takeWhile_of_leaves wholeDigits stops
    obtain ⟨behind, later⟩ := takeWhile_of_leaves fractionDigits ends
    rw [goUnsigned?]
    simp only [taken, left]
    simp only [point, List.cons_append, behind, later, read, Option.map_some,
      List.append_eq_nil_iff, begun, false_and, if_false]

/-- A numeral that is written with a point or with a power of ten is read back. -/
theorem goConstant?_characters {numeral : Numeral} (proper : numeral.Proper)
    (marked : numeral.fraction ≠ [] ∨ numeral.exponent ≠ none) :
    goConstant? numeral.characters = some numeral := by
  have unsigned := goUnsigned?_characters proper marked
  rw [characters_eq]
  cases sign : numeral.negative with
  | true =>
    rw [sign] at unsigned
    exact unsigned
  | false =>
    obtain ⟨first, others, spelled, digit⟩ :=
      eq_cons_of_areDigits proper.whole proper.whole_ne_nil
    rw [sign] at unsigned
    rw [spelled] at unsigned ⊢
    simp only [Bool.false_eq_true, if_false, List.nil_append, List.cons_append] at unsigned ⊢
    unfold goConstant?
    split
    · rename_i same
      rw [(List.cons.inj same).1] at digit
      exact absurd digit (by decide)
    · exact unsigned

end Emission

namespace Binary64

/-- In source text, a float is written with a point or with a power of ten. -/
theorem numeral_marked (float : Binary64) : (numeral sourceLayout float).fraction ≠ [] ∨
    (numeral sourceLayout float).exponent ≠ none := by
  unfold numeral
  simp only
  generalize (if float.isZero = true then _ else _ : Decimal) = decimal
  split
  · left
    simp only [positional, sourceLayout, Bool.and_true]
    split
    case isTrue => exact List.cons_ne_nil _ _
    case isFalse some => exact fun none => some (List.isEmpty_iff.mpr none)
  · exact .inr (Option.some_ne_none _)

/-- In source text, the numeral of a zero stands for zero. -/
theorem value_numeral_of_zero {float : Binary64} (zero : float.isZero = true) :
    (numeral sourceLayout float).value = 0 := by
  have written : Decimal.Written ⟨['0'], 0⟩ := ⟨areDigits_replicate 1, List.cons_ne_nil _ _⟩
  have spelled : numeral sourceLayout float = positional true float.isNegative ⟨['0'], 0⟩ := by
    simp [numeral, zero, sourceLayout]
  rw [spelled, (positional_spec true float.isNegative written).2]
  simp [Decimal.value, Nat.ofDigitChars]

/-- Zero with the sign bit set. -/
def negativeZero : Binary64 := ofMagnitude true 0

/-- A zero is one of two floats. -/
theorem eq_zero_or_eq_negativeZero {float : Binary64} (zero : float.isZero = true) :
    float = ofMagnitude false 0 ∨ float = negativeZero := by
  have magnitude : float.magnitude = 0 := of_decide_eq_true zero
  cases sign : float.isNegative with
  | false => exact .inl (ext_of_magnitude sign magnitude)
  | true => exact .inr (ext_of_magnitude sign magnitude)

/-- The numeral of a float is rounded to the float, except for negative zero. -/
theorem roundsTo_numeral {float : Binary64} (finite : float.isFinite = true) :
    RoundsTo (numeral sourceLayout float).signedValue
      (if float = negativeZero then ofMagnitude false 0 else float) := by
  obtain ⟨-, sign, nearest⟩ := numeral_spec sourceLayout float
  by_cases zero : float.isZero = true
  · have number : (numeral sourceLayout float).signedValue = 0 := by
      rw [Text.Numeral.signedValue, value_numeral_of_zero zero, neg_zero, ite_self]
    have rounded : (if float = negativeZero then ofMagnitude false 0 else float) =
        ofMagnitude false 0 := by
      rcases eq_zero_or_eq_negativeZero zero with rfl | rfl
      · rw [ite_self]
      · rw [if_pos rfl]
    rw [number, rounded]
    refine roundsTo_of_isNearest (by decide) ⟨0, 1, Nat.one_pos, by simp, by decide⟩ ?_
    simp only [lt_irrefl, false_and, iff_false]
    decide
  · have other : float ≠ negativeZero := by
      rintro rfl
      exact zero (by decide)
    have positive : 0 < (numeral sourceLayout float).value := by
      refine lt_of_le_of_ne ?_ fun vanishes => zero (decide_eq_true ?_)
      · exact mul_nonneg (Nat.cast_nonneg _) (zpow_nonneg (by norm_num) _)
      · rw [← vanishes] at nearest
        exact nearest.unique ⟨0, 1, Nat.one_pos, by simp, by decide⟩
    have size : |(numeral sourceLayout float).signedValue| = (numeral sourceLayout float).value := by
      unfold Text.Numeral.signedValue
      split
      · rw [abs_neg, abs_of_pos positive]
      · exact abs_of_pos positive
    rw [if_neg other]
    refine roundsTo_of_isNearest finite (size.symm ▸ nearest) ?_
    rw [← sign, Text.Numeral.signedValue]
    cases (numeral sourceLayout float).negative with
    | true => simpa [positive] using zero
    | false => simpa using fun below => absurd below positive.not_gt

/-- What is neither finite nor without a number is an infinity. -/
theorem eq_infinity {float : Binary64} (infinite : float.isFinite = false)
    (number : float.isNaN = false) : float = ofMagnitude float.isNegative Binary64.infinity := by
  have boundary : float.magnitude = Binary64.infinity := by
    have atLeast := of_decide_eq_false infinite
    have atMost := of_decide_eq_false number
    omega
  have room : Binary64.infinity < signBit := by decide
  obtain ⟨magnitude, sign⟩ := ofMagnitude_spec float.isNegative room
  exact ext_of_magnitude sign.symm (boundary.trans magnitude.symm)

end Binary64

namespace GoWriter

open Emission

/-- The text of a finite float denotes the float, except for negative zero. -/
theorem denotes_of_isFinite {float : Binary64} (finite : float.isFinite = true) :
    GoDenotes (GoWriter.float .float64 float)
      (if float = negativeZero then ofMagnitude false 0 else float) := by
  have text : (GoWriter.float .float64 float).toList =
      (numeral sourceLayout float).characters := by
    rw [GoWriter.float, if_pos finite, Binary64.text, Text.Numeral.text, String.toList_ofList]
  refine .constant ?_ (roundsTo_numeral finite)
  rw [text]
  exact goConstant?_characters (numeral_spec sourceLayout float).1 (numeral_marked float)

/-- The text of an infinity denotes the infinity. -/
theorem denotes_of_infinite {float : Binary64} (infinite : float.isFinite = false)
    (number : float.isNaN = false) : GoDenotes (GoWriter.float .float64 float) float := by
  have call : GoWriter.float .float64 float = goInfinity float.isNegative := by
    rw [GoWriter.float, infinite, number, goInfinity]
    rfl
  have denotes : GoDenotes (GoWriter.float .float64 float)
      (ofMagnitude float.isNegative Binary64.infinity) := .infinity _ call
  rwa [← eq_infinity infinite number] at denotes

end GoWriter

namespace Writer

open Emission

/-- The text that Go makes of a float denotes the float, bit for bit, except that the text of
negative zero denotes positive zero. -/
theorem go_float_denotes (writer : GoWriter) (handles : HandleTable) {float : Binary64}
    (number : float.isNaN = false) :
    ∃ text, (Writer.go writer).encode handles (.primitive .float64) (.float float) = .ok text ∧
      ∀ denoted, GoDenotes text denoted ↔
        denoted = if float = negativeZero then ofMagnitude false 0 else float := by
  have denotes : GoDenotes (GoWriter.float .float64 float)
      (if float = negativeZero then ofMagnitude false 0 else float) := by
    cases finite : float.isFinite with
    | true => exact GoWriter.denotes_of_isFinite finite
    | false =>
      have other : float ≠ negativeZero := by
        rintro rfl
        exact absurd finite (by decide)
      rw [if_neg other]
      exact GoWriter.denotes_of_infinite finite number
  refine ⟨GoWriter.float .float64 float, rfl, fun denoted => ⟨fun same => ?_, fun same => ?_⟩⟩
  · exact same.unique denotes
  · exact same ▸ denotes

/-- The negative float next to zero is written in scientific notation, and denoted by its text
alone. -/
theorem go_float_denotes_least :
    Binary64.isNaN ⟨0x8000000000000001⟩ = false ∧
      (Writer.go .standard).encode [] (.primitive .float64) (.float ⟨0x8000000000000001⟩) =
        .ok "-5e-324" ∧
      ∀ denoted, GoDenotes "-5e-324" denoted ↔ denoted = ⟨0x8000000000000001⟩ := by
  have number : Binary64.isNaN ⟨0x8000000000000001⟩ = false := by decide
  have encoded : (Writer.go .standard).encode [] (.primitive .float64)
      (.float ⟨0x8000000000000001⟩) = .ok "-5e-324" := by decide +kernel
  obtain ⟨text, written, denotes⟩ := go_float_denotes .standard [] number
  obtain rfl := Except.ok.inj (encoded.symm.trans written)
  exact ⟨number, encoded, denotes⟩

/-- The text of negative zero denotes positive zero, and no other float. -/
theorem go_negative_zero_lost :
    (Writer.go .standard).encode [] (.primitive .float64) (.float negativeZero) = .ok "-0.0" ∧
      GoDenotes "-0.0" (ofMagnitude false 0) ∧ ¬ GoDenotes "-0.0" negativeZero := by
  have text : GoWriter.float .float64 negativeZero = "-0.0" := by decide +kernel
  have denotes : GoDenotes "-0.0" (ofMagnitude false 0) := by
    have zero := GoWriter.denotes_of_isFinite (show negativeZero.isFinite = true by decide)
    rwa [text, if_pos rfl] at zero
  refine ⟨congrArg Except.ok text, denotes, fun other => ?_⟩
  have same : ofMagnitude false 0 = negativeZero := denotes.unique other
  exact absurd same (by decide)

end Writer

end FixtureLiterals
