import FixtureLiterals.Proofs.Binary64.Written
import FixtureLiterals.Proofs.Emission.Alike
import FixtureLiterals.Proofs.Emission.Blocks
import FixtureLiterals.Proofs.Emission.Quoted

/-!
# Parts of expressions that both targets share

An expression ends at a comma or at a closing parenthesis, or the text ends with it. Numbers
have neither of the two in them, and nor do keys, which end at a colon.
-/

namespace FixtureLiterals

open Text

namespace Emission

/-- The rests that an expression may have behind it. -/
def Ends (rest : List Char) : Prop := ∀ character ∈ rest.head?, character = ',' ∨ character = ')'

/-- A comma ends an expression. -/
theorem ends_of_begins_comma {rest : List Char} (begins : Begins [','] rest) : Ends rest := by
  obtain ⟨tail, rfl⟩ := begins
  intro character head
  obtain rfl : ',' = character := by simpa using head
  exact .inl rfl

/-- A closing parenthesis ends an expression. -/
theorem ends_of_begins_parenthesis {rest : List Char} (begins : Begins [')'] rest) : Ends rest := by
  obtain ⟨tail, rfl⟩ := begins
  intro character head
  obtain rfl : ')' = character := by simpa using head
  exact .inr rfl

/-- What ends an expression is outside of any class without the two characters. -/
theorem leaves_of_ends {member : Char → Bool} (comma : member ',' = false)
    (parenthesis : member ')' = false) {rest : List Char} (ends : Ends rest) :
    Leaves member rest := by
  intro character head
  rcases ends character head with rfl | rfl
  · exact comma
  · exact parenthesis

/-- No type has both integers and floats. -/
theorem not_inRange_of_isFloat {subtype : Primitive} (floating : subtype.isFloat = true)
    (number : Int) : ¬ subtype.InRange number := by
  intro bounded
  cases subtype
  case float32 => exact bounded
  case float64 => exact bounded
  all_goals exact Bool.false_ne_true floating

/-- An integer reveals its number. -/
theorem reveals_integer (first second : Integer) :
    Reveals (Leaves Char.isDigit) first.text.toList second.text.toList
      (first.toInt = second.toInt) :=
  reveals_signedDecimal first.toInt second.toInt

/-- An index or an ordinal is revealed by its decimal. -/
theorem reveals_ordinal (first second : UInt64) :
    Reveals (Leaves Char.isDigit) (decimal first.toNat).toList (decimal second.toNat).toList
      (first = second) :=
  (reveals_decimal first.toNat second.toNat).imp UInt64.toNat_inj.mp

/-- An integer's text starts with a digit or with a minus sign. -/
theorem integerText_eq_cons (integer : Integer) :
    ∃ first others, integer.text.toList = first :: others ∧
      (first.isDigit = true ∨ first = '-') := by
  rw [Integer.text]
  cases integer.toInt with
  | negSucc predecessor =>
    rw [signedDecimal, String.toList_append]
    exact ⟨'-', _, rfl, .inr rfl⟩
  | ofNat number =>
    obtain ⟨first, others, spelled, digit⟩ := decimal_eq_cons number
    exact ⟨first, others, spelled, .inl digit⟩

/-- An unknown field reveals its ordinal and its content. -/
theorem reveals_unknownField {write : UnknownData → String}
    (contents : ∀ data content, Reveals Anything (write data).toList (write content).toList
      (data = content)) {delimiter : String}
    (outside : ∀ rest, Leaves Char.isDigit (delimiter.toList ++ rest))
    (first second : UInt64 × UnknownData) :
    Reveals Anything (decimal first.1.toNat ++ delimiter ++ write first.2).toList
      (decimal second.1.toNat ++ delimiter ++ write second.2).toList (first = second) := by
  have ordinal : Reveals Anything (decimal first.1.toNat ++ delimiter).toList
      (decimal second.1.toNat ++ delimiter).toList (first.1 = second.1) :=
    (reveals_ordinal _ _).ended _ outside
  have both := ordinal.append (contents first.2 second.2) (fun _ _ => trivial) fun _ _ => trivial
  rw [← String.toList_append, ← String.toList_append] at both
  refine both.imp ?_
  rintro ⟨ordinals, alike⟩
  exact Prod.ext ordinals alike

/-- A float's text starts with a digit or with a minus sign. -/
theorem floatText_eq_cons (layout : Binary64.Layout) (float : Binary64) :
    ∃ first others, (float.text layout).toList = first :: others ∧
      (first.isDigit = true ∨ first = '-') := by
  obtain ⟨proper, -⟩ := Binary64.numeral_spec layout float
  obtain ⟨first, others, spelled, digit⟩ :=
    Numeral.eq_cons_of_areDigits proper.whole proper.whole_ne_nil
  rw [Binary64.text, Numeral.text, String.toList_ofList, Numeral.characters_eq, spelled]
  split
  case isTrue => exact ⟨'-', _, rfl, .inr rfl⟩
  case isFalse => exact ⟨first, _, rfl, .inl digit⟩

/-- A float's text does not start like what has neither a digit nor a minus sign in front. -/
theorem apart_floatText (layout : Binary64.Layout) (float : Binary64) {character : Char}
    (noDigit : character.isDigit = false) (noSign : character ≠ '-') (others : List Char) :
    Apart (float.text layout).toList (character :: others) := by
  obtain ⟨first, rest, spelled, starts⟩ := floatText_eq_cons layout float
  rw [spelled]
  refine Apart.of_heads ?_ rest others
  rintro rfl
  rcases starts with digit | minus
  · exact Bool.false_ne_true (noDigit.symm.trans digit)
  · exact noSign minus

/-- Floats of the same sign that are neither finite nor patterns without a number are the same
infinity. -/
theorem eq_of_infinite {first second : Binary64} (infinite : first.isFinite = false)
    (number : first.isNaN = false) (boundless : second.isFinite = false)
    (proper : second.isNaN = false) (signs : first.isNegative = second.isNegative) :
    first = second := by
  refine Binary64.ext_of_magnitude signs ?_
  simp only [Binary64.isFinite, Binary64.isNaN, decide_eq_false_iff_not] at *
  omega

/-- What stands for a float that is not finite: for no number, for the lesser infinity and for
the greater one. -/
def special (noNumber lesser greater : String) (float : Binary64) : String :=
  if float.isNaN then noNumber else if float.isNegative then lesser else greater

/-- What stands for a float that is not finite reveals the float, but not the pattern without
a number. -/
theorem reveals_special {noNumber lesser greater : String}
    (sinks : Apart noNumber.toList lesser.toList) (rises : Apart noNumber.toList greater.toList)
    (opposite : Apart lesser.toList greater.toList) {first second : Binary64}
    (infinite : first.isFinite = false) (boundless : second.isFinite = false) :
    Reveals Anything (special noNumber lesser greater first).toList
      (special noNumber lesser greater second).toList
      (first = second ∨ (first.isNaN = true ∧ second.isNaN = true)) := by
  simp only [special]
  cases number : first.isNaN <;> cases proper : second.isNaN
  case true.true => exact .refl _ (.inr ⟨rfl, rfl⟩)
  case true.false =>
    cases second.isNegative
    · exact .of_apart rises
    · exact .of_apart sinks
  case false.true =>
    cases first.isNegative
    · exact .of_apart rises.symm
    · exact .of_apart sinks.symm
  case false.false =>
    cases sign : first.isNegative <;> cases opposed : second.isNegative
    case true.false => exact .of_apart opposite
    case false.true => exact .of_apart opposite.symm
    all_goals
      have same := eq_of_infinite infinite number boundless proper (sign.trans opposed.symm)
      exact .refl _ (.inl same)

/-- A declaration is described by one type only. -/
theorem eq_of_describes {environment : Environment} {declaration : Declaration}
    {type other : TypeReference} (described : Describes environment.supports declaration type)
    (spelled : Describes environment.supports declaration other) : type = other := by
  rw [← ofDeclaration_eq_ok_iff] at described spelled
  exact Except.ok.inj (described.symm.trans spelled)

end Emission

end FixtureLiterals
