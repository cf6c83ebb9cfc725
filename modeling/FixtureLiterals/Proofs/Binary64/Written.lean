import FixtureLiterals.Binary64.Layout
import FixtureLiterals.Proofs.Binary64.Nearest
import FixtureLiterals.Proofs.Text.Numerals
import Mathlib.Data.List.TakeWhile

/-!
# What the text of a float says

A written numeral stands for a rational number. For the shortest decimal of a float that
number need not be the value of the float, but the float is the nearest one to it, whether it
was found on a decimal grid or by exact expansion, and neither of the two notations changes
it. So the text of a float, in any layout, reveals the float with all its bits.
-/

namespace FixtureLiterals

/-- The absolute value of a numeral. -/
def Text.Numeral.value (numeral : Text.Numeral) : Rat :=
  numeral.significand * (10 : Rat) ^ numeral.scale

namespace Binary64

/-- The value of a decimal. -/
def Decimal.value (decimal : Decimal) : Rat :=
  Nat.ofDigitChars 10 decimal.digits 0 * (10 : Rat) ^ (decimal.order + 1 - decimal.digits.length)

/-- A decimal with digits, and with nothing else among them. -/
def Decimal.Written (decimal : Decimal) : Prop :=
  Text.Numeral.AreDigits decimal.digits ∧ decimal.digits ≠ []

/-- Digits without the zeros at their end, and those zeros. -/
theorem digits_eq_append_zeros (digits : List Char) :
    ∃ zeros, digits = (digits.reverse.dropWhile (· == '0')).reverse ++ List.replicate zeros '0' := by
  have ending : ∀ digit ∈ digits.reverse.takeWhile (· == '0'), digit = '0' := by
    intro digit listed
    simpa using List.mem_takeWhile_imp listed
  refine ⟨(digits.reverse.takeWhile (· == '0')).length, ?_⟩
  calc digits = digits.reverse.reverse := digits.reverse_reverse.symm
    _ = (digits.reverse.takeWhile (· == '0') ++ digits.reverse.dropWhile (· == '0')).reverse := by
        rw [List.takeWhile_append_dropWhile]
    _ = _ := by
        rw [List.reverse_append]
        congr 1
        rw [List.eq_replicate_of_mem ending, List.reverse_replicate, List.length_replicate]

/-- Zeros at the end of a decimal's digits make no difference to it. -/
theorem ofCount_written {count : Nat} (nonzero : count ≠ 0) (exponent : Int) :
    (Decimal.ofCount count exponent).Written ∧
      (Decimal.ofCount count exponent).value = count * (10 : Rat) ^ exponent := by
  obtain ⟨zeros, split⟩ := digits_eq_append_zeros (Nat.toDigits 10 count)
  generalize stripped : ((Nat.toDigits 10 count).reverse.dropWhile (· == '0')).reverse = digits
    at split
  have total : Nat.ofDigitChars 10 digits 0 * 10 ^ zeros = count := by
    rw [← Nat.ofDigitChars_ten_toDigits (n := count), split, Nat.ofDigitChars_append,
      Nat.ofDigitChars_replicate_zero, Nat.mul_comm]
  have counted : (Nat.toDigits 10 count).length = digits.length + zeros := by
    rw [split, List.length_append, List.length_replicate]
  have each : Text.Numeral.AreDigits digits := by
    intro digit listed
    have member : digit ∈ Nat.toDigits 10 count := split ▸ List.mem_append_left _ listed
    exact Nat.isDigit_of_mem_toDigits (by decide) (by decide) member
  have nonempty : digits ≠ [] := by
    rintro rfl
    rw [Nat.ofDigitChars_nil, Nat.zero_mul] at total
    exact nonzero total.symm
  have built : Decimal.ofCount count exponent =
      ⟨digits, exponent + (digits.length + zeros : Nat) - 1⟩ := by
    simp only [Decimal.ofCount, stripped, counted]
  rw [built]
  refine ⟨⟨each, nonempty⟩, ?_⟩
  have shifted : exponent + (digits.length + zeros : Nat) - 1 + 1 - digits.length =
      exponent + (zeros : Int) := by
    push_cast
    ring
  simp only [Decimal.value, shifted]
  rw [zpow_add₀ (by norm_num), zpow_natCast, ← total]
  push_cast
  ring

/-- A count on a decimal grid is a quotient as well. -/
theorem grid_quotient (count : Nat) (exponent : Int) :
    ((count * Nat.pow 10 exponent.toNat : Nat) : Rat) / (Nat.pow 10 (-exponent).toNat : Nat) =
      count * (10 : Rat) ^ exponent := by
  have scaled := quotient_scaled 10 count 1 (by decide) exponent
  rw [Nat.one_mul, Nat.cast_one, div_one] at scaled
  exact_mod_cast scaled

/-- What reads back is a number that the magnitude is nearest to. -/
theorem isNearest_of_readsBack {magnitude count : Nat} {exponent : Int}
    (reads : readsBack magnitude count exponent = true) :
    IsNearest magnitude (count * (10 : Rat) ^ exponent) :=
  ⟨_, _, Nat.pow_pos (by decide), grid_quotient count exponent, beq_iff_eq.mp reads⟩

/-- A neighbour on a grid is taken only if it reads back. -/
theorem readsBack_of_onGrid {tie : Tie} {float : Binary64} {exponent : Int} {count : Nat}
    (taken : onGrid tie float exponent = some count) :
    readsBack float.magnitude count exponent = true := by
  unfold onGrid at taken
  simp only at taken
  split at taken
  case h_1 => exact nomatch taken
  case h_2 below _ => exact Option.some.inj taken ▸ below
  case h_3 _ above => exact Option.some.inj taken ▸ above
  case h_4 below above =>
    split at taken
    · exact Option.some.inj taken ▸ below
    · split at taken
      · exact Option.some.inj taken ▸ above
      · cases tie with
        | upward => exact Option.some.inj taken ▸ above
        | toEven =>
          rcases Nat.mod_two_eq_zero_or_one (float.numerator * Nat.pow 10 (-exponent).toNat /
              (float.denominator * Nat.pow 10 exponent.toNat)) with even | odd
          · simp only [even, Nat.add_zero] at taken
            exact Option.some.inj taken ▸ below
          · simp only [odd] at taken
            exact Option.some.inj taken ▸ above

/-- The exact expansion of a float is its value. -/
theorem exactDecimal_eq (float : Binary64) :
    ∃ count exponent, exactDecimal float = Decimal.ofCount count exponent ∧
      count * (10 : Rat) ^ exponent = float.value := by
  refine ⟨_, _, rfl, ?_⟩
  have value : float.value = float.numerator / float.denominator := rfl
  rw [value, denominator]
  obtain ⟨size, positive | negative⟩ := float.scale.eq_nat_or_neg
  · rw [positive]
    simp [Int.toNat_neg_natCast]
  · rw [negative]
    have five : (10 : Rat) = 5 * 2 := by norm_num
    simp only [neg_neg, Int.toNat_natCast, Nat.pow_eq, Nat.cast_mul, Nat.cast_pow]
    rw [min_eq_left (by omega), zpow_neg, zpow_natCast, five, mul_pow]
    push_cast
    field_simp

/-- The search ends with a decimal that the float is nearest to. -/
theorem searchGrids_isNearest (tie : Tie) (float : Binary64) (nonzero : float.magnitude ≠ 0)
    (order : Int) (attempts length : Nat) :
    (searchGrids tie float order attempts length).Written ∧
      IsNearest float.magnitude (searchGrids tie float order attempts length).value := by
  have settled (count : Nat) (exponent : Int)
      (nearest : IsNearest float.magnitude (count * (10 : Rat) ^ exponent)) :
      (Decimal.ofCount count exponent).Written ∧
        IsNearest float.magnitude (Decimal.ofCount count exponent).value := by
    have counted : count ≠ 0 := by
      rintro rfl
      -- Zero is nearest to zero, and to no other float.
      have zero : IsNearest 0 (((0 : Nat) : Rat) * (10 : Rat) ^ exponent) :=
        ⟨0, 1, Nat.one_pos, by simp, rfl⟩
      exact nonzero (nearest.unique zero)
    obtain ⟨written, value⟩ := ofCount_written counted exponent
    exact ⟨written, value ▸ nearest⟩
  induction attempts generalizing length with
  | zero =>
    obtain ⟨count, exponent, expanded, value⟩ := exactDecimal_eq float
    rw [searchGrids, expanded]
    exact settled count exponent (value ▸ isNearest_value float)
  | succ attempts inductionHypothesis =>
    rw [searchGrids]
    cases taken : onGrid tie float (order - length + 1) with
    | none => simpa only [taken] using inductionHypothesis (length + 1)
    | some count =>
      simpa only [taken] using settled count _ (isNearest_of_readsBack (readsBack_of_onGrid taken))

/-- The shortest decimal of a float is one that the float is nearest to. -/
theorem shortest_isNearest (tie : Tie) (float : Binary64) (nonzero : float.magnitude ≠ 0) :
    (shortest tie float).Written ∧ IsNearest float.magnitude (shortest tie float).value :=
  searchGrids_isNearest tie float nonzero _ _ _

/-- A numeral has the value of a decimal if its digits are those of the decimal, with some zeros
at their end for which the power of ten makes up. -/
theorem value_eq_of_digits {numeral : Text.Numeral} {decimal : Decimal} (zeros : Nat)
    (significand : numeral.significand = Nat.ofDigitChars 10 decimal.digits 0 * 10 ^ zeros)
    (scale : numeral.scale + zeros = decimal.order + 1 - decimal.digits.length) :
    numeral.value = decimal.value := by
  rw [Text.Numeral.value, Decimal.value, significand, ← scale, zpow_add₀ (by norm_num),
    zpow_natCast]
  push_cast
  ring

/-- Zeros are digits. -/
theorem areDigits_replicate (count : Nat) :
    Text.Numeral.AreDigits (List.replicate count '0') := by
  intro digit listed
  rw [List.eq_of_mem_replicate listed]
  decide

/-- Digits in a row are digits. -/
theorem areDigits_append {first second : List Char} (digits : Text.Numeral.AreDigits first)
    (others : Text.Numeral.AreDigits second) : Text.Numeral.AreDigits (first ++ second) := by
  intro digit listed
  rcases List.mem_append.mp listed with earlier | later
  · exact digits digit earlier
  · exact others digit later

section Positional

variable (keepsFraction negative : Bool) {digits : List Char} {order : Int}
  (written : Decimal.Written ⟨digits, order⟩)
include written

/-- Where all digits stand behind the point, zeros stand between the point and them. -/
theorem positional_spec_of_neg (small : order < 0) :
    (positional keepsFraction negative ⟨digits, order⟩).Proper ∧
      (positional keepsFraction negative ⟨digits, order⟩).value = Decimal.value ⟨digits, order⟩ := by
  obtain ⟨each, nonempty⟩ := written
  have behind : (List.replicate ((-order).toNat - 1) '0' ++ digits).isEmpty = false := by
    rw [List.isEmpty_eq_false_iff]
    exact List.append_ne_nil_of_right_ne_nil _ nonempty
  have spelled : positional keepsFraction negative ⟨digits, order⟩ =
      ⟨negative, ['0'], List.replicate ((-order).toNat - 1) '0' ++ digits, none⟩ := by
    simp only [positional, wholeDigits, fractionDigits, if_pos small, behind, Bool.false_and,
      Bool.false_eq_true, if_false]
  have zeros : ['0'] ++ (List.replicate ((-order).toNat - 1) '0' ++ digits) =
      List.replicate ((-order).toNat - 1 + 1) '0' ++ digits := by
    rw [← List.append_assoc, List.replicate_succ]
    rfl
  rw [spelled]
  constructor
  · exact ⟨areDigits_replicate 1, List.cons_ne_nil _ _,
      areDigits_append (areDigits_replicate _) each, nofun⟩
  · apply value_eq_of_digits 0
    · rw [Text.Numeral.significand, zeros, Nat.ofDigitChars_append,
        Nat.ofDigitChars_replicate_zero, Nat.mul_zero, pow_zero, Nat.mul_one]
    · simp only [Text.Numeral.scale, List.length_append, List.length_replicate]
      push_cast
      omega

/-- Where all digits stand before the point, zeros stand between them and the point. -/
theorem positional_spec_of_short (large : ¬ order < 0) (short : digits.length ≤ order.toNat + 1) :
    (positional keepsFraction negative ⟨digits, order⟩).Proper ∧
      (positional keepsFraction negative ⟨digits, order⟩).value = Decimal.value ⟨digits, order⟩ := by
  obtain ⟨each, nonempty⟩ := written
  have whole : wholeDigits ⟨digits, order⟩ =
      digits ++ List.replicate (order.toNat + 1 - digits.length) '0' := by
    rw [wholeDigits, if_neg large, List.take_of_length_le short, List.rightpad]
  have fraction : fractionDigits ⟨digits, order⟩ = [] := by
    rw [fractionDigits, if_neg large, List.drop_of_length_le short]
  have begun : digits ++ List.replicate (order.toNat + 1 - digits.length) '0' ≠ [] :=
    List.append_ne_nil_of_left_ne_nil nonempty _
  have wholeAreDigits := areDigits_append each (areDigits_replicate (order.toNat + 1 - digits.length))
  -- A fraction that is kept is one more zero.
  cases keepsFraction with
  | false =>
    have spelled : positional false negative ⟨digits, order⟩ =
        ⟨negative, digits ++ List.replicate (order.toNat + 1 - digits.length) '0', [], none⟩ := by
      simp only [positional, whole, fraction, Bool.and_false, Bool.false_eq_true, if_false]
    rw [spelled]
    constructor
    · exact ⟨wholeAreDigits, begun, nofun, nofun⟩
    · apply value_eq_of_digits (order.toNat + 1 - digits.length)
      · rw [Text.Numeral.significand, List.append_nil, Nat.ofDigitChars_append,
          Nat.ofDigitChars_replicate_zero, Nat.mul_comm]
      · simp only [Text.Numeral.scale, List.length_nil]
        omega
  | true =>
    have spelled : positional true negative ⟨digits, order⟩ =
        ⟨negative, digits ++ List.replicate (order.toNat + 1 - digits.length) '0', ['0'],
          none⟩ := by
      simp only [positional, whole, fraction, List.isEmpty_nil, Bool.and_true, if_true]
    have zeros : digits ++ List.replicate (order.toNat + 1 - digits.length) '0' ++ ['0'] =
        digits ++ List.replicate (order.toNat + 1 - digits.length + 1) '0' := by
      rw [List.append_assoc, List.replicate_succ']
    rw [spelled]
    constructor
    · exact ⟨wholeAreDigits, begun, areDigits_replicate 1, nofun⟩
    · apply value_eq_of_digits (order.toNat + 1 - digits.length + 1)
      · rw [Text.Numeral.significand, zeros, Nat.ofDigitChars_append,
          Nat.ofDigitChars_replicate_zero, Nat.mul_comm]
      · simp only [Text.Numeral.scale, List.length_cons, List.length_nil]
        omega

/-- Where the point stands among the digits, there is nothing to add. -/
theorem positional_spec_of_long (large : ¬ order < 0) (long : ¬ digits.length ≤ order.toNat + 1) :
    (positional keepsFraction negative ⟨digits, order⟩).Proper ∧
      (positional keepsFraction negative ⟨digits, order⟩).value = Decimal.value ⟨digits, order⟩ := by
  obtain ⟨each, -⟩ := written
  have behind : (digits.drop (order.toNat + 1)).isEmpty = false := by
    rw [List.isEmpty_eq_false_iff, ne_eq, List.drop_eq_nil_iff]
    exact long
  have before : (digits.take (order.toNat + 1)).length = order.toNat + 1 := by
    rw [List.length_take]
    omega
  have begun : digits.take (order.toNat + 1) ≠ [] := by
    apply List.ne_nil_of_length_pos
    omega
  have spelled : positional keepsFraction negative ⟨digits, order⟩ =
      ⟨negative, digits.take (order.toNat + 1), digits.drop (order.toNat + 1), none⟩ := by
    simp only [positional, wholeDigits, fractionDigits, if_neg large, behind, Bool.false_and,
      Bool.false_eq_true, if_false, List.rightpad, before, Nat.sub_self, List.replicate_zero,
      List.append_nil]
  rw [spelled]
  constructor
  · exact ⟨fun digit listed => each digit (List.mem_of_mem_take listed), begun,
      fun digit listed => each digit (List.mem_of_mem_drop listed), nofun⟩
  · apply value_eq_of_digits 0
    · rw [Text.Numeral.significand, List.take_append_drop, pow_zero, Nat.mul_one]
    · simp only [Text.Numeral.scale, List.length_drop]
      omega

end Positional

/-- With all its places written out, a decimal keeps its value. -/
theorem positional_spec (keepsFraction negative : Bool) {decimal : Decimal}
    (written : decimal.Written) :
    (positional keepsFraction negative decimal).Proper ∧
      (positional keepsFraction negative decimal).value = decimal.value := by
  by_cases small : decimal.order < 0
  · exact positional_spec_of_neg keepsFraction negative written small
  · by_cases short : decimal.digits.length ≤ decimal.order.toNat + 1
    · exact positional_spec_of_short keepsFraction negative written small short
    · exact positional_spec_of_long keepsFraction negative written small short

/-- With one digit before the point and a power of ten, a decimal keeps its value. -/
theorem scientific_spec (plusSign negative : Bool) {decimal : Decimal}
    (written : decimal.Written) :
    (scientific plusSign negative decimal).Proper ∧
      (scientific plusSign negative decimal).value = decimal.value := by
  obtain ⟨digits, order⟩ := decimal
  obtain ⟨each, nonempty⟩ := written
  have exponent : (Text.Exponent.toInt {
      sign := if order < 0 then .minus else if plusSign then .plus else .omitted
      digits := Nat.toDigits 10 order.natAbs }) = order := by
    simp only [Text.Exponent.toInt, Nat.ofDigitChars_ten_toDigits]
    by_cases small : order < 0
    · rw [if_pos small, if_pos rfl]
      omega
    · rw [if_neg small]
      cases plusSign <;> simp <;> omega
  have exponentDigits : Text.Numeral.AreDigits (Nat.toDigits 10 order.natAbs) :=
    fun _ listed => Nat.isDigit_of_mem_toDigits (by decide) (by decide) listed
  refine ⟨⟨fun digit listed => each digit (List.mem_of_mem_take listed), ?_,
    fun digit listed => each digit (List.mem_of_mem_drop listed), ?_⟩, value_eq_of_digits 0 ?_ ?_⟩
  · rw [scientific, ne_eq, List.take_eq_nil_iff]
    simpa using nonempty
  · rintro _ ⟨⟩
    exact ⟨exponentDigits, Nat.toDigits_ne_nil⟩
  · rw [Text.Numeral.significand, scientific, List.take_append_drop, pow_zero, Nat.mul_one]
  · have counted : 0 < digits.length := List.length_pos_iff.mpr nonempty
    simp only [Text.Numeral.scale, scientific, exponent, List.length_drop]
    omega

/-- The numeral of a float has its sign, and the float is nearest to its value. -/
theorem numeral_spec (layout : Layout) (float : Binary64) :
    (numeral layout float).Proper ∧ (numeral layout float).negative = float.isNegative ∧
      IsNearest float.magnitude (numeral layout float).value := by
  have decimal : ∃ decimal : Decimal, decimal.Written ∧ IsNearest float.magnitude decimal.value ∧
      numeral layout float = if layout.isPositional decimal.order then
        positional layout.keepsFraction float.isNegative decimal
      else scientific layout.plusSign float.isNegative decimal := by
    by_cases zero : float.magnitude = 0
    · have found : float.isZero = true := decide_eq_true zero
      refine ⟨⟨['0'], 0⟩, ⟨areDigits_replicate 1, List.cons_ne_nil _ _⟩, ?_, ?_⟩
      · rw [zero]
        exact ⟨0, 1, Nat.one_pos, by simp [Decimal.value, Nat.ofDigitChars], rfl⟩
      · simp only [numeral, found, if_true]
    · have found : float.isZero = false := decide_eq_false zero
      obtain ⟨written, nearest⟩ := shortest_isNearest layout.tie float zero
      exact ⟨_, written, nearest, by simp only [numeral, found, Bool.false_eq_true, if_false]⟩
  obtain ⟨decimal, written, nearest, spelled⟩ := decimal
  rw [spelled]
  split
  · obtain ⟨proper, value⟩ := positional_spec layout.keepsFraction float.isNegative written
    exact ⟨proper, rfl, value ▸ nearest⟩
  · obtain ⟨proper, value⟩ := scientific_spec layout.plusSign float.isNegative written
    exact ⟨proper, rfl, value ▸ nearest⟩

/-- A float is its sign and its magnitude. -/
theorem ext_of_magnitude {first second : Binary64}
    (signs : first.isNegative = second.isNegative) (magnitudes : first.magnitude = second.magnitude) :
    first = second := by
  obtain ⟨pattern⟩ := first
  obtain ⟨bits⟩ := second
  have bounded := pattern.toNat_lt
  have limited := bits.toNat_lt
  have unit : signBit = 0x8000000000000000 := rfl
  simp only [isNegative, magnitude, unit] at signs magnitudes
  have agree : 0x8000000000000000 ≤ pattern.toNat ↔ 0x8000000000000000 ≤ bits.toNat :=
    decide_eq_decide.mp signs
  congr 1
  apply UInt64.toNat_inj.mp
  omega

/-- The text of a float reveals the float. -/
theorem reveals_text (layout : Layout) (first second : Binary64) :
    Text.Reveals (Text.Leaves Text.Numeral.continues) (first.text layout).toList
      (second.text layout).toList (first = second) := by
  obtain ⟨proper, sign, nearest⟩ := numeral_spec layout first
  obtain ⟨regular, mark, closest⟩ := numeral_spec layout second
  simp only [text, Text.Numeral.text, String.toList_ofList]
  refine (Text.Numeral.reveals_characters proper regular).imp fun same => ?_
  refine ext_of_magnitude (sign.symm.trans ?_) (nearest.unique ?_)
  · rw [same, mark]
  · rw [same]
    exact closest

end Binary64

end FixtureLiterals
