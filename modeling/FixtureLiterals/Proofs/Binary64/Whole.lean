import FixtureLiterals.Binary64.Nearest
import Mathlib.Algebra.Order.Ring.Nat

/-!
# Integers in the range of floats

The quotient that is rounded has at most fifty-three bits, so rounding adds no more than one
step to the exponent of a number's binade. The binades of integers of sixty-four bits lie far
below the end of the exponents, so every such integer is near to a finite float.
-/

namespace FixtureLiterals.Binary64

/-- Rounding goes up by less than one. -/
theorem roundHalfEven_le (numerator denominator : Nat) :
    roundHalfEven numerator denominator ≤ numerator / denominator + 1 := by
  have parity : numerator / denominator % 2 < 2 := Nat.mod_lt _ (by decide)
  unfold roundHalfEven
  simp only
  split
  · omega
  · split <;> omega

/-- The greatest power of two that does not exceed a natural number has its binary logarithm
as exponent. -/
theorem binade_one {number : Nat} (nonzero : number ≠ 0) : binade number 1 = number.log2 := by
  have reached : 1 * Nat.pow 2 number.log2 ≤ number * 1 := by
    rw [Nat.one_mul, Nat.mul_one]
    exact Nat.log2_self_le nonzero
  have estimate : (number.log2 : Int) - (Nat.log2 1 : Int) = number.log2 := by
    rw [show Nat.log2 1 = 0 by decide, Int.natCast_zero, Int.sub_zero]
  unfold binade
  simp only [estimate, Int.toNat_natCast, Int.toNat_neg_natCast]
  exact if_pos reached

/-- A natural number in units of its fifty-third bit is below two to the power of 53. -/
theorem scaled_whole_lt (number : Nat) :
    number * Nat.pow 2 (-((number.log2 : Int) - 52)).toNat /
      (1 * Nat.pow 2 ((number.log2 : Int) - 52).toNat) < 2 ^ 53 := by
  have below : number < 2 ^ (number.log2 + 1) := Nat.lt_log2_self
  rw [Nat.one_mul]
  rcases Nat.le_total number.log2 52 with short | long
  · have raised : (-((number.log2 : Int) - 52)).toNat = 52 - number.log2 := by omega
    have kept : ((number.log2 : Int) - 52).toNat = 0 := by omega
    rw [raised, kept]
    calc number * 2 ^ (52 - number.log2) / 2 ^ 0
        = number * 2 ^ (52 - number.log2) := Nat.div_one _
      _ < 2 ^ (number.log2 + 1) * 2 ^ (52 - number.log2) :=
          Nat.mul_lt_mul_of_pos_right below (Nat.pow_pos (by decide))
      _ = 2 ^ 53 := by
          rw [← Nat.pow_add]
          congr 1
          omega
  · have kept : (-((number.log2 : Int) - 52)).toNat = 0 := by omega
    have lowered : ((number.log2 : Int) - 52).toNat = number.log2 - 52 := by omega
    rw [kept, lowered]
    refine Nat.div_lt_of_lt_mul ?_
    calc number * 2 ^ 0 = number := Nat.mul_one _
      _ < 2 ^ (number.log2 + 1) := below
      _ = 2 ^ (number.log2 - 52) * 2 ^ 53 := by
          rw [← Nat.pow_add]
          congr 1
          omega

/-- A natural number of sixty-four bits is nearest to a finite float. -/
theorem nearestMagnitude_whole_lt {number : Nat} (bounded : number < 2 ^ 64) :
    nearestMagnitude number 1 < infinity := by
  by_cases zero : number = 0
  · rw [nearestMagnitude, if_pos zero]
    decide
  · have short : number.log2 < 64 := (Nat.log2_lt zero).mpr bounded
    have scale : max (binade number 1 - 52) (-1074) = (number.log2 : Int) - 52 := by
      rw [binade_one zero]
      omega
    have rounded := roundHalfEven_le
      (number * Nat.pow 2 (-((number.log2 : Int) - 52)).toNat)
      (1 * Nat.pow 2 ((number.log2 : Int) - 52).toNat)
    have quotient := scaled_whole_lt number
    have unit : exponentBit = 2 ^ 52 := by decide
    have top : infinity = 2047 * 2 ^ 52 := by decide
    rw [nearestMagnitude, if_neg zero]
    simp only [scale]
    rw [unit, top]
    omega

/-- A natural number of sixty-four bits stands for a float, with either sign. -/
theorem ofDecimal?_whole (negative : Bool) {number : Nat} (bounded : number < 2 ^ 64) :
    (ofDecimal? negative number 0).isSome = true := by
  have digits : (Nat.toDigits 10 number).length ≤ 20 :=
    (Nat.length_toDigits_le_iff (by decide) (by decide)).mpr (bounded.trans_le (by decide))
  have finite := nearestMagnitude_whole_lt bounded
  unfold ofDecimal?
  simp only
  split
  · rfl
  · rw [if_neg (by omega)]
    have whole : nearestMagnitude (number * Nat.pow 10 (0 : Int).toNat)
        (Nat.pow 10 (-0 : Int).toNat) = nearestMagnitude number 1 := by
      simp
    rw [whole, if_pos finite]
    rfl

end FixtureLiterals.Binary64
