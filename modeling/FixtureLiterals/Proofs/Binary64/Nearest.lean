import FixtureLiterals.Binary64.Nearest
import FixtureLiterals.Proofs.Binary64.Range
import Mathlib.Algebra.Order.Field.Power
import Mathlib.Data.Int.Log
import Mathlib.Data.Rat.Floor
import Mathlib.Tactic.FieldSimp
import Mathlib.Tactic.Ring

/-!
# Which float is nearest to a quotient

The nearest magnitude is computed from a numerator and a denominator, and powers of two and
ten reach either of them. What comes out depends on the rational number alone: the
binade is its logarithm, and rounding depends on the scaled quotient. And a finite float is
nearest to itself, so a number that stands for a float exactly is read as that float.
-/

namespace FixtureLiterals.Binary64

/-- Scaling a quotient by a power of an integer multiplies the numerator or the denominator. -/
theorem quotient_scaled (base numerator denominator : Nat) (positive : 0 < base) (exponent : Int) :
    ((numerator * Nat.pow base exponent.toNat : Nat) : Rat) /
        ((denominator * Nat.pow base (-exponent).toNat : Nat) : Rat) =
      numerator / denominator * (base : Rat) ^ exponent := by
  have nonzero : (base : Rat) ≠ 0 := by exact_mod_cast positive.ne'
  obtain ⟨size, rfl | rfl⟩ := exponent.eq_nat_or_neg
  · simp only [Int.toNat_natCast, Int.toNat_neg_natCast, Nat.pow_eq, pow_zero, mul_one,
      Nat.cast_mul, Nat.cast_pow, zpow_natCast]
    ring
  · simp only [neg_neg, Int.toNat_natCast, Int.toNat_neg_natCast, Nat.pow_eq, pow_zero, mul_one,
      Nat.cast_mul, Nat.cast_pow, zpow_neg, zpow_natCast]
    rw [div_mul_eq_div_div, div_eq_mul_inv (_ / _)]

/-- Rounding does not depend on a common factor. -/
theorem roundHalfEven_mul_left (factor numerator denominator : Nat) (positive : 0 < factor) :
    roundHalfEven (factor * numerator) (factor * denominator) =
      roundHalfEven numerator denominator := by
  have doubled : 2 * (factor * (numerator % denominator)) =
      factor * (2 * (numerator % denominator)) := by ring
  simp only [roundHalfEven, Nat.mul_div_mul_left _ _ positive, Nat.mul_mod_mul_left, doubled,
    Nat.mul_lt_mul_left positive]

/-- Rounding depends on the quotient alone. -/
theorem roundHalfEven_congr {numerator denominator above below : Nat} (positive : 0 < denominator)
    (nonzero : 0 < below) (same : (numerator : Rat) / denominator = above / below) :
    roundHalfEven numerator denominator = roundHalfEven above below := by
  have crossed : numerator * below = above * denominator := by
    have denominators : (denominator : Rat) ≠ 0 ∧ (below : Rat) ≠ 0 :=
      ⟨by exact_mod_cast positive.ne', by exact_mod_cast nonzero.ne'⟩
    rw [div_eq_div_iff denominators.1 denominators.2] at same
    exact_mod_cast same
  calc roundHalfEven numerator denominator
      = roundHalfEven (below * numerator) (below * denominator) :=
        (roundHalfEven_mul_left below numerator denominator nonzero).symm
    _ = roundHalfEven (denominator * above) (denominator * below) := by
        rw [Nat.mul_comm below numerator, crossed, Nat.mul_comm above, Nat.mul_comm below]
    _ = roundHalfEven above below := roundHalfEven_mul_left denominator above below positive

/-- A natural number is its own rounding. -/
theorem roundHalfEven_one (number : Nat) : roundHalfEven number 1 = number := by
  simp [roundHalfEven, Nat.mod_one]

/-- The logarithm of a number between two neighbouring powers of two is the lower exponent. -/
theorem log_eq_of_between {number : Rat} {exponent : Int} (reached : (2 : Rat) ^ exponent ≤ number)
    (missed : number < (2 : Rat) ^ (exponent + 1)) : Int.log 2 number = exponent := by
  have positive : 0 < number := (zpow_pos (by norm_num) exponent).trans_le reached
  have atLeast : exponent ≤ Int.log 2 number :=
    (Int.zpow_le_iff_le_log (by norm_num) positive).mp (by exact_mod_cast reached)
  have below : Int.log 2 number < exponent + 1 :=
    (Int.lt_zpow_iff_log_lt (by norm_num) positive).mp (by exact_mod_cast missed)
  omega

/-- The greatest power of two that does not exceed a quotient is its logarithm. -/
theorem binade_eq_log {numerator denominator : Nat} (nonzero : 0 < numerator)
    (positive : 0 < denominator) :
    binade numerator denominator = Int.log 2 ((numerator : Rat) / denominator) := by
  have numeratorLow : (2 : Rat) ^ numerator.log2 ≤ numerator := by
    exact_mod_cast Nat.log2_self_le nonzero.ne'
  have numeratorHigh : (numerator : Rat) < 2 ^ (numerator.log2 + 1) := by
    exact_mod_cast Nat.lt_log2_self
  have denominatorLow : (2 : Rat) ^ denominator.log2 ≤ denominator := by
    exact_mod_cast Nat.log2_self_le positive.ne'
  have denominatorHigh : (denominator : Rat) < 2 ^ (denominator.log2 + 1) := by
    exact_mod_cast Nat.lt_log2_self
  have denominatorPositive : (0 : Rat) < denominator := by exact_mod_cast positive
  generalize estimated : (numerator.log2 : Int) - denominator.log2 = estimate
  have tested : denominator * Nat.pow 2 estimate.toNat ≤ numerator * Nat.pow 2 (-estimate).toNat ↔
      (2 : Rat) ^ estimate ≤ numerator / denominator := by
    have scaled := quotient_scaled 2 denominator numerator (by decide) estimate
    have scaledPositive : (0 : Rat) < (numerator * Nat.pow 2 (-estimate).toNat : Nat) := by
      exact_mod_cast Nat.mul_pos nonzero (Nat.pow_pos (by decide))
    have numeratorPositive : (0 : Rat) < numerator := by exact_mod_cast nonzero
    rw [← @Nat.cast_le Rat, ← div_le_one scaledPositive, scaled, le_div_iff₀ denominatorPositive,
      div_mul_eq_mul_div, div_le_one numeratorPositive]
    push_cast
    rw [mul_comm]
  have upper : (numerator : Rat) / denominator < (2 : Rat) ^ (estimate + 1) := by
    rw [div_lt_iff₀ denominatorPositive]
    calc (numerator : Rat) < 2 ^ (numerator.log2 + 1) := numeratorHigh
      _ = (2 : Rat) ^ (estimate + 1) * 2 ^ denominator.log2 := by
          rw [← zpow_natCast, ← zpow_natCast, ← zpow_add₀ (by norm_num), ← estimated]
          congr 1
          push_cast
          ring
      _ ≤ (2 : Rat) ^ (estimate + 1) * denominator :=
          mul_le_mul_of_nonneg_left denominatorLow (zpow_pos (by norm_num) _).le
  have lower : (2 : Rat) ^ (estimate - 1) ≤ numerator / denominator := by
    rw [le_div_iff₀ denominatorPositive]
    calc (2 : Rat) ^ (estimate - 1) * denominator
        ≤ (2 : Rat) ^ (estimate - 1) * 2 ^ (denominator.log2 + 1) :=
          mul_le_mul_of_nonneg_left denominatorHigh.le (zpow_pos (by norm_num) _).le
      _ = 2 ^ numerator.log2 := by
          rw [← zpow_natCast, ← zpow_natCast, ← zpow_add₀ (by norm_num), ← estimated]
          congr 1
          push_cast
          ring
      _ ≤ numerator := numeratorLow
  unfold binade
  simp only [estimated]
  split
  case isTrue reached => exact (log_eq_of_between (tested.mp reached) upper).symm
  case isFalse missed =>
    refine (log_eq_of_between lower ?_).symm
    rw [sub_add_cancel]
    exact not_le.mp fun reached => missed (tested.mpr reached)

/-- A power of two is positive. -/
theorem power_pos (exponent : Nat) : 0 < Nat.pow 2 exponent := Nat.pow_pos (by decide)

/-- The quotient that is rounded is the number in units of the scale. -/
theorem scaled_down (numerator denominator : Nat) (scale : Int) :
    ((numerator * Nat.pow 2 (-scale).toNat : Nat) : Rat) /
        ((denominator * Nat.pow 2 scale.toNat : Nat) : Rat) =
      numerator / denominator * (2 : Rat) ^ (-scale) := by
  have scaled := quotient_scaled 2 numerator denominator (by decide) (-scale)
  rw [neg_neg] at scaled
  exact_mod_cast scaled

/-- The nearest magnitude depends on the quotient alone. -/
theorem nearestMagnitude_congr {numerator denominator above below : Nat}
    (positive : 0 < denominator) (nonzero : 0 < below)
    (same : (numerator : Rat) / denominator = above / below) :
    nearestMagnitude numerator denominator = nearestMagnitude above below := by
  have denominators : (denominator : Rat) ≠ 0 ∧ (below : Rat) ≠ 0 :=
    ⟨by exact_mod_cast positive.ne', by exact_mod_cast nonzero.ne'⟩
  by_cases zero : numerator = 0
  · have vanishing : above = 0 := by
      rw [zero, Nat.cast_zero, zero_div, eq_comm, div_eq_zero_iff] at same
      exact_mod_cast same.resolve_right denominators.2
    rw [nearestMagnitude, nearestMagnitude, if_pos zero, if_pos vanishing]
  · have remaining : above ≠ 0 := by
      rintro rfl
      rw [Nat.cast_zero, zero_div, div_eq_zero_iff] at same
      exact zero (by exact_mod_cast same.resolve_right denominators.1)
    have binades : binade numerator denominator = binade above below := by
      rw [binade_eq_log (Nat.pos_of_ne_zero zero) positive,
        binade_eq_log (Nat.pos_of_ne_zero remaining) nonzero, same]
    rw [nearestMagnitude, nearestMagnitude, if_neg zero, if_neg remaining, binades]
    refine congrArg (_ + ·) (roundHalfEven_congr (Nat.mul_pos positive (power_pos _))
      (Nat.mul_pos nonzero (power_pos _)) ?_)
    rw [scaled_down, scaled_down, same]

/-- The absolute value of a finite float. -/
def value (float : Binary64) : Rat := float.numerator / float.denominator

/-- The value is the significand, scaled. -/
theorem value_eq_scaled (float : Binary64) :
    float.value = float.significand * (2 : Rat) ^ float.scale := by
  have scaled := quotient_scaled 2 float.significand 1 (by decide) float.scale
  rw [Nat.one_mul, Nat.cast_one, div_one] at scaled
  exact_mod_cast scaled

/-- The denominator of a value is positive. -/
theorem denominator_pos (float : Binary64) : 0 < float.denominator := power_pos _

/-- Magnitude, exponent and significand fit together. -/
theorem magnitude_eq (float : Binary64) :
    (float.scale + 1074).toNat * exponentBit + float.significand = float.magnitude := by
  have unit : exponentBit = 0x10000000000000 := rfl
  unfold scale significand
  rw [unit]
  split <;> omega

/-- A significand is rounded at the scale of the float. -/
theorem scale_of_significand (float : Binary64) (nonzero : float.significand ≠ 0) :
    max (Int.log 2 float.value - 52) (-1074) = float.scale := by
  have unit : exponentBit = 2 ^ 52 := rfl
  have positive : (0 : Rat) < float.value := by
    rw [value_eq_scaled]
    exact mul_pos (by exact_mod_cast Nat.pos_of_ne_zero nonzero) (zpow_pos (by norm_num) _)
  have upper : float.value < (2 : Rat) ^ (float.scale + 53) := by
    have bounded : (float.significand : Rat) < 2 ^ (53 : Int) := by
      exact_mod_cast significand_lt float
    rw [value_eq_scaled, zpow_add₀ (by norm_num), mul_comm]
    exact mul_lt_mul_of_pos_left bounded (zpow_pos (by norm_num) _)
  have below : Int.log 2 float.value < float.scale + 53 :=
    (Int.lt_zpow_iff_log_lt (by norm_num) positive).mp (by exact_mod_cast upper)
  have least : -1074 ≤ float.scale := by
    unfold scale
    omega
  by_cases subnormal : float.magnitude < exponentBit
  · -- The exponent can sink no further.
    have lowest : float.scale = -1074 := by
      rw [scale, Nat.div_eq_of_lt subnormal]
      rfl
    omega
  · -- The leading bit is set.
    have leading : exponentBit ≤ float.significand := by
      rw [significand, if_neg subnormal]
      exact Nat.le_add_right _ _
    have lower : (2 : Rat) ^ (float.scale + 52) ≤ float.value := by
      have reached : (2 : Rat) ^ (52 : Int) ≤ float.significand := by exact_mod_cast leading
      rw [value_eq_scaled, zpow_add₀ (by norm_num), mul_comm]
      exact mul_le_mul_of_nonneg_right reached (zpow_pos (by norm_num) _).le
    have above : float.scale + 52 ≤ Int.log 2 float.value :=
      (Int.zpow_le_iff_le_log (by norm_num) positive).mp (by exact_mod_cast lower)
    omega

/-- A float is nearest to its own value. -/
theorem nearestMagnitude_self (float : Binary64) :
    nearestMagnitude float.numerator float.denominator = float.magnitude := by
  by_cases zero : float.significand = 0
  · have vanishing : float.numerator = 0 := by rw [numerator, zero, Nat.zero_mul]
    have unit : exponentBit = 0x10000000000000 := rfl
    rw [nearestMagnitude, if_pos vanishing, ← magnitude_eq, zero]
    unfold scale
    unfold significand at zero
    rw [unit] at zero ⊢
    split at zero <;> omega
  · have nonzero : float.numerator ≠ 0 :=
      (Nat.mul_pos (Nat.pos_of_ne_zero zero) (power_pos _)).ne'
    have scaled : max (binade float.numerator float.denominator - 52) (-1074) = float.scale := by
      rw [binade_eq_log (Nat.pos_of_ne_zero nonzero) float.denominator_pos]
      exact scale_of_significand float zero
    have rounded : roundHalfEven (float.numerator * Nat.pow 2 (-float.scale).toNat)
        (float.denominator * Nat.pow 2 float.scale.toNat) = float.significand := by
      have exact : ((float.numerator * Nat.pow 2 (-float.scale).toNat : Nat) : Rat) /
          ((float.denominator * Nat.pow 2 float.scale.toNat : Nat) : Rat) =
            (float.significand : Rat) / (1 : Nat) := by
        have own : (float.numerator : Rat) / float.denominator =
            float.significand * (2 : Rat) ^ float.scale := value_eq_scaled float
        rw [scaled_down, own, mul_assoc, ← zpow_add₀ (by norm_num), add_neg_cancel, zpow_zero,
          mul_one, Nat.cast_one, div_one]
      rw [roundHalfEven_congr (Nat.mul_pos float.denominator_pos (power_pos _)) Nat.one_pos exact,
        roundHalfEven_one]
    rw [nearestMagnitude, if_neg nonzero]
    simp only [scaled]
    rw [rounded, magnitude_eq]

/-- The number that a magnitude is nearest to, in whichever way it is written as a quotient. -/
def IsNearest (magnitude : Nat) (number : Rat) : Prop :=
  ∃ numerator denominator : Nat, 0 < denominator ∧ (numerator : Rat) / denominator = number ∧
    nearestMagnitude numerator denominator = magnitude

/-- A number has one nearest magnitude. -/
theorem IsNearest.unique {first second : Nat} {number : Rat} (nearest : IsNearest first number)
    (closest : IsNearest second number) : first = second := by
  obtain ⟨numerator, denominator, positive, quotient, rfl⟩ := nearest
  obtain ⟨above, below, nonzero, ratio, rfl⟩ := closest
  exact nearestMagnitude_congr positive nonzero (quotient.trans ratio.symm)

/-- A float is nearest to its own value. -/
theorem isNearest_value (float : Binary64) : IsNearest float.magnitude float.value :=
  ⟨float.numerator, float.denominator, float.denominator_pos, rfl, nearestMagnitude_self float⟩

end FixtureLiterals.Binary64
