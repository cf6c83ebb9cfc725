import FixtureLiterals.Binary64.Basic
import Mathlib.Tactic.Linarith
import Mathlib.Algebra.Order.Ring.Nat

/-!
# The range of 32-bit floats

The absolute value of a finite float is a quotient of natural numbers. The greatest
finite number of the 32-bit format is `(2 ^ 24 - 1) * 2 ^ 104`, and comparing magnitudes,
which are bit patterns, with the pattern of that number gives the same answer as comparing
absolute values.
-/

namespace FixtureLiterals.Binary64

/-- The greatest finite number of the 32-bit format. -/
def greatestSingle : Nat := (Nat.pow 2 24 - 1) * Nat.pow 2 104

/-- The absolute value of a finite float is not above the 32-bit range. -/
def InSingleRange (float : Binary64) : Prop :=
  float.numerator ≤ greatestSingle * float.denominator

/-- A significand has at most fifty-three bits. -/
theorem significand_lt (float : Binary64) : float.significand < 2 * exponentBit := by
  have bound : float.magnitude % exponentBit < exponentBit := Nat.mod_lt _ (by decide)
  unfold significand
  split <;> omega

/-- Where the exponent leaves no place behind the binary point, the float is a natural number. -/
theorem value_of_large (float : Binary64) (large : 1075 ≤ float.magnitude / exponentBit) :
    float.numerator = (exponentBit + float.magnitude % exponentBit) *
        Nat.pow 2 (float.magnitude / exponentBit - 1075) ∧
      float.denominator = 1 := by
  have scaled : float.scale = ((float.magnitude / exponentBit - 1075 : Nat) : Int) := by
    unfold scale
    omega
  have normal : ¬ float.magnitude < exponentBit := by
    intro subnormal
    rw [Nat.div_eq_of_lt subnormal] at large
    omega
  constructor
  · rw [numerator, scaled, significand, if_neg normal, Int.toNat_natCast]
  · rw [denominator, scaled, Int.toNat_neg_natCast]

/-- Where the exponent leaves places behind the binary point, the value is below all of the
exponents above. -/
theorem value_of_small (float : Binary64) (small : float.magnitude / exponentBit < 1075) :
    float.numerator < 2 * exponentBit ∧ 0 < float.denominator := by
  have scaled : float.scale.toNat = 0 := by
    unfold scale
    omega
  constructor
  · rw [numerator, scaled]
    exact (Nat.mul_one _).symm ▸ significand_lt float
  · exact Nat.pow_pos (by decide)

/-- Magnitudes decide whether a float exceeds the 32-bit range. -/
theorem greatestFloat32_lt_iff (float : Binary64) :
    greatestFloat32 < float.magnitude ↔ greatestSingle * float.denominator < float.numerator := by
  have fraction : float.magnitude % exponentBit < exponentBit := Nat.mod_lt _ (by decide)
  have unit : exponentBit = 0x10000000000000 := rfl
  have pattern : greatestFloat32 = 0x10000000000000 * 1150 + 0xFFFFFE0000000 := by decide
  rcases Nat.lt_trichotomy (float.magnitude / exponentBit) 1150 with below | at_top | above
  · -- The whole binade lies below the one of the greatest number.
    have within : float.numerator ≤ greatestSingle * float.denominator := by
      by_cases small : float.magnitude / exponentBit < 1075
      · obtain ⟨tiny, positive⟩ := value_of_small float small
        calc float.numerator ≤ greatestSingle * 1 := tiny.le.trans (by decide)
          _ ≤ greatestSingle * float.denominator := Nat.mul_le_mul_left _ positive
      · obtain ⟨numerator, denominator⟩ := value_of_large float (by omega)
        rw [numerator, denominator]
        calc (exponentBit + float.magnitude % exponentBit) *
              Nat.pow 2 (float.magnitude / exponentBit - 1075)
            ≤ (2 * exponentBit) * Nat.pow 2 74 :=
              Nat.mul_le_mul (by omega) (Nat.pow_le_pow_right (by decide) (by omega))
          _ ≤ greatestSingle * 1 := by decide
    rw [unit] at below
    omega
  · -- In the binade of the greatest number, the significands decide.
    obtain ⟨numerator, denominator⟩ := value_of_large float (by omega)
    have power : Nat.pow 2 (1150 - 1075) = 0x8000000000000000000 := by decide
    have greatest : greatestSingle = 0x1FFFFFE0000000 * 0x8000000000000000000 := by decide
    rw [numerator, denominator, at_top, power, greatest]
    rw [unit] at at_top ⊢
    omega
  · -- Every number of a higher binade is greater.
    obtain ⟨numerator, denominator⟩ := value_of_large float (by omega)
    have exceeding : greatestSingle * float.denominator < float.numerator := by
      rw [numerator, denominator]
      calc greatestSingle * 1 < exponentBit * Nat.pow 2 76 := by decide
        _ ≤ (exponentBit + float.magnitude % exponentBit) *
              Nat.pow 2 (float.magnitude / exponentBit - 1075) :=
            Nat.mul_le_mul (by omega) (Nat.pow_le_pow_right (by decide) (by omega))
    rw [unit] at above
    omega

/-- A float that exceeds the 32-bit range is exactly a finite one with an absolute value that
is not in the range. -/
theorem exceedsFloat32_eq_false_iff (float : Binary64) :
    float.exceedsFloat32 = false ↔ (float.isFinite = true → float.InSingleRange) := by
  have decided := greatestFloat32_lt_iff float
  rw [← not_iff_not] at decided
  cases finite : float.isFinite with
  | false => simp [exceedsFloat32, finite]
  | true =>
    simp only [exceedsFloat32, finite, Bool.true_and, decide_eq_false_iff_not, decided,
      InSingleRange, Nat.not_lt, true_implies]

end FixtureLiterals.Binary64
