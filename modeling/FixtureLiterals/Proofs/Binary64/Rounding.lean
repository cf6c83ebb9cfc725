import FixtureLiterals.Proofs.Binary64.Written
import Mathlib.Algebra.Order.Ring.Abs
import Mathlib.Tactic.Linarith

/-!
# Rounding to the nearest float

Rounding is described here without an algorithm: no other float is nearer to the number, and if
another one is as near, the pattern of the rounded float is even. Infinity counts as the number
that its pattern would stand for, two to the power of 1024, so that a number which is as near to
it as to the greatest finite float has no rounding at all.

The nearest magnitude is what this describes. In units of its scale the number is rounded to a
natural number. All floats of that scale and above are natural numbers in these units too, and the
floats of the scales below are smaller than any number that is rounded at this scale. Of two
roundings at the same distance both would be even, with a float between them that is nearer, so
there is one rounding.
-/

namespace FixtureLiterals.Binary64

/-- A quotient is rounded by a half at most, and by a half only to an even number. -/
theorem roundHalfEven_spec (numerator : Nat) {denominator : Nat} (positive : 0 < denominator) :
    |(roundHalfEven numerator denominator : Rat) - numerator / denominator| ≤ 1 / 2 ∧
      (|(roundHalfEven numerator denominator : Rat) - numerator / denominator| = 1 / 2 →
        roundHalfEven numerator denominator % 2 = 0) := by
  have size : (0 : Rat) < denominator := by exact_mod_cast positive
  -- The number is its integer part and the part that rounding decides on.
  obtain ⟨part, small, large, nonneg, below, divided⟩ : ∃ part : Rat,
      (2 * (numerator % denominator) < denominator ↔ part < 1 / 2) ∧
      (denominator < 2 * (numerator % denominator) ↔ 1 / 2 < part) ∧
      0 ≤ part ∧ part < 1 ∧
      (numerator : Rat) / denominator = (numerator / denominator : Nat) + part := by
    refine ⟨(numerator % denominator : Nat) / denominator, ?_, ?_, by positivity, ?_, ?_⟩
    · rw [div_lt_div_iff₀ size (by norm_num), mul_comm, one_mul]
      exact_mod_cast Iff.rfl
    · rw [div_lt_div_iff₀ (by norm_num) size, mul_comm (_ : Rat) 2, one_mul]
      exact_mod_cast Iff.rfl
    · rw [div_lt_one size]
      exact_mod_cast Nat.mod_lt _ positive
    · rw [div_eq_iff size.ne', add_mul, div_mul_cancel₀ _ size.ne']
      exact_mod_cast (Nat.div_add_mod' numerator denominator).symm
  rw [divided]
  unfold roundHalfEven
  simp only
  split
  case isTrue fewer =>
    have less := small.mp fewer
    rw [sub_add_cancel_left, abs_neg, abs_of_nonneg nonneg]
    exact ⟨less.le, fun tie => absurd tie less.ne⟩
  case isFalse notFewer =>
    split
    case isTrue more =>
      have greater := large.mp more
      push_cast
      rw [add_sub_add_left_eq_sub, abs_of_pos (by linarith)]
      exact ⟨by linarith, fun tie => absurd tie (by linarith)⟩
    case isFalse notMore =>
      have exact : part = 1 / 2 :=
        le_antisymm (not_lt.mp (mt large.mpr notMore)) (not_lt.mp (mt small.mpr notFewer))
      rcases Nat.mod_two_eq_zero_or_one (numerator / denominator) with even | odd
      · simp only [even, exact, Nat.add_zero, sub_add_cancel_left, abs_neg]
        exact ⟨by norm_num, fun _ => trivial⟩
      · simp only [odd, exact]
        push_cast
        rw [add_sub_add_left_eq_sub]
        exact ⟨by norm_num, fun _ => by omega⟩

/-- No power of two scales a significand below the least one. -/
theorem least_le_scale (float : Binary64) : -1074 ≤ float.scale := by
  unfold scale
  omega

/-- Above the least scale, the leading bit is set. -/
theorem leading_of_scale {float : Binary64} (above : -1074 < float.scale) :
    exponentBit ≤ float.significand := by
  have unit : exponentBit = 0x10000000000000 := rfl
  unfold scale at above
  unfold significand
  rw [unit] at above ⊢
  split <;> omega

/-- A float is below every power of two that its exponent cannot reach. -/
theorem value_lt (float : Binary64) : float.value < (2 : Rat) ^ (float.scale + 53) := by
  have bounded : (float.significand : Rat) < 2 ^ (53 : Int) := by
    exact_mod_cast significand_lt float
  rw [value_eq_scaled, zpow_add₀ (by norm_num), mul_comm]
  exact mul_lt_mul_of_pos_left bounded (zpow_pos (by norm_num) _)

/-- Above the least scale, a float is not below the power of two of its leading bit. -/
theorem le_value {float : Binary64} (above : -1074 < float.scale) :
    (2 : Rat) ^ (float.scale + 52) ≤ float.value := by
  have leading : (2 : Rat) ^ (52 : Int) ≤ float.significand := by
    exact_mod_cast leading_of_scale above
  rw [value_eq_scaled, zpow_add₀ (by norm_num), mul_comm]
  exact mul_le_mul_of_nonneg_right leading (zpow_pos (by norm_num) _).le

/-- Floats of greater magnitudes have greater values. -/
theorem value_lt_value {first second : Binary64} (less : first.magnitude < second.magnitude) :
    first.value < second.value := by
  have scales : first.scale ≤ second.scale := by
    have quotients := Nat.div_le_div_right (c := exponentBit) less.le
    unfold scale
    omega
  rcases scales.eq_or_lt with same | lower
  · have significands : first.significand < second.significand := by
      have left := magnitude_eq first
      have right := magnitude_eq second
      rw [same] at left
      omega
    rw [value_eq_scaled, value_eq_scaled, same]
    exact mul_lt_mul_of_pos_right (by exact_mod_cast significands) (zpow_pos (by norm_num) _)
  · have least := least_le_scale first
    calc first.value < (2 : Rat) ^ (first.scale + 53) := value_lt first
      _ ≤ (2 : Rat) ^ (second.scale + 52) := zpow_le_zpow_right₀ (by norm_num) (by omega)
      _ ≤ second.value := le_value (by omega)

/-- The float at which counting arrives from a scale on. Counting may go on into the next scale. -/
theorem value_of_magnitude {float : Binary64} {scale : Int} {count : Nat}
    (least : -1074 ≤ scale) (leading : -1074 < scale → exponentBit ≤ count)
    (bounded : count ≤ 2 * exponentBit)
    (pattern : float.magnitude = (scale + 1074).toNat * exponentBit + count) :
    float.value = count * (2 : Rat) ^ scale := by
  have unit : exponentBit = 0x10000000000000 := rfl
  have own := magnitude_eq float
  have high := significand_lt float
  rw [value_eq_scaled]
  rw [unit] at own high leading bounded pattern
  by_cases carried : count = 2 * 0x10000000000000
  · have next : float.scale = scale + 1 := by
      rw [Binary64.scale, unit, pattern]
      omega
    have significand : float.significand = 0x10000000000000 := by
      rw [next] at own
      omega
    rw [next, significand, carried, zpow_add₀ (by norm_num)]
    push_cast
    ring
  · have same : float.scale = scale := by
      rw [Binary64.scale, unit, pattern]
      omega
    have significand : float.significand = count := by
      rw [same] at own
      omega
    rw [same, significand]

/-- In units of a scale, a float is a natural number, or it is below the leading bit. -/
theorem value_on_grid_or_below (float : Binary64) {scale : Int} (least : -1074 ≤ scale) :
    (∃ units : Nat, float.value = units * (2 : Rat) ^ scale) ∨
      -1074 < scale ∧ float.value < (2 : Rat) ^ (52 : Int) * (2 : Rat) ^ scale := by
  by_cases finer : float.scale < scale
  · right
    have lower := least_le_scale float
    refine ⟨by omega, (value_lt float).trans_le ?_⟩
    rw [← zpow_add₀ (by norm_num)]
    exact zpow_le_zpow_right₀ (by norm_num) (by omega)
  · left
    obtain ⟨steps, split⟩ := Int.eq_ofNat_of_zero_le (show 0 ≤ float.scale - scale by omega)
    refine ⟨float.significand * 2 ^ steps, ?_⟩
    have whole : float.scale = steps + scale := by omega
    rw [value_eq_scaled, whole, zpow_add₀ (by norm_num), zpow_natCast]
    push_cast
    ring

/-- A natural number at a distance of a half at most is nearest among the natural numbers, and
the only one unless the distance is a half. -/
theorem nearest_natural {number : Rat} {count : Nat} (half : |number - count| ≤ 1 / 2)
    (other : Nat) :
    |number - count| ≤ |number - other| ∧
      ((other : Rat) ≠ count → |number - count| = |number - other| →
        |number - count| = 1 / 2) := by
  by_cases same : (other : Rat) = count
  · rw [same]
    exact ⟨le_refl _, fun different => absurd rfl different⟩
  · have apart : (1 : Rat) ≤ |(count : Rat) - other| := by
      have distinct : (count : Int) - other ≠ 0 := by
        intro equal
        exact same (by exact_mod_cast (sub_eq_zero.mp equal).symm)
      exact_mod_cast Int.one_le_abs distinct
    have path : |(count : Rat) - other| ≤ |number - count| + |number - other| := by
      rw [abs_sub_comm number count]
      exact abs_sub_le _ _ _
    constructor
    · linarith
    · intro _ tie
      linarith

/-- A number in the units of the scale that it is rounded at. -/
structure Rounded (float : Binary64) (number : Rat) (scale : Int) (count : Nat) (units : Rat) :
    Prop where
  least : -1074 ≤ scale
  /-- Above the least scale, the number reaches the leading bit. -/
  leading : -1074 < scale → (2 : Rat) ^ (52 : Int) ≤ units
  number : number = units * (2 : Rat) ^ scale
  value : float.value = count * (2 : Rat) ^ scale
  half : |units - count| ≤ 1 / 2
  even : |units - count| = 1 / 2 → float.magnitude % 2 = 0

/-- In units of its scale, a number is below the bit above the leading one, and it reaches the
leading one unless the exponent can sink no further. -/
theorem units_between {number : Rat} (positive : 0 < number) {scale : Int}
    (scaled : max (Int.log 2 number - 52) (-1074) = scale) :
    (-1074 < scale → (2 : Rat) ^ (52 : Int) ≤ number * (2 : Rat) ^ (-scale)) ∧
      number * (2 : Rat) ^ (-scale) < (2 : Rat) ^ (53 : Int) := by
  have reached : (2 : Rat) ^ Int.log 2 number ≤ number := by
    exact_mod_cast Int.zpow_log_le_self (by norm_num) positive
  have missed : number < (2 : Rat) ^ (Int.log 2 number + 1) := by
    exact_mod_cast Int.lt_zpow_succ_log_self Nat.one_lt_two number
  constructor
  · intro higher
    have exponent : (52 : Int) = Int.log 2 number + -scale := by omega
    rw [exponent, zpow_add₀ (by norm_num)]
    exact mul_le_mul_of_nonneg_right reached (zpow_pos (by norm_num) _).le
  · calc number * (2 : Rat) ^ (-scale)
        < (2 : Rat) ^ (Int.log 2 number + 1) * (2 : Rat) ^ (-scale) :=
          mul_lt_mul_of_pos_right missed (zpow_pos (by norm_num) _)
      _ = (2 : Rat) ^ (Int.log 2 number + 1 + -scale) := (zpow_add₀ (by norm_num) _ _).symm
      _ ≤ (2 : Rat) ^ (53 : Int) := zpow_le_zpow_right₀ (by norm_num) (by omega)

/-- Rounding does not pass a power of two. -/
theorem count_between {units : Rat} {count : Nat} (half : |units - count| ≤ 1 / 2) :
    ((2 : Rat) ^ (52 : Int) ≤ units → exponentBit ≤ count) ∧
      (units < (2 : Rat) ^ (53 : Int) → count ≤ 2 * exponentBit) := by
  obtain ⟨atLeast, atMost⟩ := abs_le.mp half
  constructor
  · intro reaches
    have more : (exponentBit : Rat) < (count + 1 : Nat) := by
      have unit : (exponentBit : Rat) = (2 : Rat) ^ (52 : Int) := by norm_num [exponentBit]
      rw [unit]
      push_cast
      linarith
    exact Nat.le_of_lt_succ (by exact_mod_cast more)
  · intro bounded
    have less : (count : Rat) < (2 * exponentBit + 1 : Nat) := by
      have unit : ((2 * exponentBit + 1 : Nat) : Rat) = (2 : Rat) ^ (53 : Int) + 1 := by
        norm_num [exponentBit]
      rw [unit]
      linarith
    exact Nat.le_of_lt_succ (by exact_mod_cast less)

/-- The nearest magnitude is found in the units of a scale. -/
theorem IsNearest.exists_rounded {float : Binary64} {number : Rat}
    (nearest : IsNearest float.magnitude number) (nonzero : number ≠ 0) :
    ∃ scale count units, Rounded float number scale count units := by
  obtain ⟨numerator, denominator, positive, rfl, found⟩ := nearest
  have counted : numerator ≠ 0 := by
    rintro rfl
    exact nonzero (by rw [Nat.cast_zero, zero_div])
  have above : (0 : Rat) < (numerator : Rat) / denominator :=
    div_pos (by exact_mod_cast Nat.pos_of_ne_zero counted) (by exact_mod_cast positive)
  rw [nearestMagnitude, if_neg counted,
    binade_eq_log (Nat.pos_of_ne_zero counted) positive] at found
  simp only at found
  generalize scaled : max (Int.log 2 ((numerator : Rat) / denominator) - 52) (-1074) = scale
    at found
  generalize counting : roundHalfEven (numerator * Nat.pow 2 (-scale).toNat)
    (denominator * Nat.pow 2 scale.toNat) = count at found
  obtain ⟨half, even⟩ := roundHalfEven_spec (numerator * Nat.pow 2 (-scale).toNat)
    (Nat.mul_pos positive (power_pos scale.toNat))
  rw [counting, scaled_down, abs_sub_comm] at half even
  generalize (numerator : Rat) / denominator = number at *
  obtain ⟨reaches, bounded⟩ := units_between above scaled
  obtain ⟨leading, carried⟩ := count_between half
  refine ⟨scale, count, number * (2 : Rat) ^ (-scale), {
    least := by omega
    leading := reaches
    number := ?number
    value := value_of_magnitude (by omega) (fun higher => leading (reaches higher))
      (carried bounded) found.symm
    half := half
    even := fun tie => ?even }⟩
  case number => rw [mul_assoc, ← zpow_add₀ (by norm_num), neg_add_cancel, zpow_zero, mul_one]
  case even =>
    have parity := even tie
    have unit : exponentBit = 2 * 0x8000000000000 := rfl
    rw [← found, unit]
    omega

/-- No float is nearer to a number than the one that rounding finds, and another one is as near
only if the number is a half in the units of the scale. -/
theorem Rounded.nearest {float : Binary64} {number : Rat} {scale : Int} {count : Nat} {units : Rat}
    (rounded : Rounded float number scale count units) (other : Binary64) :
    |number - float.value| ≤ |number - other.value| ∧
      (other.value ≠ float.value → |number - float.value| = |number - other.value| →
        |units - count| = 1 / 2) := by
  have size : (0 : Rat) < (2 : Rat) ^ scale := zpow_pos (by norm_num) _
  have distance (first second : Rat) :
      |first * (2 : Rat) ^ scale - second * (2 : Rat) ^ scale| =
        |first - second| * (2 : Rat) ^ scale := by
    rw [← sub_mul, abs_mul, abs_of_pos size]
  rw [rounded.number, rounded.value]
  rcases value_on_grid_or_below other rounded.least with ⟨natural, value⟩ | ⟨above, below⟩
  · obtain ⟨near, tied⟩ := nearest_natural rounded.half natural
    rw [value, distance, distance]
    refine ⟨mul_le_mul_of_nonneg_right near size.le, fun different tie => tied ?_ ?_⟩
    · rintro equal
      exact different (by rw [equal])
    · exact mul_right_cancel₀ size.ne' tie
  · -- The leading bit is a natural number, and the number is on its other side.
    have reaches := rounded.leading above
    obtain ⟨near, -⟩ := nearest_natural rounded.half (2 ^ 52)
    have strictly : |units - count| * (2 : Rat) ^ scale <
        |units * (2 : Rat) ^ scale - other.value| := by
      have leading : ((2 ^ 52 : Nat) : Rat) = (2 : Rat) ^ (52 : Int) := by norm_num
      rw [leading, abs_of_nonneg (sub_nonneg.mpr reaches)] at near
      calc |units - count| * (2 : Rat) ^ scale
          ≤ (units - (2 : Rat) ^ (52 : Int)) * (2 : Rat) ^ scale :=
            mul_le_mul_of_nonneg_right near size.le
        _ < units * (2 : Rat) ^ scale - other.value := by
            rw [sub_mul]
            exact sub_lt_sub_left below _
        _ ≤ |units * (2 : Rat) ^ scale - other.value| := le_abs_self _
    rw [distance]
    exact ⟨strictly.le, fun _ tie => absurd tie strictly.ne⟩

/-- The number that a float stands for. An infinity stands for the number that its pattern would
have if exponents went on. -/
def signedValue (float : Binary64) : Rat := if float.isNegative then -float.value else float.value

/-- The float that a number is rounded to. Of two floats at the same distance it is the one with
an even pattern, and a number that is rounded to zero loses its sign. -/
structure RoundsTo (number : Rat) (float : Binary64) : Prop where
  finite : float.isFinite = true
  nearest : ∀ other : Binary64, other.isNaN = false →
    |number - float.signedValue| ≤ |number - other.signedValue|
  even : ∀ other : Binary64, other.isNaN = false → other.signedValue ≠ float.signedValue →
    |number - float.signedValue| = |number - other.signedValue| → float.magnitude % 2 = 0
  sign : float.isNegative = true ↔ number < 0 ∧ float.isZero = false

/-- A value has no sign. -/
theorem value_nonneg (float : Binary64) : 0 ≤ float.value :=
  div_nonneg (Nat.cast_nonneg _) (Nat.cast_nonneg _)

/-- The sign of a float makes no difference to its absolute value. -/
theorem abs_signedValue (float : Binary64) : |float.signedValue| = float.value := by
  unfold signedValue
  split
  · rw [abs_neg, abs_of_nonneg float.value_nonneg]
  · exact abs_of_nonneg float.value_nonneg

/-- Zeros stand for zero. -/
theorem value_of_zero {float : Binary64} (zero : float.magnitude = 0) : float.value = 0 := by
  rw [value_eq_scaled, significand, zero]
  norm_num [exponentBit]

/-- Only zeros stand for zero. -/
theorem value_pos {float : Binary64} (nonzero : float.magnitude ≠ 0) : 0 < float.value := by
  have zero : Binary64.magnitude ⟨0⟩ = 0 := rfl
  rw [← value_of_zero zero]
  exact value_lt_value (zero ▸ Nat.pos_of_ne_zero nonzero)

/-- The distance to a float of the same sign is that of the absolute values. -/
theorem distance_of_sign {number : Rat} {float : Binary64}
    (sign : float.isNegative = true ↔ number < 0 ∧ float.isZero = false) :
    |number - float.signedValue| = |(|number| - float.value)| := by
  unfold signedValue
  split
  case isTrue negative =>
    rw [abs_of_neg (sign.mp negative).1, abs_sub_comm (-number)]
    congr 1
    ring
  case isFalse positive =>
    by_cases below : number < 0
    · have zero : float.isZero = true := by
        by_contra nonzero
        exact positive (sign.mpr ⟨below, eq_false_of_ne_true nonzero⟩)
      rw [value_of_zero (of_decide_eq_true zero), sub_zero, sub_zero, abs_abs]
    · rw [abs_of_nonneg (not_lt.mp below)]

/-- The distance of absolute values is not greater than that of the numbers. -/
theorem distance_le (number : Rat) (float : Binary64) :
    |(|number| - float.value)| ≤ |number - float.signedValue| := by
  rw [← abs_signedValue]
  exact abs_abs_sub_abs_le _ _

/-- A number is rounded to the float of its sign whose magnitude is nearest. -/
theorem roundsTo_of_isNearest {number : Rat} {float : Binary64} (finite : float.isFinite = true)
    (nearest : IsNearest float.magnitude |number|)
    (sign : float.isNegative = true ↔ number < 0 ∧ float.isZero = false) :
    RoundsTo number float := by
  by_cases zero : number = 0
  · subst zero
    have magnitude : float.magnitude = 0 := by
      rw [abs_zero] at nearest
      exact nearest.unique ⟨0, 1, Nat.one_pos, by simp, rfl⟩
    refine ⟨finite, fun other _ => ?_, fun _ _ _ _ => by rw [magnitude], sign⟩
    rw [distance_of_sign sign, value_of_zero magnitude, abs_zero, sub_zero, abs_zero]
    exact abs_nonneg _
  · obtain ⟨scale, count, units, rounded⟩ := nearest.exists_rounded (abs_ne_zero.mpr zero)
    refine ⟨finite, fun other _ => ?_, fun other _ different tie => ?_, sign⟩
    · rw [distance_of_sign sign]
      exact (rounded.nearest other).1.trans (distance_le number other)
    · by_cases values : other.value = float.value
      · -- The other float is the opposite one, which is farther away unless it is zero.
        by_contra odd
        have nonzero : float.magnitude ≠ 0 := fun zero => odd (by rw [zero])
        have size := value_pos nonzero
        have opposite : other.signedValue = -float.signedValue := by
          have sizes : |other.signedValue| = |float.signedValue| := by
            rw [abs_signedValue, abs_signedValue, values]
          exact (abs_eq_abs.mp sizes).resolve_left different
        rw [opposite, sub_neg_eq_add, abs_eq_abs] at tie
        have large := abs_pos.mp (abs_signedValue float ▸ size)
        rcases tie with equal | equal
        · exact large (by linarith)
        · exact zero (by linarith)
      · refine rounded.even ((rounded.nearest other).2 values ?_)
        rw [distance_of_sign sign] at tie
        exact le_antisymm (rounded.nearest other).1 (tie.symm ▸ distance_le number other)

/-- The sign and the magnitude of a float that is built from them. -/
theorem ofMagnitude_spec (negative : Bool) {magnitude : Nat} (bounded : magnitude < signBit) :
    (ofMagnitude negative magnitude).magnitude = magnitude ∧
      (ofMagnitude negative magnitude).isNegative = negative := by
  have unit : signBit = 0x8000000000000000 := rfl
  rw [unit] at bounded
  cases negative with
  | false =>
    have pattern : (ofMagnitude false magnitude).bits.toNat = magnitude := by
      simp only [ofMagnitude, Bool.false_eq_true, if_false, UInt64.toNat_ofNat']
      omega
    simp only [Binary64.magnitude, isNegative, pattern, unit, decide_eq_false_iff_not]
    omega
  | true =>
    have pattern : (ofMagnitude true magnitude).bits.toNat = signBit + magnitude := by
      simp only [ofMagnitude, if_true, UInt64.toNat_ofNat', unit]
      omega
    simp only [Binary64.magnitude, isNegative, pattern, unit, decide_eq_true_eq]
    omega

/-- A number is not rounded to floats of two magnitudes, since both would be even, and the float
between them is nearer. -/
theorem RoundsTo.not_less {number : Rat} {first second : Binary64}
    (rounded : RoundsTo number first) (other : RoundsTo number second) :
    ¬ first.magnitude < second.magnitude := by
  intro less
  have limit : infinity < signBit := by decide
  have below : second.magnitude < infinity := of_decide_eq_true other.finite
  have firstNumber : first.isNaN = false := decide_eq_false (by omega)
  have secondNumber : second.isNaN = false := decide_eq_false (by omega)
  have values := value_lt_value less
  have tie : |number - first.signedValue| = |number - second.signedValue| :=
    le_antisymm (rounded.nearest second secondNumber) (other.nearest first firstNumber)
  have different : second.signedValue ≠ first.signedValue := by
    intro same
    have sizes := congrArg abs same
    rw [abs_signedValue, abs_signedValue] at sizes
    exact values.ne' sizes
  have firstEven := rounded.even second secondNumber different tie
  have secondEven := other.even first firstNumber different.symm tie.symm
  have room : first.magnitude + 1 < signBit := by omega
  obtain ⟨magnitude, negative⟩ := ofMagnitude_spec (decide (number < 0)) room
  generalize ofMagnitude (decide (number < 0)) (first.magnitude + 1) = between at magnitude negative
  have nonzero : between.isZero = false := decide_eq_false (by omega)
  have sign : between.isNegative = true ↔ number < 0 ∧ between.isZero = false := by
    rw [negative, decide_eq_true_eq, nonzero]
    exact (and_iff_left rfl).symm
  have lower : first.value < between.value := value_lt_value (by omega)
  have upper : between.value < second.value := value_lt_value (by omega)
  have nearer := rounded.nearest between (decide_eq_false (by omega))
  rw [distance_of_sign rounded.sign, distance_of_sign other.sign] at tie
  rw [distance_of_sign rounded.sign, distance_of_sign sign] at nearer
  rcases abs_eq_abs.mp tie with same | middle
  · linarith
  · have half : |(|number| - first.value)| = (second.value - first.value) / 2 := by
      rw [abs_of_nonneg (by linarith)]
      linarith
    have closer : |(|number| - between.value)| < (second.value - first.value) / 2 := by
      rw [abs_lt]
      constructor <;> linarith
    linarith

/-- A number is rounded to one float. -/
theorem RoundsTo.unique {number : Rat} {first second : Binary64} (rounded : RoundsTo number first)
    (other : RoundsTo number second) : first = second := by
  have magnitudes : first.magnitude = second.magnitude :=
    le_antisymm (not_lt.mp (other.not_less rounded)) (not_lt.mp (rounded.not_less other))
  have zeros : first.isZero = second.isZero := by rw [isZero, isZero, magnitudes]
  refine ext_of_magnitude (Bool.eq_iff_iff.mpr ?_) magnitudes
  rw [rounded.sign, other.sign, zeros]

end FixtureLiterals.Binary64
