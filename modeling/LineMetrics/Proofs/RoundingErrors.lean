import LineMetrics.Proofs.RestatedCounts
import Mathlib.Algebra.Order.Ring.Pow
import Mathlib.Tactic.FieldSimp
import Mathlib.Tactic.Linarith

/-!
# Errors of rounding

A rounded quotient is not farther from it than a fixed part of it, unless it is so small that
its distance to the next number is fixed. Values that are each within a few roundings of the
other stay so when they are multiplied and divided.
-/

namespace LineMetrics
namespace Binary64

/-! ## One rounding -/

/-- A quotient is rounded as it is in lower terms. -/
theorem roundQuotient_mul_right
    (numerator denominator : Nat)
    {factor : Nat}
    (positive : 0 < factor) :
    roundQuotient (numerator * factor) (denominator * factor) =
      roundQuotient numerator denominator := by
  have less : 2 * (numerator % denominator * factor) < denominator * factor ↔
      2 * (numerator % denominator) < denominator := by
    rw [<- Nat.mul_assoc, Nat.mul_lt_mul_right positive]
  have more : denominator * factor < 2 * (numerator % denominator * factor) ↔
      denominator < 2 * (numerator % denominator) := by
    rw [<- Nat.mul_assoc, Nat.mul_lt_mul_right positive]
  unfold roundQuotient
  dsimp only
  rw [Nat.mul_div_mul_right _ _ positive, Nat.mul_mod_mul_right, if_congr less rfl rfl,
    if_congr more rfl rfl]

/-- A quotient is rounded to the same magnitude as it is in lower terms. -/
theorem roundMagnitude_mul_right
    (numerator denominator : Nat)
    {factor : Nat}
    (positive : 0 < factor) :
    roundMagnitude (numerator * factor) (denominator * factor) =
      roundMagnitude numerator denominator := by
  unfold roundMagnitude
  rw [Nat.mul_div_mul_right _ _ positive]
  dsimp only
  rw [Nat.shiftLeft_eq, Nat.shiftLeft_eq, Nat.mul_right_comm,
    roundQuotient_mul_right _ _ positive]

/-- A rounded quotient differs from it by at most a half. -/
theorem roundQuotient_error
    (numerator : Nat)
    {denominator : Nat}
    (positive : 0 < denominator) :
    2 * (roundQuotient numerator denominator * denominator) ≤ 2 * numerator + denominator ∧
      2 * numerator ≤ 2 * (roundQuotient numerator denominator * denominator) + denominator := by
  have parts := Nat.div_add_mod numerator denominator
  have rest := Nat.mod_lt numerator positive
  rw [Nat.mul_comm] at parts
  have next : (numerator / denominator + 1) * denominator =
      numerator / denominator * denominator + denominator := by
    rw [Nat.add_mul, Nat.one_mul]
  unfold roundQuotient
  dsimp only
  split
  · omega
  · split
    · rw [next]
      omega
    · rcases Nat.mod_two_eq_zero_or_one (numerator / denominator) with even | odd
      · rw [even, Nat.add_zero]
        omega
      · rw [odd, next]
        omega

/-- The units of a magnitude that is put together from a shift and the bits that are kept. -/
theorem unitsOf_shifted
    {shift kept : Nat}
    (few : kept ≤ 2 * fractionCount)
    (many : shift ≠ 0 -> fractionCount ≤ kept) :
    unitsOf (shift * fractionCount + kept) = kept * 2 ^ shift := by
  have positive : 0 < fractionCount := by decide
  by_cases small : kept < fractionCount
  · have noShift : shift = 0 := by
      by_contra shifted
      exact Nat.not_lt.mpr (many shifted) small
    rw [noShift, Nat.zero_mul, Nat.zero_add, unitsOf_of_lt small, Nat.pow_zero, Nat.mul_one]
  · by_cases carried : kept = 2 * fractionCount
    · have exponent : shift * fractionCount + kept = fractionCount * (shift + 2) := by
        rw [carried]
        ring
      rw [exponent, unitsOf_of_le (Nat.le_mul_of_pos_right _ (Nat.succ_pos _)),
        Nat.mul_mod_right, Nat.mul_div_cancel_left _ positive, carried,
        show shift + 2 - 1 = shift + 1 by omega, Nat.pow_succ]
      ring
    · have fraction : kept - fractionCount < fractionCount := by omega
      have parts : shift * fractionCount + kept =
          fractionCount * (shift + 1) + (kept - fractionCount) := by
        rw [Nat.mul_add, Nat.mul_comm]
        omega
      rw [unitsOf_of_le (by omega), parts, Nat.mul_add_mod, Nat.mod_eq_of_lt fraction,
        Nat.mul_add_div positive, Nat.div_eq_of_lt fraction, Nat.add_zero, Nat.add_sub_cancel,
        Nat.sub_add_cancel (Nat.not_lt.mp small)]

/-- A quotient of some bits is shifted until fifty-three of them are left. -/
theorem roundMagnitude_of_log2
    {numerator denominator shift : Nat}
    (bits : (numerator / denominator).log2 - 52 = shift) :
    roundMagnitude numerator denominator =
      min infiniteMagnitude
        (shift * fractionCount + roundQuotient numerator (denominator * 2 ^ shift)) := by
  rw [roundMagnitude, bits, Nat.shiftLeft_eq]

/-- At most fifty-three bits of a quotient are kept. -/
theorem roundQuotient_le_two_pow
    {numerator denominator shift : Nat}
    (bits : (numerator / denominator).log2 - 52 = shift) :
    roundQuotient numerator (denominator * 2 ^ shift) ≤ 2 * fractionCount := by
  have below : numerator / denominator < 2 ^ 53 * 2 ^ shift := by
    rw [<- Nat.pow_add]
    exact Nat.lt_log2_self.trans_le (Nat.pow_le_pow_right (by decide) (by omega))
  have quotient : numerator / (denominator * 2 ^ shift) < 2 ^ 53 := by
    rw [<- Nat.div_div_eq_div_mul, Nat.div_lt_iff_lt_mul (Nat.two_pow_pos _)]
    exact below
  have rounded := roundQuotient_le_succ numerator (denominator * 2 ^ shift)
  rw [fractionCount_eq]
  omega

/-- Fifty-three bits of a shifted quotient are kept. -/
theorem le_div_of_shift
    {numerator denominator shift : Nat}
    (bits : (numerator / denominator).log2 - 52 = shift)
    (shifted : shift ≠ 0) :
    fractionCount ≤ numerator / (denominator * 2 ^ shift) := by
  have nonzero : numerator / denominator ≠ 0 := by
    intro zero
    rw [zero, Nat.log2_zero] at bits
    omega
  rw [fractionCount_eq, <- Nat.div_div_eq_div_mul, Nat.le_div_iff_mul_le (Nat.two_pow_pos _),
    <- Nat.pow_add, show 52 + shift = (numerator / denominator).log2 by omega]
  exact Nat.log2_self_le nonzero

/-- A finite magnitude differs from the quotient that is rounded to it by at most a half of a
step, which is one unit, or a small part of the quotient. -/
theorem roundMagnitude_error
    {numerator denominator : Nat}
    (positive : 0 < denominator)
    (finite : roundMagnitude numerator denominator < infiniteMagnitude) :
    ∃ step, (step = denominator ∨ 2 ^ 52 * step ≤ numerator) ∧
      2 * (unitsOf (roundMagnitude numerator denominator) * denominator) ≤
        2 * numerator + step ∧
      2 * numerator ≤
        2 * (unitsOf (roundMagnitude numerator denominator) * denominator) + step := by
  obtain ⟨shift, bits⟩ : ∃ shift, (numerator / denominator).log2 - 52 = shift := ⟨_, rfl⟩
  have few := roundQuotient_le_two_pow bits
  have many := le_div_of_shift bits
  have error := roundQuotient_error numerator (Nat.mul_pos positive (Nat.two_pow_pos shift))
  have atLeast := le_roundQuotient numerator (denominator * 2 ^ shift)
  rw [roundMagnitude_of_log2 bits] at finite ⊢
  rw [Nat.min_eq_right (by omega), unitsOf_shifted few fun shifted => (many shifted).trans atLeast,
    Nat.mul_assoc, Nat.mul_comm (2 ^ shift)]
  refine ⟨denominator * 2 ^ shift, ?_, error⟩
  by_cases shifted : shift = 0
  · left
    rw [shifted, Nat.pow_zero, Nat.mul_one]
  · right
    rw [<- fractionCount_eq]
    exact (Nat.le_div_iff_mul_le (Nat.mul_pos positive (Nat.two_pow_pos shift))).mp (many shifted)

/-- A quotient that does not exceed a number with fifty-three bits is rounded to none with more
of them. -/
theorem roundMagnitude_lt_of_le
    {numerator denominator shift : Nat}
    (positive : 0 < denominator)
    (below : numerator ≤ (2 ^ 53 - 1) * (denominator * 2 ^ shift)) :
    roundMagnitude numerator denominator < (shift + 2) * fractionCount := by
  have bits : numerator / denominator < 2 ^ (53 + shift) := by
    rw [Nat.div_lt_iff_lt_mul positive]
    calc numerator ≤ (2 ^ 53 - 1) * (denominator * 2 ^ shift) := below
      _ < 2 ^ 53 * (denominator * 2 ^ shift) :=
        Nat.mul_lt_mul_of_pos_right (by decide) (Nat.mul_pos positive (Nat.two_pow_pos _))
      _ = 2 ^ (53 + shift) * denominator := by
        rw [Nat.pow_add]
        ring
  have atMost : (numerator / denominator).log2 - 52 ≤ shift := by
    by_cases zero : numerator / denominator = 0
    · rw [zero, Nat.log2_zero]
      omega
    · have := (Nat.log2_lt zero).mpr bits
      omega
  have split : (shift + 2) * fractionCount = shift * fractionCount + 2 * fractionCount :=
    Nat.add_mul _ _ _
  rw [roundMagnitude_of_log2 rfl]
  refine (Nat.min_le_right _ _).trans_lt ?_
  rcases Nat.eq_or_lt_of_le atMost with last | before
  · rw [last, split]
    have rounded := roundQuotient_mono (denominator * 2 ^ shift) below
    rw [roundQuotient_mul _ (Nat.mul_pos positive (Nat.two_pow_pos _))] at rounded
    rw [fractionCount_eq]
    omega
  · have few := roundQuotient_le_two_pow (show (numerator / denominator).log2 - 52 = _ from rfl)
    have shifts := Nat.mul_le_mul_right fractionCount (Nat.succ_le_of_lt before)
    rw [Nat.succ_mul] at shifts
    have someFraction : 0 < fractionCount := by decide
    omega

/-! ## Several roundings -/

/-- The part of a value by which a rounding changes it at most, if it is not too small. -/
def roundoff : ℚ := 1 / 2 ^ 53

/-- The values are as close as some roundings make them. -/
structure IsWithin (roundings : Nat) (left right : ℚ) : Prop where
  left_le : (1 - roundoff) ^ roundings * left ≤ right
  right_le : (1 - roundoff) ^ roundings * right ≤ left

theorem one_sub_roundoff_pos : 0 < 1 - roundoff := by norm_num [roundoff]

namespace IsWithin

variable {roundings others : Nat} {left right first second : ℚ}

theorem symm (within : IsWithin roundings left right) : IsWithin roundings right left :=
  ⟨within.right_le, within.left_le⟩

/-- The roundings of factors add up in the product. -/
theorem mul
    (within : IsWithin roundings left right)
    (factors : IsWithin others first second)
    (nonneg : 0 ≤ left ∧ 0 ≤ right)
    (factorsNonneg : 0 ≤ first ∧ 0 ≤ second) :
    IsWithin (roundings + others) (left * first) (right * second) := by
  have positive := pow_pos one_sub_roundoff_pos others
  have product (value factor : ℚ) :
      (1 - roundoff) ^ (roundings + others) * (value * factor) =
        ((1 - roundoff) ^ roundings * value) * ((1 - roundoff) ^ others * factor) := by ring
  constructor
  · rw [product]
    exact mul_le_mul within.left_le factors.left_le
      (mul_nonneg positive.le factorsNonneg.1) nonneg.2
  · rw [product]
    exact mul_le_mul within.right_le factors.right_le
      (mul_nonneg positive.le factorsNonneg.2) nonneg.1

theorem inv
    (within : IsWithin roundings left right)
    (positive : 0 < left ∧ 0 < right) :
    IsWithin roundings left⁻¹ right⁻¹ := by
  have flipped {value other : ℚ} (valuePositive : 0 < value) (otherPositive : 0 < other)
      (less : (1 - roundoff) ^ roundings * other ≤ value) :
      (1 - roundoff) ^ roundings * value⁻¹ ≤ other⁻¹ := by
    rw [<- div_eq_mul_inv, div_le_iff₀ valuePositive, inv_mul_eq_div, le_div_iff₀ otherPositive]
    exact less
  exact ⟨flipped positive.1 positive.2 within.right_le,
    flipped positive.2 positive.1 within.left_le⟩

/-- The roundings of dividend and divisor add up in the quotient. -/
theorem div
    (within : IsWithin roundings left right)
    (divisors : IsWithin others first second)
    (nonneg : 0 ≤ left ∧ 0 ≤ right)
    (positive : 0 < first ∧ 0 < second) :
    IsWithin (roundings + others) (left / first) (right / second) := by
  rw [div_eq_mul_inv, div_eq_mul_inv]
  exact within.mul (divisors.inv positive) nonneg
    ⟨(inv_pos.mpr positive.1).le, (inv_pos.mpr positive.2).le⟩

/-- A factor that is not rounded changes nothing. -/
theorem mulRight
    {factor : ℚ}
    (within : IsWithin roundings left right)
    (nonneg : 0 ≤ factor) :
    IsWithin roundings (left * factor) (right * factor) := by
  constructor
  · rw [<- mul_assoc]
    exact mul_le_mul_of_nonneg_right within.left_le nonneg
  · rw [<- mul_assoc]
    exact mul_le_mul_of_nonneg_right within.right_le nonneg

/-- A divisor that is not rounded changes nothing. -/
theorem divRight
    {divisor : ℚ}
    (within : IsWithin roundings left right)
    (positive : 0 < divisor) :
    IsWithin roundings (left / divisor) (right / divisor) := by
  rw [div_eq_mul_inv, div_eq_mul_inv]
  exact within.mulRight (inv_pos.mpr positive).le

/-- The difference is at most a part of either value for every rounding. -/
theorem sub_le (within : IsWithin roundings left right) (nonneg : 0 ≤ left) :
    left - right ≤ roundings * roundoff * left := by
  have bernoulli := one_add_mul_le_pow (show -2 ≤ -roundoff by norm_num [roundoff]) roundings
  have scaled := mul_le_mul_of_nonneg_right bernoulli nonneg
  rw [<- sub_eq_add_neg] at scaled
  have := within.left_le
  linarith

end IsWithin

section Magnitudes

variable {numerator denominator : Nat}

/-- A finite magnitude is within one rounding of a quotient that is not too small. -/
theorem isWithin_roundMagnitude
    (positive : 0 < denominator)
    (finite : roundMagnitude numerator denominator < infiniteMagnitude)
    (large : 2 ^ 52 * denominator ≤ numerator) :
    IsWithin 1 (numerator / denominator : ℚ)
      (unitsOf (roundMagnitude numerator denominator)) := by
  obtain ⟨step, isStep, above, below⟩ := roundMagnitude_error positive finite
  have small : 2 ^ 52 * step ≤ numerator := by
    rcases isStep with rfl | small
    · exact large
    · exact small
  generalize unitsOf (roundMagnitude numerator denominator) = units at above below
  have divisor : (0 : ℚ) < denominator := by exact_mod_cast positive
  have above : (2 : ℚ) * (units * denominator) ≤ 2 * numerator + step := by exact_mod_cast above
  have below : (2 : ℚ) * numerator ≤ 2 * (units * denominator) + step := by exact_mod_cast below
  have small : (2 : ℚ) ^ 52 * step ≤ numerator := by exact_mod_cast small
  have nonneg : (0 : ℚ) ≤ numerator := Nat.cast_nonneg _
  constructor
  · rw [pow_one, mul_div_assoc', div_le_iff₀ divisor]
    norm_num [roundoff] at *
    linarith
  · rw [pow_one, le_div_iff₀ divisor, mul_assoc]
    norm_num [roundoff] at *
    linarith

/-- A finite magnitude differs from the quotient by at most a part of it and half a unit. -/
theorem abs_roundMagnitude_sub_le
    (positive : 0 < denominator)
    (finite : roundMagnitude numerator denominator < infiniteMagnitude) :
    |(unitsOf (roundMagnitude numerator denominator) - numerator / denominator : ℚ)| ≤
      roundoff * (numerator / denominator) + 1 / 2 := by
  obtain ⟨step, isStep, above, below⟩ := roundMagnitude_error positive finite
  generalize unitsOf (roundMagnitude numerator denominator) = units at above below
  have divisor : (0 : ℚ) < denominator := by exact_mod_cast positive
  have above : (2 : ℚ) * (units * denominator) ≤ 2 * numerator + step := by exact_mod_cast above
  have below : (2 : ℚ) * numerator ≤ 2 * (units * denominator) + step := by exact_mod_cast below
  have nonneg : (0 : ℚ) ≤ numerator := Nat.cast_nonneg _
  have small : (step : ℚ) ≤ denominator + 2 * roundoff * numerator := by
    rcases isStep with rfl | small
    · have := mul_nonneg (show (0 : ℚ) ≤ 2 * roundoff by norm_num [roundoff]) nonneg
      linarith
    · have small : (2 : ℚ) ^ 52 * step ≤ numerator := by exact_mod_cast small
      norm_num [roundoff] at *
      linarith
  obtain ⟨value, product⟩ : ∃ value : ℚ, (numerator : ℚ) = value * denominator :=
    ⟨_, (div_mul_cancel₀ _ divisor.ne').symm⟩
  rw [product] at above below small ⊢
  rw [mul_div_cancel_right₀ _ divisor.ne', abs_le]
  constructor
  · refine le_of_mul_le_mul_right ?_ divisor
    linarith
  · refine le_of_mul_le_mul_right ?_ divisor
    linarith

end Magnitudes

end Binary64
end LineMetrics
