import LineMetrics.Proofs.SignificandText
import Mathlib.Algebra.Order.Ring.Abs

/-!
# Finite numbers are read again

The significand of a finite number is rounded, multiplied or divided by a rounded power of
ten, and rounded once more. That gives a finite number which is close to the one that was
written, and the same one where neither the digits nor the power are rounded.
-/

namespace LineMetrics

namespace Decimal

variable {coefficient : Nat} {exponent : Int}

/-- A decimal that is neither too small nor too large is rounded to the nearest magnitude. -/
theorem nearest_eq_roundMagnitude
    (nonzero : nearest ⟨coefficient, exponent⟩ ≠ 0)
    (finite : nearest ⟨coefficient, exponent⟩ < Binary64.infiniteMagnitude) :
    nearest ⟨coefficient, exponent⟩ =
      Binary64.roundMagnitude (coefficient * step exponent) (denominator exponent) := by
  have someUnits : coefficient ≠ 0 := by
    rintro rfl
    exact nonzero (nearest_zero exponent)
  rcases lt_or_ge exponent 0 with negative | nonneg
  · obtain ⟨predecessor, rfl⟩ := Int.eq_negSucc_of_lt_zero negative
    have equation := nearest_of_neg predecessor someUnits
    rw [equation] at nonzero ⊢
    split at nonzero
    · exact absurd rfl nonzero
    · rename_i moderate
      rw [if_neg moderate, step_negSucc, denominator_negSucc]
  · obtain ⟨power, rfl⟩ := Int.eq_ofNat_of_zero_le nonneg
    have equation := nearest_of_nonneg power someUnits
    have product : coefficient * 10 ^ power * Binary64.unitsPerOne =
        coefficient * step power := by
      rw [step_natCast, Nat.mul_assoc, Nat.mul_comm (10 ^ power)]
    rw [product] at equation
    rw [equation] at finite ⊢
    split at finite
    · exact absurd finite (Nat.lt_irrefl _)
    · rename_i moderate
      rw [if_neg moderate, denominator_natCast]

end Decimal

namespace Json.Significand

open Binary64
open Decimal (step denominator denominator_pos step_natCast step_negSucc denominator_natCast
  denominator_negSucc)

/-- The value of a significand, as a multiple of the least positive number. -/
def inUnits (significand : Significand) : ℚ :=
  significand.digits * step significand.exponent / denominator significand.exponent

/-- Digits that fit in the significand are within one rounding of what they are rounded to. -/
theorem isWithin_ofNat
    {value : Nat}
    (finite : (ofNat value).magnitude < infiniteMagnitude) :
    IsWithin 1 (value * unitsPerOne : ℚ) (unitsOf (ofNat value).magnitude) := by
  rw [magnitude_ofNat] at finite ⊢
  by_cases zero : value = 0
  · subst zero
    have noUnits : unitsOf (roundMagnitude (0 * unitsPerOne) 1) = 0 := by decide +kernel
    rw [noUnits]
    constructor <;> norm_num
  · have large : 2 ^ 52 * 1 ≤ value * unitsPerOne := by
      rw [Nat.mul_one, <- fractionCount_eq]
      exact (show fractionCount ≤ unitsPerOne by decide +kernel).trans
        (Nat.le_mul_of_pos_left _ (Nat.pos_of_ne_zero zero))
    have within := isWithin_roundMagnitude Nat.one_pos finite large
    push_cast at within
    rw [div_one] at within
    exact within

/-- A larger power of ten is rounded to no less. -/
theorem powerOfTen_mono {power other : Nat} (less : power ≤ other) :
    powerOfTen power ≤ powerOfTen other :=
  roundMagnitude_mono (Nat.mul_le_mul_right _ (Nat.pow_le_pow_right (by decide) less))

theorem powerOfTen_lt {power : Nat} (small : power ≤ 308) :
    powerOfTen power < infiniteMagnitude :=
  (powerOfTen_mono small).trans_lt (by decide +kernel)

theorem isWithin_powerOfTen {power : Nat} (small : power ≤ 308) :
    IsWithin 1 (10 ^ power * unitsPerOne : ℚ) (unitsOf (powerOfTen power)) := by
  have finite : (ofNat (10 ^ power)).magnitude < infiniteMagnitude := by
    rw [magnitude_ofNat]
    exact powerOfTen_lt small
  have within := isWithin_ofNat finite
  rw [magnitude_ofNat] at within
  push_cast at within
  exact within

/-- What is within two roundings of a value differs little from it once it is rounded. -/
theorem abs_sub_le_of_isWithin
    {value : ℚ}
    {roundings numerator divisor : Nat}
    (within : IsWithin roundings value (numerator / divisor : ℚ))
    (few : roundings ≤ 2)
    (nonneg : 0 ≤ value)
    (positive : 0 < divisor)
    (finite : roundMagnitude numerator divisor < infiniteMagnitude) :
    |(unitsOf (roundMagnitude numerator divisor) - value : ℚ)| ≤
      4 * roundoff * value + 1 / 2 := by
  have rounded := abs_roundMagnitude_sub_le positive finite
  have quotientNonneg : (0 : ℚ) ≤ numerator / divisor :=
    div_nonneg (Nat.cast_nonneg _) (Nat.cast_nonneg _)
  have less := within.sub_le nonneg
  have more := within.symm.sub_le quotientNonneg
  generalize (numerator / divisor : ℚ) = quotient at rounded less more quotientNonneg
  have roundings_le : (roundings : ℚ) ≤ 2 := by exact_mod_cast few
  have factor : (roundings : ℚ) * roundoff ≤ 2 * roundoff :=
    mul_le_mul_of_nonneg_right roundings_le (by norm_num [roundoff])
  have less := less.trans (mul_le_mul_of_nonneg_right factor nonneg)
  have more := more.trans (mul_le_mul_of_nonneg_right factor quotientNonneg)
  rw [abs_le] at rounded ⊢
  norm_num [roundoff] at *
  constructor <;> linarith

variable {digits power : Nat}

/-- A significand whose digits fit is rounded to a finite number. -/
theorem ofNat_lt (fits : digits ≤ greatest) : (ofNat digits).magnitude < infiniteMagnitude :=
  (magnitude_ofNat_mono fits).trans_lt (by decide +kernel)

/-- The product of rounded factors, rounded again, is close to that of the factors. -/
theorem abs_rounded_product_sub_le
    {left right one : Nat}
    {first second : ℚ}
    (isFirst : IsWithin 1 first left)
    (isSecond : IsWithin 1 second right)
    (nonneg : 0 ≤ first ∧ 0 ≤ second)
    (positive : 0 < one)
    (finite : roundMagnitude (left * right) one < infiniteMagnitude) :
    |(unitsOf (roundMagnitude (left * right) one) - first * second / one : ℚ)| ≤
      4 * roundoff * (first * second / one) + 1 / 2 := by
  have product := (isFirst.mul isSecond ⟨nonneg.1, Nat.cast_nonneg _⟩
    ⟨nonneg.2, Nat.cast_nonneg _⟩).divRight (Nat.cast_pos.mpr positive)
  rw [<- Nat.cast_mul] at product
  exact abs_sub_le_of_isWithin product (Nat.le_refl 2)
    (div_nonneg (mul_nonneg nonneg.1 nonneg.2) (Nat.cast_nonneg _)) positive finite

/-- The product of rounded factors exceeds a bound on that of the factors by little. -/
theorem rounded_product_le
    {left right bound : Nat}
    {first second : ℚ}
    (isFirst : IsWithin 1 first left)
    (isSecond : IsWithin 1 second right)
    (nonneg : 0 ≤ first ∧ 0 ≤ second)
    (below : first * second ≤ (2 ^ 53 - 3) * bound) :
    left * right ≤ (2 ^ 53 - 1) * bound := by
  have product := (isFirst.mul isSecond ⟨nonneg.1, Nat.cast_nonneg _⟩
    ⟨nonneg.2, Nat.cast_nonneg _⟩).right_le.trans below
  have boundNonneg : (0 : ℚ) ≤ bound := Nat.cast_nonneg _
  have atMost : (left * right : ℚ) ≤ (2 ^ 53 - 1) * bound := by
    norm_num [roundoff] at *
    linarith
  have factor : ((2 ^ 53 - 1 : Nat) : ℚ) = 2 ^ 53 - 1 := by norm_num
  rw [<- factor] at atMost
  exact_mod_cast atMost

/-- The quotient of rounded numbers, rounded again, is close to that of the numbers. -/
theorem abs_rounded_quotient_sub_le
    {dividend divisor one : Nat}
    {first second : ℚ}
    (isFirst : IsWithin 1 first dividend)
    (isSecond : IsWithin 1 second divisor)
    (nonneg : 0 ≤ first ∧ 0 < second)
    (positive : 0 < divisor)
    (finite : roundMagnitude (dividend * one) divisor < infiniteMagnitude) :
    |(unitsOf (roundMagnitude (dividend * one) divisor) - first * one / second : ℚ)| ≤
      4 * roundoff * (first * one / second) + 1 / 2 := by
  have divisorPositive : (0 : ℚ) < divisor := Nat.cast_pos.mpr positive
  have oneNonneg : (0 : ℚ) ≤ one := Nat.cast_nonneg _
  have quotient := (isFirst.mulRight oneNonneg).div isSecond
    ⟨mul_nonneg nonneg.1 oneNonneg, mul_nonneg (Nat.cast_nonneg _) oneNonneg⟩
    ⟨nonneg.2, divisorPositive⟩
  rw [<- Nat.cast_mul] at quotient
  exact abs_sub_le_of_isWithin quotient (Nat.le_refl 2)
    (div_nonneg (mul_nonneg nonneg.1 oneNonneg) nonneg.2.le) positive finite

theorem isWithin_self (units : Nat) : IsWithin 1 (units : ℚ) units := by
  have nonneg : (0 : ℚ) ≤ units := Nat.cast_nonneg _
  constructor <;> norm_num [roundoff] <;> linarith

/-! ## Reading a significand -/

/-- The distance between the greatest numbers. -/
def greatestStep : Nat := 2 ^ 2045

/-- The significand stands for a number that is read, even if its digits and the power of ten
are rounded up. -/
structure IsReadable (significand : Significand) : Prop where
  fits : significand.digits ≤ greatest
  least : -616 ≤ significand.exponent
  bounded : significand.inUnits ≤ (2 ^ 53 - 3) * greatestStep

/-- The magnitude that is read is finite and close to the value of the significand. -/
structure IsClose (significand : Significand) (magnitude : Nat) : Prop where
  finite : magnitude < infiniteMagnitude
  error : |(unitsOf magnitude - significand.inUnits : ℚ)| ≤
    9 * roundoff * significand.inUnits + 3 / 5

theorem inUnits_nonneg (significand : Significand) : 0 ≤ significand.inUnits :=
  div_nonneg (mul_nonneg (Nat.cast_nonneg _) (Nat.cast_nonneg _)) (Nat.cast_nonneg _)

/-- Reading in one step is closer than reading in two. -/
theorem budget_le {value : ℚ} (nonneg : 0 ≤ value) :
    4 * roundoff * value + 1 / 2 ≤ 9 * roundoff * value + 3 / 5 := by
  have := mul_nonneg (show 0 ≤ roundoff by norm_num [roundoff]) nonneg
  linarith

theorem unitsPerOne_pos : 0 < unitsPerOne := by decide +kernel

theorem unitsOf_powerOfTen_pos (power : Nat) : 0 < unitsOf (powerOfTen power) :=
  unitsPerOne_pos.trans_le (unitsPerOne_le_unitsOf_powerOfTen power)

/-- A larger power of ten has no fewer units. -/
theorem unitsPerOne_mul_pow_mono {power other : Nat} (less : power ≤ other) :
    unitsPerOne * 10 ^ power ≤ unitsPerOne * 10 ^ other :=
  Nat.mul_le_mul_left _ (Nat.pow_le_pow_right (by decide) less)

theorem inUnits_ofNat (digits power : Nat) :
    inUnits ⟨digits, power⟩ = digits * unitsPerOne * (10 ^ power * unitsPerOne) / unitsPerOne := by
  have one : (unitsPerOne : ℚ) ≠ 0 := Nat.cast_ne_zero.mpr unitsPerOne_pos.ne'
  rw [inUnits]
  dsimp only
  rw [denominator_natCast, step_natCast]
  push_cast
  generalize (unitsPerOne : ℚ) = one at one
  field_simp

/-- A readable significand with a power of ten above is a bounded product. -/
theorem IsReadable.product_le (readable : IsReadable ⟨digits, power⟩) :
    digits * (unitsPerOne * 10 ^ power) ≤ (2 ^ 53 - 3) * greatestStep := by
  have bounded := readable.bounded
  have factor : ((2 ^ 53 - 3 : Nat) : ℚ) = 2 ^ 53 - 3 := by norm_num
  rw [inUnits] at bounded
  dsimp only at bounded
  rw [denominator_natCast, step_natCast, Nat.cast_one, div_one, <- factor] at bounded
  exact_mod_cast bounded

/-- The power of ten above a readable significand is not too large to be rounded. -/
theorem IsReadable.power_le
    (readable : IsReadable ⟨digits, power⟩)
    (someDigits : digits ≠ 0) :
    power ≤ 308 := by
  by_contra large
  have most : (2 ^ 53 - 3) * greatestStep < unitsPerOne * 10 ^ 309 := by decide +kernel
  have atLeast := unitsPerOne_mul_pow_mono (show 309 ≤ power by omega)
  have once := Nat.le_mul_of_pos_left (unitsPerOne * 10 ^ power) (Nat.pos_of_ne_zero someDigits)
  exact most.not_ge ((atLeast.trans once).trans readable.product_le)

/-- A significand with a power of ten above is multiplied by it. -/
theorem IsReadable.times
    (readable : IsReadable ⟨digits, power⟩)
    (someDigits : digits ≠ 0) :
    ∃ magnitude, magnitude? ⟨digits, power⟩ = some magnitude ∧
      IsClose ⟨digits, power⟩ magnitude := by
  have small := readable.power_le someDigits
  have isFirst := isWithin_ofNat (ofNat_lt readable.fits)
  have isSecond := isWithin_powerOfTen small
  have nonneg : (0 : ℚ) ≤ digits * unitsPerOne ∧ (0 : ℚ) ≤ 10 ^ power * unitsPerOne :=
    ⟨mul_nonneg (Nat.cast_nonneg _) (Nat.cast_nonneg _),
      mul_nonneg (pow_nonneg (by norm_num) _) (Nat.cast_nonneg _)⟩
  have finite : timesMagnitude (ofNat digits).magnitude (powerOfTen power) <
      infiniteMagnitude := by
    have isGreatest : infiniteMagnitude = (2045 + 2) * fractionCount := rfl
    have factor : ((2 ^ 53 - 3 : Nat) : ℚ) = 2 ^ 53 - 3 := by norm_num
    have below : (digits * (unitsPerOne * 10 ^ power) : ℚ) ≤ (2 ^ 53 - 3) * greatestStep := by
      rw [<- factor]
      exact_mod_cast readable.product_le
    rw [isGreatest]
    refine roundMagnitude_lt_of_le unitsPerOne_pos
      (rounded_product_le isFirst isSecond nonneg ?_)
    rw [<- greatestStep, Nat.cast_mul]
    calc (digits * unitsPerOne * (10 ^ power * unitsPerOne) : ℚ)
        = digits * (unitsPerOne * 10 ^ power) * unitsPerOne := by ring
      _ ≤ (2 ^ 53 - 3) * greatestStep * unitsPerOne :=
        mul_le_mul_of_nonneg_right below (Nat.cast_nonneg _)
      _ = (2 ^ 53 - 3) * (unitsPerOne * greatestStep) := by ring
  refine ⟨_, ?_, finite, ?_⟩
  · rw [magnitude?]
    dsimp only
    rw [if_neg someDigits, if_neg (by omega), if_pos finite]
  · have error := abs_rounded_product_sub_le isFirst isSecond nonneg unitsPerOne_pos finite
    rw [<- inUnits_ofNat] at error
    exact error.trans (budget_le (inUnits_nonneg _))

theorem inUnits_negSucc (digits predecessor : Nat) :
    inUnits ⟨digits, .negSucc predecessor⟩ =
      digits * unitsPerOne * unitsPerOne / (10 ^ (predecessor + 1) * unitsPerOne) := by
  have one : (unitsPerOne : ℚ) ≠ 0 := Nat.cast_ne_zero.mpr unitsPerOne_pos.ne'
  rw [inUnits]
  dsimp only
  rw [step_negSucc, denominator_negSucc]
  push_cast
  generalize (unitsPerOne : ℚ) = one at one
  field_simp

/-- A divisor behind the first one leaves the error of the first small. -/
theorem abs_sub_le_of_second_divisor
    {power : Nat}
    {first once value last : ℚ}
    (someZero : power ≠ 0)
    (nonneg : 0 ≤ first)
    (isValue : value = first / 10 ^ power)
    (isFirst : |once - first| ≤ 4 * roundoff * first + 1 / 2)
    (isLast : |last - once / 10 ^ power| ≤ 4 * roundoff * (once / 10 ^ power) + 1 / 2) :
    |last - value| ≤ 9 * roundoff * value + 3 / 5 := by
  have ten : (10 : ℚ) ≤ 10 ^ power := by
    simpa using pow_le_pow_right₀ (show (1 : ℚ) ≤ 10 by norm_num) (Nat.pos_of_ne_zero someZero)
  have positive : (0 : ℚ) < 10 ^ power := by linarith
  obtain ⟨divided, isDivided⟩ : ∃ divided, once = divided * 10 ^ power :=
    ⟨_, (div_mul_cancel₀ _ positive.ne').symm⟩
  have isFirstValue : first = value * 10 ^ power := by
    rw [isValue, div_mul_cancel₀ _ positive.ne']
  have valueNonneg : 0 ≤ value := isValue ▸ div_nonneg nonneg positive.le
  rw [isDivided, mul_div_cancel_right₀ _ positive.ne'] at isLast
  have near : |divided - value| ≤ 4 * roundoff * value + 1 / 20 := by
    rw [isDivided, isFirstValue, <- sub_mul, abs_mul, abs_of_pos positive] at isFirst
    refine le_of_mul_le_mul_right (isFirst.trans ?_) positive
    linarith
  rw [abs_le] at *
  norm_num [roundoff] at *
  constructor <;> linarith

theorem pow_mul_unitsPerOne_pos (power : Nat) : (0 : ℚ) < 10 ^ power * unitsPerOne :=
  mul_pos (pow_pos (by norm_num) _) (Nat.cast_pos.mpr unitsPerOne_pos)

/-- The digits, divided by a rounded power of ten, are close to the quotient. -/
theorem abs_first_quotient_sub_le
    (fits : digits ≤ greatest)
    (small : power ≤ 308)
    (finite : divideMagnitude (ofNat digits).magnitude (powerOfTen power) < infiniteMagnitude) :
    |(unitsOf (divideMagnitude (ofNat digits).magnitude (powerOfTen power)) -
        digits * unitsPerOne * unitsPerOne / (10 ^ power * unitsPerOne) : ℚ)| ≤
      4 * roundoff * (digits * unitsPerOne * unitsPerOne / (10 ^ power * unitsPerOne)) + 1 / 2 :=
  abs_rounded_quotient_sub_le (isWithin_ofNat (ofNat_lt fits)) (isWithin_powerOfTen small)
    ⟨mul_nonneg (Nat.cast_nonneg _) (Nat.cast_nonneg _), pow_mul_unitsPerOne_pos power⟩
    (unitsOf_powerOfTen_pos power) finite

/-- A significand with a power of ten below is divided by it, in one step or in two. -/
theorem IsReadable.divide
    {predecessor : Nat}
    (readable : IsReadable ⟨digits, .negSucc predecessor⟩) :
    ∃ magnitude, magnitude? ⟨digits, .negSucc predecessor⟩ = some magnitude ∧
      IsClose ⟨digits, .negSucc predecessor⟩ magnitude := by
  have least := readable.least
  dsimp only at least
  by_cases small : predecessor + 1 ≤ 308
  · have found : magnitude? ⟨digits, .negSucc predecessor⟩ =
        some (divideMagnitude (ofNat digits).magnitude (powerOfTen (predecessor + 1))) := by
      rw [magnitude?]
      dsimp only
      rw [if_pos small]
    have finite := magnitude?_lt readable.fits found
    have error := abs_first_quotient_sub_le readable.fits small finite
    rw [<- inUnits_negSucc] at error
    exact ⟨_, found, finite, error.trans (budget_le (inUnits_nonneg _))⟩
  · obtain ⟨power, isPower⟩ : ∃ power, predecessor = 308 + power :=
      Nat.exists_eq_add_of_le (by omega)
    have found : magnitude? ⟨digits, .negSucc predecessor⟩ =
        some (divideMagnitude
          (divideMagnitude (ofNat digits).magnitude (powerOfTen 308))
          (powerOfTen (power + 1))) := by
      rw [magnitude?]
      dsimp only
      rw [if_neg small, if_pos (by omega), show predecessor + 1 - 308 = power + 1 by omega]
    have finite := magnitude?_lt readable.fits found
    have once : magnitude? ⟨digits, .negSucc 307⟩ =
        some (divideMagnitude (ofNat digits).magnitude (powerOfTen 308)) := rfl
    have firstError := abs_first_quotient_sub_le readable.fits (Nat.le_refl 308)
      (magnitude?_lt readable.fits once)
    have secondSmall : power + 1 ≤ 308 := by omega
    have lastError := abs_rounded_quotient_sub_le (isWithin_self _)
      (isWithin_powerOfTen secondSmall) ⟨Nat.cast_nonneg _, pow_mul_unitsPerOne_pos _⟩
      (unitsOf_powerOfTen_pos _) finite
    rw [mul_div_mul_right _ _ (Nat.cast_ne_zero.mpr unitsPerOne_pos.ne')] at lastError
    refine ⟨_, found, finite, abs_sub_le_of_second_divisor (Nat.succ_ne_zero power) ?_ ?_
      firstError lastError⟩
    · rw [mul_assoc]
      exact div_nonneg (mul_nonneg (Nat.cast_nonneg _)
        (mul_nonneg (Nat.cast_nonneg _) (Nat.cast_nonneg _))) (pow_mul_unitsPerOne_pos 308).le
    · rw [inUnits_negSucc, isPower, Nat.add_assoc, pow_add, div_div,
        mul_right_comm (10 ^ 308 : ℚ)]

/-- A readable significand is read as a magnitude that is close to it. -/
theorem IsReadable.exists_magnitude?
    {significand : Significand}
    (readable : significand.IsReadable) :
    ∃ magnitude, significand.magnitude? = some magnitude ∧ significand.IsClose magnitude := by
  obtain ⟨digits, exponent⟩ := significand
  cases exponent with
  | negSucc predecessor => exact readable.divide
  | ofNat power =>
      by_cases zero : digits = 0
      · subst zero
        refine ⟨0, by rw [magnitude?]; rfl, by decide, ?_⟩
        have noUnits : inUnits ⟨0, .ofNat power⟩ = 0 := by
          rw [inUnits, Nat.cast_zero, zero_mul, zero_div]
        have noMagnitude : unitsOf 0 = 0 := by decide
        rw [noUnits, noMagnitude]
        norm_num
      · exact readable.times zero

/-! ## Significands that are not rounded -/

/-- Few digits are not rounded. -/
theorem unitsOf_ofNat {value : Nat} (few : value ≤ 2 ^ 53) :
    unitsOf (ofNat value).magnitude = value * unitsPerOne := by
  obtain ⟨magnitude, units, bounded⟩ :=
    exists_unitsOf_eq 1074 (few.trans_eq (show 2 ^ 53 = 2 * fractionCount by decide))
  have finite : magnitude < infiniteMagnitude :=
    bounded.trans_lt (Nat.mul_lt_mul_of_pos_right (by decide) (by decide))
  have rounded := roundMagnitude_unitsOf finite Nat.one_pos
  rw [Nat.mul_one, units, <- unitsPerOne_eq] at rounded
  rw [magnitude_ofNat, rounded, units, unitsPerOne_eq]

/-- Small powers of ten are not rounded. -/
theorem unitsOf_powerOfTen :
    ∀ power ≤ 22, unitsOf (powerOfTen power) = 10 ^ power * unitsPerOne := by
  decide +kernel

/-- Few digits and a small power of ten are rounded only once. -/
theorem magnitude?_of_few
    {digits : Nat}
    {exponent : Int}
    (few : digits ≤ 2 ^ 53)
    (small : exponent.natAbs ≤ 22)
    (finite : roundMagnitude (digits * step exponent) (denominator exponent) <
      infiniteMagnitude) :
    magnitude? ⟨digits, exponent⟩ =
      some (roundMagnitude (digits * step exponent) (denominator exponent)) := by
  rcases lt_or_ge exponent 0 with negative | nonneg
  · obtain ⟨predecessor, rfl⟩ := Int.eq_negSucc_of_lt_zero negative
    have within : predecessor + 1 ≤ 22 := small
    rw [magnitude?]
    dsimp only
    rw [if_pos (within.trans (by decide)), divideMagnitude, unitsOf_ofNat few,
      unitsOf_powerOfTen _ within, roundMagnitude_mul_right _ _ unitsPerOne_pos, step_negSucc,
      denominator_negSucc]
  · obtain ⟨power, rfl⟩ := Int.eq_ofNat_of_zero_le nonneg
    have within : power ≤ 22 := small
    rw [step_natCast, denominator_natCast] at finite ⊢
    have isProduct : timesMagnitude (ofNat digits).magnitude (powerOfTen power) =
        roundMagnitude (digits * (unitsPerOne * 10 ^ power)) 1 := by
      have product : digits * unitsPerOne * (10 ^ power * unitsPerOne) =
          digits * (unitsPerOne * 10 ^ power) * unitsPerOne := by ring
      have scaled := roundMagnitude_mul_right (digits * (unitsPerOne * 10 ^ power)) 1
        unitsPerOne_pos
      rw [Nat.one_mul, <- product] at scaled
      rw [timesMagnitude, unitsOf_ofNat few, unitsOf_powerOfTen power within, scaled]
    rw [magnitude?]
    dsimp only
    by_cases zero : digits = 0
    · have noMagnitude : roundMagnitude 0 1 = 0 := by decide
      rw [if_pos zero, zero, Nat.zero_mul, noMagnitude]
    · rw [if_neg zero, if_neg (within.trans (by decide)).not_gt, isProduct, if_pos finite]

end Json.Significand

/-! ## The significands of numbers -/

namespace Decimal

open Json Json.Significand Binary64

/-- However it is written, a decimal is rounded as it is. -/
theorem roundMagnitude_writtenSignificand (decimal : Decimal) :
    roundMagnitude (decimal.writtenSignificand.digits * step decimal.writtenSignificand.exponent)
        (denominator decimal.writtenSignificand.exponent) =
      roundMagnitude (decimal.coefficient * step decimal.exponent)
        (denominator decimal.exponent) := by
  rw [writtenSignificand]
  cases whole : decimal.isWrittenWhole with
  | false => rfl
  | true =>
      rw [isWrittenWhole, decide_eq_true_iff] at whole
      obtain ⟨coefficient, exponent⟩ := decimal
      obtain ⟨power, rfl⟩ := Int.eq_ofNat_of_zero_le whole.1
      have point : denominator (-1) = 1 * 10 := by decide
      have single : step (-1) = unitsPerOne := step_negSucc 0
      have product : coefficient * 10 ^ (power + 1) * unitsPerOne =
          coefficient * (unitsPerOne * 10 ^ power) * 10 := by
        rw [Nat.pow_succ]
        ring
      rw [if_pos rfl]
      dsimp only [Int.toNat_natCast]
      rw [denominator_natCast, step_natCast, point, single, product,
        roundMagnitude_mul_right _ _ (by decide)]

variable {magnitude : Nat}

/-- The significand that a finite number is written with is rounded to the number, if it is
rounded only once. -/
theorem roundMagnitude_shortest
    (nonzero : magnitude ≠ 0)
    (finite : magnitude < infiniteMagnitude) :
    roundMagnitude
        ((shortest .toEvenDigit magnitude).writtenSignificand.digits *
          step (shortest .toEvenDigit magnitude).writtenSignificand.exponent)
        (denominator (shortest .toEvenDigit magnitude).writtenSignificand.exponent) =
      magnitude := by
  have rounded := nearest_shortest .toEvenDigit finite
  rw [roundMagnitude_writtenSignificand]
  generalize shortest .toEvenDigit magnitude = decimal at rounded
  rw [<- rounded] at nonzero finite
  exact (nearest_eq_roundMagnitude nonzero finite).symm.trans rounded

/-- A finite number differs little from the significand that it is written with. -/
theorem abs_unitsOf_sub_le
    (nonzero : magnitude ≠ 0)
    (finite : magnitude < infiniteMagnitude) :
    |(unitsOf magnitude - (shortest .toEvenDigit magnitude).writtenSignificand.inUnits : ℚ)| ≤
      roundoff * (shortest .toEvenDigit magnitude).writtenSignificand.inUnits + 1 / 2 := by
  have rounded := roundMagnitude_shortest nonzero finite
  generalize (shortest .toEvenDigit magnitude).writtenSignificand = significand at rounded
  have error := abs_roundMagnitude_sub_le (denominator_pos significand.exponent)
    (by rw [rounded]; exact finite)
  rw [rounded, Nat.cast_mul] at error
  exact error

/-- The exponent that a finite number is written with is not very small. -/
theorem le_exponent_writtenSignificand (finite : magnitude < infiniteMagnitude) :
    -616 ≤ (shortest .toEvenDigit magnitude).writtenSignificand.exponent := by
  have least := le_exponent_shortest .toEvenDigit finite
  rw [writtenSignificand]
  split
  · exact (by decide : (-616 : Int) ≤ -1)
  · exact le_trans (by decide) least

/-- All but the greatest numbers are written with a readable significand. -/
theorem isReadable_writtenSignificand
    (nonzero : magnitude ≠ 0)
    (moderate : magnitude ≤ infiniteMagnitude - 4) :
    (shortest .toEvenDigit magnitude).writtenSignificand.IsReadable := by
  have finite : magnitude < infiniteMagnitude := moderate.trans_lt (by decide)
  refine ⟨digits_writtenSignificand_le (coefficient_shortest_le .toEvenDigit finite),
    le_exponent_writtenSignificand finite, ?_⟩
  have error := abs_unitsOf_sub_le nonzero finite
  have units : unitsOf magnitude + 4 * greatestStep ≤ 2 ^ 53 * greatestStep := by
    have last : unitsOf (infiniteMagnitude - 4) + 4 * greatestStep = 2 ^ 53 * greatestStep := by
      decide +kernel
    rw [<- last]
    exact Nat.add_le_add_right (strictMono_unitsOf.monotone moderate) _
  have large : 2 ^ 53 ≤ greatestStep := by decide +kernel
  have units : (unitsOf magnitude + 4 * greatestStep : ℚ) ≤ 2 ^ 53 * greatestStep := by
    exact_mod_cast units
  have large : (2 ^ 53 : ℚ) ≤ greatestStep := by exact_mod_cast large
  obtain ⟨below, -⟩ := abs_le.mp error
  generalize greatestStep = step at units large ⊢
  norm_num [roundoff] at below units ⊢
  linarith

/-- Only zero is written with the digit zero alone. -/
theorem exponent_shortest_eq_zero
    (finite : magnitude < infiniteMagnitude)
    (zero : (shortest .toEvenDigit magnitude).coefficient = 0) :
    (shortest .toEvenDigit magnitude).exponent = 0 := by
  have rounded := nearest_shortest .toEvenDigit finite
  have isZero : magnitude = 0 := by
    rw [<- rounded, nearest, if_pos zero]
  rw [isZero, shortest_zero]

/-- The greatest numbers are read as one of them. -/
theorem greatest_magnitude? :
    ∀ offset < 3,
      (shortest .toEvenDigit (infiniteMagnitude - 1 - offset)).writtenSignificand.magnitude?.any
        (fun other => other < infiniteMagnitude ∧
          2 ^ 49 * (unitsOf other - unitsOf (infiniteMagnitude - 1 - offset) : Int).natAbs ≤
            unitsOf (infiniteMagnitude - 1 - offset)) = true := by
  decide +kernel

/-- Magnitudes that are close to a significand are close to each other. -/
theorem near_of_isClose
    {significand : Significand}
    {other : Nat}
    (isOther : significand.IsClose other)
    (error : |(unitsOf magnitude - significand.inUnits : ℚ)| ≤
      roundoff * significand.inUnits + 1 / 2) :
    (unitsOf other - unitsOf magnitude : Int).natAbs ≤ 2 ∨
      2 ^ 49 * (unitsOf other - unitsOf magnitude : Int).natAbs ≤ unitsOf magnitude := by
  have distance : ((unitsOf other - unitsOf magnitude : Int).natAbs : ℚ) =
      |(unitsOf other - unitsOf magnitude : ℚ)| := by
    rw [Nat.cast_natAbs]
    push_cast
    rfl
  have bounded := (abs_sub_le _ _ _).trans
    (add_le_add isOther.error ((abs_sub_comm _ _).trans_le error))
  rw [<- distance] at bounded
  rw [or_iff_not_imp_left, not_le]
  -- the rounding of the units alone leaves no distance of three, so the number is large
  intro far
  have atLeast : (3 : ℚ) ≤ (unitsOf other - unitsOf magnitude : Int).natAbs := by
    exact_mod_cast far
  have near : (2 ^ 49 * (unitsOf other - unitsOf magnitude : Int).natAbs : ℚ) ≤
      unitsOf magnitude := by
    have least := (abs_le.mp error).1
    generalize significand.inUnits = value at bounded least
    norm_num [roundoff] at bounded least ⊢
    linarith
  exact_mod_cast near

/-- The significand of a finite number is read as a finite magnitude, which differs from that
of the number by little. -/
theorem exists_reread_magnitude (finite : magnitude < infiniteMagnitude) :
    ∃ other, (shortest .toEvenDigit magnitude).writtenSignificand.magnitude? = some other ∧
      other < infiniteMagnitude ∧
      ((unitsOf other - unitsOf magnitude : Int).natAbs ≤ 2 ∨
        2 ^ 49 * (unitsOf other - unitsOf magnitude : Int).natAbs ≤ unitsOf magnitude) := by
  by_cases zero : magnitude = 0
  · subst zero
    exact ⟨0, by decide +kernel, by decide, by decide⟩
  · by_cases moderate : magnitude ≤ infiniteMagnitude - 4
    · have readable := isReadable_writtenSignificand zero moderate
      obtain ⟨other, found, isOther⟩ := readable.exists_magnitude?
      exact ⟨other, found, isOther.finite, near_of_isClose isOther (abs_unitsOf_sub_le zero finite)⟩
    · obtain ⟨offset, isOffset⟩ := Nat.exists_eq_add_of_le (Nat.le_sub_one_of_lt finite)
      have few : offset < 3 := by
        have isInfinite : infiniteMagnitude = 2047 * 2 ^ 52 := by decide
        omega
      have isMagnitude : magnitude = infiniteMagnitude - 1 - offset := by omega
      have found := greatest_magnitude? offset few
      rw [<- isMagnitude] at found
      obtain ⟨other, found, near⟩ := (Option.any_eq_true _ _).mp found
      rw [decide_eq_true_iff] at near
      exact ⟨other, found, near.imp_right .inr⟩

end Decimal

namespace Binary64

variable {number : Binary64}

/-- A number that is written with few digits and a small power of ten has a significand that
is read as its magnitude. -/
theorem magnitude?_of_isShort (finite : number.isFinite = true) (short : number.isShort = true) :
    number.writtenSignificand.magnitude? = some number.magnitude := by
  have isFiniteMagnitude := of_decide_eq_true finite
  rw [isShort, decide_eq_true_iff, writtenSignificand] at short
  rw [writtenSignificand]
  by_cases zero : number.magnitude = 0
  · rw [zero]
    decide +kernel
  · have rounded := Decimal.roundMagnitude_shortest zero isFiniteMagnitude
    generalize (Decimal.shortest .toEvenDigit number.magnitude).writtenSignificand = significand
      at short rounded
    have read := Json.Significand.magnitude?_of_few short.1 short.2
      (by rw [rounded]; exact isFiniteMagnitude)
    rw [rounded] at read
    exact read

/-- The significand of a finite number is read as the magnitude of the number that it is read
again as, which has the sign of the number and is close to it. -/
theorem reread_spec (finite : number.isFinite = true) :
    number.writtenSignificand.magnitude? = some number.reread.magnitude ∧
      number.IsReadAs number.reread := by
  obtain ⟨other, found, otherFinite, near⟩ :=
    Decimal.exists_reread_magnitude (of_decide_eq_true finite)
  have below : other < signWeight := otherFinite.trans (by decide)
  have isReread : number.reread = ofMagnitude number.isNegative other := by
    rw [reread, writtenSignificand, found, Option.getD_some]
  have isMagnitude : number.reread.magnitude = other := by
    rw [isReread, magnitude_ofMagnitude _ below]
  refine ⟨by rw [isMagnitude]; exact found, ?_, ?_, ?_, fun short => ?_⟩
  · rw [isFinite, isMagnitude]
    exact decide_eq_true otherFinite
  · rw [isReread, isNegative_ofMagnitude _ below]
  · rw [units, units, isMagnitude]
    exact near
  · have same := found.symm.trans (magnitude?_of_isShort finite short)
    rw [isReread, Option.some.inj same, ofMagnitude_magnitude]

/-- The text of a finite number is read as the number that it is read again as. -/
theorem readNumber?_doubleText (finite : number.isFinite = true) :
    Json.readNumber? ((Json.doubleText number).map some) =
      some (.double number.reread, []) := by
  have read := Json.readUnsigned?_decimalText number.isNegative
    (Decimal.coefficient_shortest_le .toEvenDigit (of_decide_eq_true finite))
    (Decimal.exponent_shortest_eq_zero (of_decide_eq_true finite))
  have isNumber : Json.ofSignificand number.isNegative
      (Decimal.shortest .toEvenDigit number.magnitude).writtenSignificand =
        .double number.reread := by
    obtain ⟨found, isReadAs⟩ := reread_spec finite
    rw [writtenSignificand] at found
    rw [Json.ofSignificand, found, <- isReadAs.sign]
    exact congrArg Json.double (ofMagnitude_magnitude number.reread)
  rw [isNumber] at read
  rw [Json.doubleText, if_pos finite, List.map_append]
  cases sign : number.isNegative with
  | true =>
      rw [sign] at read
      exact read
  | false =>
      rw [sign] at read
      obtain ⟨used, split, someSymbol, -, unsigned, -⟩ := Json.exists_of_readUnsigned? read
      rw [List.append_nil] at split
      rw [<- split] at unsigned
      exact (Json.readNumber?_of_head?_ne unsigned).trans read

end Binary64
end LineMetrics
