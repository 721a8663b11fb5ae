import LineMetrics.Restating
import LineMetrics.Proofs.NumericOrder
import Mathlib.Data.Nat.Log

/-!
# Counts that are written and read again

Rounding to binary64 keeps the order of natural numbers. From two to the power of
fifty-three on, every number is whole, so a count that was rounded once is not changed
by being rounded again.
-/

namespace LineMetrics

namespace Binary64

/-- A quotient is rounded up by less than one. -/
theorem roundQuotient_le_succ (numerator denominator : Nat) :
    roundQuotient numerator denominator ≤ numerator / denominator + 1 := by
  unfold roundQuotient
  dsimp only
  split
  · omega
  · split <;> omega

/-- A larger numerator is rounded to no less. -/
theorem roundQuotient_mono
    {numerator other : Nat}
    (divisor : Nat)
    (less : numerator ≤ other) :
    roundQuotient numerator divisor ≤ roundQuotient other divisor := by
  have quotients : numerator / divisor ≤ other / divisor := Nat.div_le_div_right less
  by_cases same : numerator / divisor = other / divisor
  · -- within one quotient, the remainders have the order of the numerators
    have parts := Nat.div_add_mod numerator divisor
    have otherParts := Nat.div_add_mod other divisor
    rw [same] at parts
    have rests : numerator % divisor ≤ other % divisor := by omega
    unfold roundQuotient
    rw [same]
    dsimp only
    split <;> split <;> (try split) <;> (try split) <;> omega
  · have above := roundQuotient_le_succ numerator divisor
    have below := le_roundQuotient other divisor
    omega

/-- A natural number is shifted until fifty-three bits are left, and rounded there. -/
theorem roundMagnitude_one (value : Nat) :
    roundMagnitude value 1 =
      min infiniteMagnitude
        ((value.log2 - 52) * fractionCount +
          roundQuotient value (2 ^ (value.log2 - 52))) := by
  rw [roundMagnitude, Nat.div_one, Nat.shiftLeft_eq, Nat.one_mul]

/-- Fifty-three bits are kept, or a carry makes one more. -/
theorem roundQuotient_le_double (value : Nat) :
    roundQuotient value (2 ^ (value.log2 - 52)) ≤ 2 * fractionCount := by
  have below : value < 2 ^ (value.log2 + 1) := Nat.lt_log2_self
  have bits : 2 ^ (value.log2 + 1) ≤ 2 ^ (53 + (value.log2 - 52)) :=
    Nat.pow_le_pow_right (by decide) (by omega)
  have quotient : value / 2 ^ (value.log2 - 52) < 2 ^ 53 := by
    rw [Nat.div_lt_iff_lt_mul (Nat.two_pow_pos _), <- Nat.pow_add]
    exact Nat.lt_of_lt_of_le below bits
  have rounded := roundQuotient_le_succ value (2 ^ (value.log2 - 52))
  rw [fractionCount_eq]
  omega

/-- A larger number is rounded to no less. -/
theorem roundMagnitude_mono {value other : Nat} (less : value ≤ other) :
    roundMagnitude value 1 ≤ roundMagnitude other 1 := by
  rw [roundMagnitude_one, roundMagnitude_one]
  apply min_le_min_left
  have shifts : value.log2 - 52 ≤ other.log2 - 52 := by
    have bits := Nat.log_mono_right (b := 2) less
    rw [Nat.log2_eq_log_two, Nat.log2_eq_log_two]
    omega
  by_cases same : value.log2 - 52 = other.log2 - 52
  · rw [same]
    exact Nat.add_le_add_left (roundQuotient_mono _ less) _
  · have quotient := roundQuotient_le_double value
    have other_le := le_roundQuotient other (2 ^ (other.log2 - 52))
    have kept : fractionCount ≤ other / 2 ^ (other.log2 - 52) := by
      have nonzero : other ≠ 0 := by
        rintro rfl
        rw [Nat.log2_zero] at shifts same
        omega
      rw [fractionCount_eq, Nat.le_div_iff_mul_le (Nat.two_pow_pos _), <- Nat.pow_add,
        show 52 + (other.log2 - 52) = other.log2 by omega]
      exact Nat.log2_self_le nonzero
    have step :
        (value.log2 - 52 + 1) * fractionCount ≤ (other.log2 - 52) * fractionCount :=
      Nat.mul_le_mul_right _ (by omega)
    rw [Nat.add_mul, Nat.one_mul] at step
    omega

theorem roundMagnitude_lt_signWeight (value : Nat) : roundMagnitude value 1 < signWeight :=
  Nat.lt_of_le_of_lt (roundMagnitude_le value 1) (by decide)

@[simp] theorem magnitude_ofNat (value : Nat) :
    (ofNat value).magnitude = roundMagnitude (value * unitsPerOne) 1 :=
  magnitude_ofMagnitude false (roundMagnitude_lt_signWeight _)

@[simp] theorem isNegative_ofNat (value : Nat) : (ofNat value).isNegative = false :=
  isNegative_ofMagnitude false (roundMagnitude_lt_signWeight _)

/-- A natural number is rounded to the number with its magnitude. -/
theorem ofNat_eq_iff {value other : Nat} :
    ofNat value = ofNat other ↔ (ofNat value).magnitude = (ofNat other).magnitude := by
  refine ⟨congrArg magnitude, fun same => ?_⟩
  rw [<- ofMagnitude_magnitude (ofNat value), <- ofMagnitude_magnitude (ofNat other), same,
    isNegative_ofNat, isNegative_ofNat]

/-- A larger natural number is rounded to no less. -/
theorem magnitude_ofNat_mono {value other : Nat} (less : value ≤ other) :
    (ofNat value).magnitude ≤ (ofNat other).magnitude := by
  rw [magnitude_ofNat, magnitude_ofNat]
  exact roundMagnitude_mono (Nat.mul_le_mul_right _ less)

/-- A larger natural number has no lesser whole part once it is rounded. -/
theorem wholePart_ofNat_mono {value other : Nat} (less : value ≤ other) :
    (ofNat value).wholePart ≤ (ofNat other).wholePart :=
  Nat.div_le_div_right (strictMono_unitsOf.monotone (magnitude_ofNat_mono less))

/-- A power of two divides those of larger exponents. -/
theorem dvd_two_pow
    {power exponent other : Nat}
    (same : power = 2 ^ exponent)
    (less : exponent ≤ other) :
    power ∣ 2 ^ other :=
  same ▸ Nat.pow_dvd_pow 2 less

/-- A large number is a whole number. -/
theorem wholePart_mul_unitsPerOne
    {number : Binary64}
    (large : 1076 * fractionCount ≤ number.magnitude) :
    number.wholePart * unitsPerOne = number.units := by
  have quotient : 1076 ≤ number.magnitude / fractionCount :=
    (Nat.le_div_iff_mul_le (by decide)).mpr large
  have power : unitsPerOne ∣ 2 ^ (number.magnitude / fractionCount - 1) :=
    dvd_two_pow unitsPerOne_eq (by omega)
  have atLeast : fractionCount ≤ number.magnitude :=
    Nat.le_trans (Nat.le_mul_of_pos_left _ (by decide)) large
  have whole : unitsPerOne ∣ number.units := by
    rw [units, unitsOf_of_le atLeast]
    exact power.mul_left _
  exact Nat.div_mul_cancel whole

/-- What a natural number is rounded to is a whole number. -/
theorem ofNat_wholePart_ofNat {value : Nat} (finite : (ofNat value).isFinite = true) :
    ofNat (ofNat value).wholePart = ofNat value := by
  by_cases small : value ≤ 2 * fractionCount
  · rw [(ofNat_spec small).2.2]
  · have start : (ofNat (2 * fractionCount)).magnitude = 1076 * fractionCount := by
      decide +kernel
    have large := magnitude_ofNat_mono (Nat.le_of_not_le small)
    rw [start] at large
    have whole := wholePart_mul_unitsPerOne large
    have rounded := roundMagnitude_unitsOf (of_decide_eq_true finite) Nat.one_pos
    rw [Nat.mul_one] at rounded
    rw [ofNat_eq_iff, magnitude_ofNat, whole]
    exact rounded

/-- Every count is rounded to a finite number. -/
theorem isFinite_ofNat_count (count : UInt64) : (ofNat count.toNat).isFinite = true := by
  have last : (ofNat UInt64.size).magnitude < infiniteMagnitude := by decide +kernel
  have below := magnitude_ofNat_mono (Nat.le_of_lt count.toNat_lt)
  exact decide_eq_true (Nat.lt_of_le_of_lt below last)

end Binary64

theorem toNat_restatedCount (count : UInt64) :
    (restatedCount count).toNat = min (writtenCount count).wholePart (UInt64.size - 1) := by
  rw [restatedCount, UInt64.toNat_ofNat']
  simp only [UInt64.size]
  omega

/-- Larger counts are read again as no less. -/
theorem restatedCount_mono {count other : UInt64} (less : count ≤ other) :
    restatedCount count ≤ restatedCount other := by
  have whole := Binary64.wholePart_ofNat_mono (UInt64.le_iff_toNat_le.mp less)
  rw [UInt64.le_iff_toNat_le, toNat_restatedCount, toNat_restatedCount]
  exact min_le_min_right _ whole

/-- A count up to two to the power of fifty-three is read again as it was. -/
theorem restatedCount_of_le {count : UInt64} (small : count.toNat ≤ 2 ^ 53) :
    restatedCount count = count := by
  have bound : count.toNat ≤ 2 * Binary64.fractionCount := small
  have below := count.toNat_lt
  apply UInt64.toNat_inj.mp
  rw [toNat_restatedCount, writtenCount, (Binary64.ofNat_spec bound).2.2]
  simp only [UInt64.size]
  omega

/-- A count that is read again is written as it was. -/
theorem writtenCount_restatedCount (count : UInt64) :
    writtenCount (restatedCount count) = writtenCount count := by
  have exact := Binary64.ofNat_wholePart_ofNat (Binary64.isFinite_ofNat_count count)
  rw [writtenCount, toNat_restatedCount]
  by_cases within : (writtenCount count).wholePart ≤ UInt64.size - 1
  · rw [Nat.min_eq_left within]
    exact exact
  · -- the largest count is rounded to the number behind it, as is every count near it
    rw [Nat.min_eq_right (by omega), writtenCount, Binary64.ofNat_eq_iff]
    apply Nat.le_antisymm
    · rw [<- exact]
      exact Binary64.magnitude_ofNat_mono (Nat.le_of_not_le within)
    · have below := count.toNat_lt
      exact Binary64.magnitude_ofNat_mono (by simp only [UInt64.size]; omega)

/-- The number that a count is written as is read as the count again. -/
theorem FieldValue.toCount_writtenCount (field : String) (count : UInt64) :
    (FieldValue.float (writtenCount count)).toCount field = .ok (restatedCount count) := by
  have finite := Binary64.isFinite_ofNat_count count
  have number := Binary64.isNaN_of_isFinite finite
  rw [toCount, writtenCount, finite, Binary64.isAtLeastZero, number,
    Binary64.isNegative_ofNat]
  rfl

end LineMetrics
