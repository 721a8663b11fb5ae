import LineMetrics.FieldValue
import Mathlib.Tactic.Ring

/-!
# Exact rounding

A quotient that is itself a binary64 number is rounded to that number, and so are the
natural numbers up to two to the power of fifty-three. A number of the size of infinity
is rounded to infinity.
-/

namespace LineMetrics
namespace Binary64

theorem fractionCount_eq : fractionCount = 2 ^ 52 := by decide

theorem unitsPerOne_eq : unitsPerOne = 2 ^ 1074 := by decide +kernel

/-- A quotient without a remainder is not rounded. -/
theorem roundQuotient_mul
    (quotient : Nat)
    {divisor : Nat}
    (positive : 0 < divisor) :
    roundQuotient (quotient * divisor) divisor = quotient := by
  have whole : quotient * divisor / divisor = quotient := Nat.mul_div_cancel _ positive
  have noRest : quotient * divisor % divisor = 0 := Nat.mul_mod_left _ _
  unfold roundQuotient
  rw [noRest, whole, if_pos (by omega)]

/-- A rounded quotient is not less than the whole part. -/
theorem le_roundQuotient (numerator denominator : Nat) :
    numerator / denominator ≤ roundQuotient numerator denominator := by
  unfold roundQuotient
  dsimp only
  split
  · exact Nat.le_refl _
  · split
    · omega
    · omega

theorem unitsOf_of_lt {magnitude : Nat} (small : magnitude < fractionCount) :
    unitsOf magnitude = magnitude := by
  rw [unitsOf, if_pos small]

theorem unitsOf_of_le {magnitude : Nat} (large : fractionCount ≤ magnitude) :
    unitsOf magnitude =
      (magnitude % fractionCount + fractionCount) *
        2 ^ (magnitude / fractionCount - 1) := by
  rw [unitsOf, if_neg (Nat.not_lt.mpr large), Nat.shiftLeft_eq]

/-- The next exponent doubles the value. -/
theorem unitsOf_add_fractionCount {magnitude : Nat} (large : fractionCount ≤ magnitude) :
    unitsOf (magnitude + fractionCount) = 2 * unitsOf magnitude := by
  have positive : 0 < fractionCount := by decide
  have exponent : 1 ≤ magnitude / fractionCount :=
    (Nat.one_le_div_iff positive).mpr large
  rw [unitsOf_of_le large, unitsOf_of_le (Nat.le_trans large (Nat.le_add_right _ _)),
    Nat.add_mod_right, Nat.add_div_right _ positive,
    show (magnitude / fractionCount).succ - 1 = magnitude / fractionCount - 1 + 1 by omega,
    Nat.pow_succ]
  ring

/-- Up to the first exponents, the units are the magnitude. -/
theorem unitsOf_of_le_double {magnitude : Nat} (small : magnitude ≤ 2 * fractionCount) :
    unitsOf magnitude = magnitude := by
  by_cases below : magnitude < fractionCount
  · exact unitsOf_of_lt below
  · by_cases last : magnitude = 2 * fractionCount
    · rw [last]
      decide
    · have quotient : magnitude / fractionCount = 1 := by
        simp only [fractionCount] at *
        omega
      have rest : magnitude % fractionCount = magnitude - fractionCount := by
        simp only [fractionCount] at *
        omega
      rw [unitsOf_of_le (Nat.not_lt.mp below), quotient, rest]
      omega

/-- From the second exponent on, the units have fifty-three significant bits. -/
theorem log2_unitsOf_of_le {magnitude : Nat} (large : fractionCount ≤ magnitude) :
    (unitsOf magnitude).log2 = 52 + (magnitude / fractionCount - 1) := by
  have rest : magnitude % fractionCount < fractionCount := Nat.mod_lt _ (by decide)
  have positive : 0 < 2 ^ (magnitude / fractionCount - 1) := Nat.two_pow_pos _
  rw [unitsOf_of_le large]
  generalize magnitude % fractionCount = fraction at rest
  generalize magnitude / fractionCount - 1 = shift at positive
  rw [fractionCount_eq] at rest ⊢
  rw [Nat.log2_eq_iff (Nat.mul_ne_zero (by omega) (by omega)), Nat.add_right_comm,
    Nat.pow_add, Nat.pow_add]
  constructor
  · exact Nat.mul_le_mul_right _ (by omega)
  · exact Nat.mul_lt_mul_of_pos_right (by omega) positive

/-- A quotient that is a finite number is rounded to it. -/
theorem roundMagnitude_unitsOf
    {magnitude divisor : Nat}
    (finite : magnitude < infiniteMagnitude)
    (positive : 0 < divisor) :
    roundMagnitude (unitsOf magnitude * divisor) divisor = magnitude := by
  have exact :
      ((unitsOf magnitude).log2 - 52) * fractionCount +
          roundQuotient (unitsOf magnitude * divisor)
            (divisor <<< ((unitsOf magnitude).log2 - 52)) =
        magnitude := by
    by_cases small : magnitude < fractionCount
    · have noShift : magnitude.log2 - 52 = 0 := by
        by_cases zero : magnitude = 0
        · rw [zero]
          rfl
        · rw [fractionCount_eq] at small
          have below := (Nat.log2_lt zero).mpr small
          omega
      rw [unitsOf_of_lt small, noShift, Nat.shiftLeft_zero, roundQuotient_mul _ positive,
        Nat.zero_mul, Nat.zero_add]
    · have large := Nat.not_lt.mp small
      have exponent : 1 ≤ magnitude / fractionCount :=
        (Nat.one_le_div_iff (by decide)).mpr large
      have whole := Nat.div_add_mod magnitude fractionCount
      rw [log2_unitsOf_of_le large, Nat.add_sub_cancel_left, unitsOf_of_le large,
        Nat.shiftLeft_eq, Nat.mul_assoc, Nat.mul_comm _ divisor,
        roundQuotient_mul _ (Nat.mul_pos positive (Nat.two_pow_pos _)), Nat.sub_mul]
      rw [Nat.mul_comm] at whole
      have atLeast := Nat.mul_le_mul_right fractionCount exponent
      omega
  unfold roundMagnitude
  rw [Nat.mul_div_cancel _ positive]
  dsimp only
  rw [exact]
  omega

/-- Only zero has no units. -/
theorem unitsOf_ne_zero
    {magnitude : Nat}
    (nonzero : magnitude ≠ 0)
    (finite : magnitude < infiniteMagnitude) :
    unitsOf magnitude ≠ 0 := by
  intro noUnits
  have exact := roundMagnitude_unitsOf finite Nat.one_pos
  rw [noUnits] at exact
  exact nonzero (exact.symm.trans (by decide))

/-- What is at least as large as infinity is rounded to infinity. -/
theorem roundMagnitude_of_le
    {value exponent : Nat}
    (infinite : 2098 ≤ exponent)
    (large : 2 ^ exponent ≤ value) :
    roundMagnitude value 1 = infiniteMagnitude := by
  have nonzero : value ≠ 0 := Nat.ne_of_gt (Nat.lt_of_lt_of_le (Nat.two_pow_pos _) large)
  have bits : exponent ≤ value.log2 := (Nat.le_log2 nonzero).mpr large
  have kept : 2 ^ 52 ≤ value / 2 ^ (value.log2 - 52) := by
    rw [Nat.le_div_iff_mul_le (Nat.two_pow_pos _), <- Nat.pow_add,
      show 52 + (value.log2 - 52) = value.log2 by omega]
    exact Nat.log2_self_le nonzero
  have rounded := le_roundQuotient value (2 ^ (value.log2 - 52))
  unfold roundMagnitude
  dsimp only
  rw [Nat.div_one, Nat.shiftLeft_eq, Nat.one_mul, infiniteMagnitude, fractionCount_eq]
  omega

/-- A natural number up to two to the power of fifty-three, times a power of two, is a
number. -/
theorem exists_unitsOf_eq
    {value : Nat}
    (exponent : Nat)
    (small : value ≤ 2 * fractionCount) :
    ∃ magnitude, unitsOf magnitude = value * 2 ^ exponent ∧
      magnitude ≤ (exponent + 2) * fractionCount := by
  induction exponent with
  | zero => exact ⟨value, by rw [unitsOf_of_le_double small]; omega, by omega⟩
  | succ exponent inductionHypothesis =>
      obtain ⟨magnitude, same, bounded⟩ := inductionHypothesis
      have doubled : value * 2 ^ (exponent + 1) = 2 * unitsOf magnitude := by
        rw [same, Nat.pow_succ]
        ring
      by_cases large : fractionCount ≤ magnitude
      · refine ⟨magnitude + fractionCount, ?_, ?_⟩
        · rw [unitsOf_add_fractionCount large, doubled]
        · have step :
              (exponent + 1 + 2) * fractionCount =
                (exponent + 2) * fractionCount + fractionCount := by ring
          omega
      · refine ⟨2 * magnitude, ?_, ?_⟩
        · rw [unitsOf_of_le_double (by omega), doubled, unitsOf_of_lt (by omega)]
        · have step :
              (exponent + 1 + 2) * fractionCount =
                (exponent + 1) * fractionCount + 2 * fractionCount := by ring
          omega

/-- Natural numbers up to two to the power of fifty-three are numbers. -/
theorem ofNat_spec {value : Nat} (small : value ≤ 2 * fractionCount) :
    (ofNat value).isFinite = true ∧ (ofNat value).isNegative = false ∧
      (ofNat value).wholePart = value := by
  obtain ⟨magnitude, same, bounded⟩ := exists_unitsOf_eq 1074 small
  have finite : magnitude < infiniteMagnitude := by
    rw [infiniteMagnitude]
    simp only [fractionCount] at bounded ⊢
    omega
  have below : magnitude < signWeight := Nat.lt_trans finite (by decide)
  have rounded : ofNat value = ofMagnitude false magnitude := by
    have exact := roundMagnitude_unitsOf finite Nat.one_pos
    rw [Nat.mul_one, same, <- unitsPerOne_eq] at exact
    rw [ofNat, exact]
  rw [rounded, isFinite, isNegative_ofMagnitude false below, wholePart, units,
    magnitude_ofMagnitude false below, same, unitsPerOne_eq,
    Nat.mul_div_cancel _ (Nat.two_pow_pos _)]
  exact ⟨decide_eq_true finite, rfl, rfl⟩

end Binary64

namespace FieldValue

/-- A count up to two to the power of fifty-three survives as a binary64 number. -/
theorem toCount_ofNat
    (field : String)
    {count : UInt64}
    (small : count.toNat ≤ 2 ^ 53) :
    (FieldValue.float (.ofNat count.toNat)).toCount field = .ok count := by
  have bound : count.toNat ≤ 2 * Binary64.fractionCount := small
  obtain ⟨finite, positive, whole⟩ := Binary64.ofNat_spec bound
  have number := Binary64.isNaN_of_isFinite finite
  have below := count.toNat_lt
  have kept : min count.toNat (UInt64.size - 1) = count.toNat := by
    simp only [UInt64.size]
    omega
  rw [toCount, finite, Binary64.isAtLeastZero, number, positive, whole, kept,
    UInt64.ofNat_toNat]
  rfl

end FieldValue
end LineMetrics
