import LineMetrics.Binary64.Order
import LineMetrics.Proofs.Rounding
import Mathlib.Order.Monotone.Basic

/-!
# The numeric order of binary64 numbers

A finite number is a whole multiple of the least positive one, which gives it a value.
Numbers in the total order that are not numerically equal have ascending values.
-/

namespace LineMetrics
namespace Binary64

/-- The value of a finite number, as a multiple of the least positive number. -/
def inUnits (number : Binary64) : Int :=
  if number.isNegative then -number.units else number.units

/-- The next magnitude stands for a larger value. -/
theorem unitsOf_lt_succ (magnitude : Nat) : unitsOf magnitude < unitsOf (magnitude + 1) := by
  have positive : 0 < fractionCount := by decide
  by_cases small : magnitude + 1 ≤ fractionCount
  · rw [unitsOf_of_lt small,
      unitsOf_of_le_double (small.trans (Nat.le_mul_of_pos_left _ (by decide)))]
    exact Nat.lt_succ_self magnitude
  · have large : fractionCount ≤ magnitude := by omega
    rw [unitsOf_of_le large, unitsOf_of_le (Nat.le_add_right_of_le large)]
    have exponent : 1 ≤ magnitude / fractionCount :=
      (Nat.one_le_div_iff positive).mpr large
    have power : 0 < 2 ^ (magnitude / fractionCount - 1) := Nat.two_pow_pos _
    have fraction : magnitude % fractionCount < fractionCount := Nat.mod_lt _ positive
    by_cases last : magnitude % fractionCount + 1 = fractionCount
    · -- the fraction overflows into the exponent
      have next : magnitude + 1 = fractionCount * (magnitude / fractionCount + 1) := by
        have parts := Nat.div_add_mod magnitude fractionCount
        rw [Nat.mul_add]
        omega
      have doubled :
          2 ^ (magnitude / fractionCount) = 2 * 2 ^ (magnitude / fractionCount - 1) := by
        rw [<- Nat.pow_succ', show (magnitude / fractionCount - 1).succ =
          magnitude / fractionCount by omega]
      rw [next, Nat.mul_mod_right, Nat.mul_div_cancel_left _ positive, Nat.zero_add,
        Nat.add_sub_cancel, doubled, <- Nat.mul_assoc]
      exact Nat.mul_lt_mul_of_pos_right (by omega) power
    · have within : magnitude % fractionCount + 1 < fractionCount := by omega
      have quotient : (magnitude + 1) / fractionCount = magnitude / fractionCount :=
        Nat.div_eq_of_lt_le
          (by have := Nat.div_mul_le_self magnitude fractionCount; omega)
          (by
            have parts := Nat.div_add_mod magnitude fractionCount
            rw [Nat.add_mul, Nat.one_mul, Nat.mul_comm]
            omega)
      have rest : (magnitude + 1) % fractionCount = magnitude % fractionCount + 1 := by
        rw [Nat.add_mod, Nat.mod_eq_of_lt (show 1 < fractionCount by decide),
          Nat.mod_eq_of_lt within]
      rw [quotient, rest]
      exact Nat.mul_lt_mul_of_pos_right (by omega) power

/-- A larger magnitude stands for a larger value. -/
theorem strictMono_unitsOf : StrictMono unitsOf := strictMono_nat_of_lt_succ unitsOf_lt_succ

/-- The zeros are the numbers whose value is zero. -/
theorem units_eq_zero_iff (number : Binary64) : number.units = 0 ↔ number.isZero = true := by
  rw [isZero, beq_iff_eq]
  exact strictMono_unitsOf.injective.eq_iff (b := 0)

/-- A finite number is numerically zero or more exactly if its value is. -/
theorem isAtLeastZero_iff {number : Binary64} (finite : number.isFinite = true) :
    number.isAtLeastZero = true ↔ 0 ≤ number.inUnits := by
  have zero := units_eq_zero_iff number
  rw [isAtLeastZero, isNaN_of_isFinite finite, inUnits, Bool.not_false, Bool.true_and,
    Bool.or_eq_true, <- zero]
  cases number.isNegative with
  | false => simp
  | true =>
      simp only [Bool.not_true, Bool.false_eq_true, if_true, false_or]
      omega

/-- Finite numbers are numerically equal exactly if they have the same value. -/
theorem sameNumber_iff_inUnits
    {left right : Binary64}
    (leftFinite : left.isFinite = true)
    (rightFinite : right.isFinite = true) :
    left.sameNumber right = true ↔ left.inUnits = right.inUnits := by
  have sameUnits (first second : Nat) : unitsOf first = unitsOf second ↔ first = second :=
    strictMono_unitsOf.injective.eq_iff
  rw [sameNumber, isNaN_of_isFinite leftFinite, isNaN_of_isFinite rightFinite]
  simp only [Bool.not_false, Bool.true_and, Bool.or_eq_true, Bool.and_eq_true, beq_iff_eq,
    <- units_eq_zero_iff, inUnits]
  constructor
  · rintro (rfl | ⟨leftZero, rightZero⟩)
    · rfl
    · rw [leftZero, rightZero]
      simp
  · intro same
    by_cases sign : left.isNegative = right.isNegative
    · left
      have equal : left.units = right.units := by
        rw [sign] at same
        split at same <;> omega
      rw [<- ofMagnitude_magnitude left, <- ofMagnitude_magnitude right, sign,
        (sameUnits left.magnitude right.magnitude).mp equal]
    · right
      cases leftSign : left.isNegative <;> cases rightSign : right.isNegative
      all_goals
        rw [leftSign, rightSign] at same sign
        simp at same sign
      all_goals omega

/-- A finite number in front of another one in the total order has the lesser value,
unless the two are numerically equal. -/
theorem inUnits_lt
    {left right : Binary64}
    (leftFinite : left.isFinite = true)
    (rightFinite : right.isFinite = true)
    (below : left.totalLE right = true)
    (apart : left.sameNumber right = false) :
    left.inUnits < right.inUnits := by
  have different : left.inUnits ≠ right.inUnits := by
    rw [ne_eq, <- sameNumber_iff_inUnits leftFinite rightFinite, apart]
    exact Bool.false_ne_true
  refine lt_of_le_of_ne ?_ different
  rw [totalLE, decide_eq_true_eq, rank, rank] at below
  rw [inUnits, inUnits]
  have monotone (first second : Binary64) (less : first.magnitude ≤ second.magnitude) :
      first.units ≤ second.units := strictMono_unitsOf.monotone less
  cases leftSign : left.isNegative <;> cases rightSign : right.isNegative
  all_goals
    rw [leftSign, rightSign] at below
    simp only [if_true, Bool.false_eq_true, if_false] at below ⊢
  · have := monotone left right (by omega)
    omega
  · omega
  · omega
  · have := monotone right left (by omega)
    omega

/-- Finite numbers in the total order have values in their order. -/
theorem inUnits_le
    {left right : Binary64}
    (leftFinite : left.isFinite = true)
    (rightFinite : right.isFinite = true)
    (below : left.totalLE right = true) :
    left.inUnits ≤ right.inUnits := by
  cases same : left.sameNumber right with
  | true => exact le_of_eq ((sameNumber_iff_inUnits leftFinite rightFinite).mp same)
  | false => exact le_of_lt (inUnits_lt leftFinite rightFinite below same)

end Binary64
end LineMetrics
