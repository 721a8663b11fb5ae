import LineMetrics.Binary64

/-!
# Two ways to compare binary64 numbers

Numerically, the two zeros are equal and a NaN equals nothing. The total order
places every bit pattern: negative NaNs, the negative numbers from minus
infinity to minus zero, the positive numbers, and last the positive NaNs.
-/

namespace LineMetrics
namespace Binary64

/-- The two numbers are numerically equal. -/
def sameNumber (left right : Binary64) : Bool :=
  !left.isNaN && !right.isNaN && (left == right || left.isZero && right.isZero)

/-- The number is numerically zero or more. -/
def isAtLeastZero (number : Binary64) : Bool :=
  !number.isNaN && (!number.isNegative || number.isZero)

/-- The place of a number in the total order. -/
def rank (number : Binary64) : Int :=
  if number.isNegative then -number.magnitude - 1 else number.magnitude

/-- The total order of bit patterns. -/
def totalLE (left right : Binary64) : Bool := left.rank ≤ right.rank

theorem totalLE_trans
    (first second third : Binary64)
    (left : first.totalLE second)
    (right : second.totalLE third) :
    first.totalLE third := by
  simp only [totalLE, decide_eq_true_eq] at *
  omega

theorem totalLE_total (first second : Binary64) :
    first.totalLE second || second.totalLE first := by
  simp only [totalLE, Bool.or_eq_true, decide_eq_true_eq]
  omega

/-- Different bit patterns have different places. -/
theorem rank_injective
    {first second : Binary64}
    (same : first.rank = second.rank) :
    first = second := by
  rw [<- ofMagnitude_magnitude first, <- ofMagnitude_magnitude second]
  unfold rank at same
  cases firstSign : first.isNegative <;> cases secondSign : second.isNegative <;>
    simp only [firstSign, secondSign, if_true, Bool.false_eq_true, if_false] at same
  · rw [show first.magnitude = second.magnitude by omega]
  · omega
  · omega
  · rw [show first.magnitude = second.magnitude by omega]

theorem totalLE_antisymm
    {first second : Binary64}
    (below : first.totalLE second)
    (above : second.totalLE first) :
    first = second := by
  simp only [totalLE, decide_eq_true_eq] at below above
  exact rank_injective (Int.le_antisymm below above)

end Binary64
end LineMetrics
