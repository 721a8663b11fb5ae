import LineMetrics.Restoring
import Mathlib.Data.List.Basic

/-!
# Running totals of bucket counts

Running totals never decrease. As long as the sum of the counts stays within 64 bits, their
differences are the counts again, and the last total is the sum.
-/

namespace LineMetrics
namespace Buckets

@[simp] theorem sum_nil : sum [] = 0 := rfl

@[simp] theorem sum_cons (count : UInt64) (counts : List UInt64) :
    sum (count :: counts) = count.toNat + sum counts := by
  rw [sum, List.map_cons, List.sum_cons]
  rfl

theorem sum_append (left right : List UInt64) : sum (left ++ right) = sum left + sum right := by
  rw [sum, List.map_append, List.sum_append]
  rfl

/-- No sum of some counts is more than that of all. -/
theorem sum_take_le (count : Nat) (counts : List UInt64) :
    sum (counts.take count) ≤ sum counts := by
  have parts := sum_append (counts.take count) (counts.drop count)
  rw [List.take_append_drop] at parts
  omega

theorem cumulativeFrom_cons (total count : UInt64) (counts : List UInt64) :
    cumulativeFrom total (count :: counts) =
      addWithin total count :: cumulativeFrom (addWithin total count) counts := rfl

/-- Within 64 bits, counts are added as natural numbers. -/
theorem toNat_addWithin
    {left right : UInt64}
    (within : left.toNat + right.toNat < UInt64.size) :
    (addWithin left right).toNat = left.toNat + right.toNat := by
  simp only [addWithin, UInt64.size] at *
  rw [UInt64.toNat_ofNat']
  omega

/-- The differences of running totals are the counts. -/
theorem differencesFrom_cumulativeFrom
    {total : UInt64}
    {counts : List UInt64}
    (within : total.toNat + sum counts < UInt64.size) :
    differencesFrom total (cumulativeFrom total counts) = counts := by
  induction counts generalizing total with
  | nil => rfl
  | cons count counts inductionHypothesis =>
      rw [sum_cons] at within
      have added : (addWithin total count).toNat = total.toNat + count.toNat :=
        toNat_addWithin (by omega)
      have difference : addWithin total count - total = count := by
        apply UInt64.toNat_inj.mp
        rw [UInt64.toNat_sub_of_le _ _ (UInt64.le_iff_toNat_le.mpr (by omega)), added]
        omega
      rw [cumulativeFrom_cons, differencesFrom, difference, inductionHypothesis (by omega)]

/-- Counts do not decrease exactly if none is more than any later one. -/
theorem isNondecreasing_iff {counts : List UInt64} :
    isNondecreasing counts = true ↔ counts.Pairwise fun earlier later => earlier ≤ later := by
  induction counts with
  | nil => exact iff_of_true rfl .nil
  | cons first rest inductionHypothesis =>
      cases rest with
      | nil => exact iff_of_true rfl (List.pairwise_singleton _ _)
      | cons second others =>
          rw [isNondecreasing, Bool.and_eq_true, decide_eq_true_eq, inductionHypothesis,
            List.pairwise_cons (a := first), List.forall_mem_cons]
          constructor
          · rintro ⟨below, ordered⟩
            refine ⟨⟨below, fun later member => ?_⟩, ordered⟩
            exact UInt64.le_trans below ((List.pairwise_cons.mp ordered).1 later member)
          · rintro ⟨⟨below, -⟩, ordered⟩
            exact ⟨below, ordered⟩

/-- A count is not more than its sum with another one. -/
theorem le_addWithin (left right : UInt64) : left ≤ addWithin left right := by
  have below := left.toNat_lt
  rw [UInt64.le_iff_toNat_le, addWithin, UInt64.toNat_ofNat']
  simp only [UInt64.size]
  omega

/-- Running totals never decrease, even where they reach the largest count. -/
theorem pairwise_cumulativeFrom (total : UInt64) (counts : List UInt64) :
    (total :: cumulativeFrom total counts).Pairwise fun earlier later =>
      earlier ≤ later := by
  induction counts generalizing total with
  | nil => exact List.pairwise_singleton _ _
  | cons count counts inductionHypothesis =>
      have behind := inductionHypothesis (addWithin total count)
      rw [cumulativeFrom_cons]
      refine .cons (List.forall_mem_cons.mpr ⟨le_addWithin total count, ?_⟩) behind
      intro later member
      exact UInt64.le_trans (le_addWithin total count)
        ((List.pairwise_cons.mp behind).1 later member)

/-- The running totals of differences are the totals that these are of. -/
theorem cumulativeFrom_differencesFrom
    {previous : UInt64}
    {totals : List UInt64}
    (ordered : (previous :: totals).Pairwise fun earlier later => earlier ≤ later) :
    cumulativeFrom previous (differencesFrom previous totals) = totals := by
  induction totals generalizing previous with
  | nil => rfl
  | cons total totals inductionHypothesis =>
      obtain ⟨below, behind⟩ := List.pairwise_cons.mp ordered
      have step : previous ≤ total := below total List.mem_cons_self
      have difference := UInt64.toNat_sub_of_le _ _ step
      have bound := UInt64.le_iff_toNat_le.mp step
      have small := total.toNat_lt
      have added : addWithin previous (total - previous) = total := by
        apply UInt64.toNat_inj.mp
        rw [toNat_addWithin (by simp only [UInt64.size]; omega), difference]
        omega
      rw [differencesFrom, cumulativeFrom_cons, added, inductionHypothesis behind]

/-- Running totals from nothing do not decrease. -/
theorem isNondecreasing_cumulative (counts : List UInt64) :
    isNondecreasing (cumulative counts) = true :=
  isNondecreasing_iff.mpr (List.pairwise_cons.mp (pairwise_cumulativeFrom 0 counts)).2

/-- Counts one by one are found again in their running totals. -/
theorem perBucket_cumulative
    {counts : List UInt64}
    (within : sum counts < UInt64.size) :
    perBucket (cumulative counts) = counts := by
  have fromZero : (0 : UInt64).toNat + sum counts < UInt64.size := by
    rw [UInt64.toNat_zero]
    omega
  rw [perBucket, isNondecreasing_cumulative, if_pos rfl, cumulative,
    differencesFrom_cumulativeFrom fromZero]

/-- No running total is larger than the last one. -/
theorem toNat_le_of_mem_cumulativeFrom
    {total other : UInt64}
    {counts : List UInt64}
    (within : total.toNat + sum counts < UInt64.size)
    (member : other ∈ cumulativeFrom total counts) :
    other.toNat ≤ total.toNat + sum counts := by
  induction counts generalizing total with
  | nil => cases member
  | cons count counts inductionHypothesis =>
      rw [sum_cons] at within ⊢
      have added : (addWithin total count).toNat = total.toNat + count.toNat :=
        toNat_addWithin (by omega)
      rcases List.mem_cons.mp member with same | behind
      · rw [same]
        omega
      · have bounded := inductionHypothesis (by omega) behind
        omega

/-- The last running total is the sum. -/
theorem cumulativeFrom_append_singleton
    {total last result : UInt64}
    {counts : List UInt64}
    (within : total.toNat + sum counts + last.toNat = result.toNat) :
    cumulativeFrom total (counts ++ [last]) = cumulativeFrom total counts ++ [result] := by
  have below := result.toNat_lt
  induction counts generalizing total with
  | nil =>
      rw [sum_nil] at within
      have added : (addWithin total last).toNat = total.toNat + last.toNat :=
        toNat_addWithin (by simp only [UInt64.size]; omega)
      have same : addWithin total last = result := UInt64.toNat_inj.mp (by omega)
      rw [List.nil_append, cumulativeFrom_cons, same]
      rfl
  | cons count counts inductionHypothesis =>
      rw [sum_cons] at within
      have added : (addWithin total count).toNat = total.toNat + count.toNat :=
        toNat_addWithin (by simp only [UInt64.size]; omega)
      rw [List.cons_append, cumulativeFrom_cons, cumulativeFrom_cons,
        inductionHypothesis (by omega), List.cons_append]

/-- Counts that sum up to a number are found again in the running totals of all but the
last of them, closed by that number. -/
theorem perBucket_cumulative_take
    {counts : List UInt64}
    {bounds : Nat}
    {count : UInt64}
    (length : counts.length = bounds + 1)
    (sums : sum counts = count.toNat) :
    perBucket (cumulative (counts.take bounds) ++ [count]) = counts := by
  rcases List.eq_nil_or_concat' counts with rfl | ⟨initial, last, rfl⟩
  · cases length
  · rw [List.length_append, List.length_singleton] at length
    have initialLength : initial.length = bounds := by omega
    have below := count.toNat_lt
    rw [sum_append, sum_cons, sum_nil] at sums
    have closed : cumulative (initial ++ [last]) = cumulative initial ++ [count] :=
      cumulativeFrom_append_singleton (by rw [UInt64.toNat_zero]; omega)
    rw [List.take_left' initialLength, <- closed]
    apply perBucket_cumulative
    rw [sum_append, sum_cons, sum_nil]
    simp only [UInt64.size]
    omega

/-- Counts that decrease somewhere are taken as they are. -/
theorem perBucket_of_decreasing
    {counts : List UInt64}
    (decreasing : ¬counts.Pairwise fun earlier later => earlier ≤ later) :
    perBucket counts = counts := by
  rw [perBucket, if_neg (isNondecreasing_iff.not.mpr decreasing)]

/-- The differences of counts that do not decrease sum up to the last count. -/
theorem sum_differencesFrom
    {previous last : UInt64}
    {counts : List UInt64}
    (ordered : (previous :: (counts ++ [last])).Pairwise fun earlier later =>
      earlier ≤ later) :
    previous.toNat + sum (differencesFrom previous (counts ++ [last])) = last.toNat := by
  induction counts generalizing previous with
  | nil =>
      have below : previous ≤ last :=
        (List.pairwise_cons.mp ordered).1 last List.mem_cons_self
      have bound := UInt64.le_iff_toNat_le.mp below
      rw [List.nil_append, differencesFrom, differencesFrom, sum_cons, sum_nil,
        UInt64.toNat_sub_of_le _ _ below]
      omega
  | cons count counts inductionHypothesis =>
      obtain ⟨below, behind⟩ := List.pairwise_cons.mp ordered
      have step := below count List.mem_cons_self
      have bound := UInt64.le_iff_toNat_le.mp step
      have rest := inductionHypothesis behind
      rw [List.cons_append, differencesFrom, sum_cons, UInt64.toNat_sub_of_le _ _ step]
      omega

/-- Counts that sum up to nothing are all zero, so they do not decrease. -/
theorem pairwise_of_sum_eq_zero
    {counts : List UInt64}
    (last : UInt64)
    (noCounts : sum counts = 0) :
    (counts ++ [last]).Pairwise fun earlier later => earlier ≤ later := by
  induction counts with
  | nil => exact List.pairwise_singleton _ _
  | cons count counts inductionHypothesis =>
      rw [sum_cons] at noCounts
      have zero : count = 0 := UInt64.toNat_inj.mp (by rw [UInt64.toNat_zero]; omega)
      rw [List.cons_append, List.pairwise_cons, zero]
      exact ⟨fun _ _ => UInt64.zero_le, inductionHypothesis (by omega)⟩

/-- Counts one by one sum up to the count that closed the received ones exactly if these
did not decrease. -/
theorem sum_perBucket_eq_iff {counts : List UInt64} {last : UInt64} :
    sum (perBucket (counts ++ [last])) = last.toNat ↔
      (counts ++ [last]).Pairwise fun earlier later => earlier ≤ later := by
  constructor
  · intro sums
    by_contra decreasing
    rw [perBucket_of_decreasing decreasing, sum_append, sum_cons, sum_nil] at sums
    exact decreasing (pairwise_of_sum_eq_zero last (by omega))
  · intro ordered
    have fromZero :
        (0 : UInt64).toNat + sum (differencesFrom 0 (counts ++ [last])) = last.toNat :=
      sum_differencesFrom (List.pairwise_cons.mpr ⟨fun _ _ => UInt64.zero_le, ordered⟩)
    rw [UInt64.toNat_zero, Nat.zero_add] at fromZero
    rw [perBucket, if_pos (isNondecreasing_iff.mpr ordered), fromZero]

end Buckets
end LineMetrics
