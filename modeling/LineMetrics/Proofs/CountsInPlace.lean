import LineMetrics.Proofs.RunningTotals
import Mathlib.Data.List.Induction

/-!
# Counts one by one, taken in place

Running totals are turned into counts one by one in place when each place, from the last one
down to the second, loses what the place in front of it holds. No place loses more than it
holds, since the place in front of it still holds its own total. The two forms of counts lead
to each other exactly as far as totals stay in order and within 64 bits.
-/

namespace LineMetrics
namespace Buckets

/-- The difference of two counts, if the second is not more than the first. -/
def subtract? (count other : UInt64) : Option UInt64 :=
  if other ≤ count then some (count - other) else none

/-- Take the count at a place away from the one behind it. -/
def lowerBehind? (counts : List UInt64) (place : Nat) : Option (List UInt64) := do
  let before <- counts[place]?
  let count <- counts[place + 1]?
  let difference <- subtract? count before
  some (counts.set (place + 1) difference)

/-- Lower each count up to a place by the one in front of it, starting with that place. -/
def lowerDownFrom? : Nat -> List UInt64 -> Option (List UInt64)
  | 0, counts => some counts
  | place + 1, counts => do
      let lowered <- lowerBehind? counts place
      lowerDownFrom? place lowered

/-- Counts one by one from running totals, in place. There are none if some count would lose
more than it holds. -/
def perBucketInPlace? (counts : List UInt64) : Option (List UInt64) :=
  if isNondecreasing counts then lowerDownFrom? (counts.length - 1) counts else some counts

variable {counts : List UInt64}

/-! ## One place after the other -/

/-- A step takes one count from the next and leaves all others as they are. -/
theorem lowerBehind?_append
    {before count : UInt64}
    (ascends : before ≤ count)
    (front behind : List UInt64) :
    lowerBehind? (front ++ before :: count :: behind) front.length =
      some (front ++ before :: (count - before) :: behind) := by
  have atPlace : (front ++ before :: count :: behind)[front.length]? = some before := by
    rw [List.getElem?_append_right (Nat.le_refl _), Nat.sub_self, List.getElem?_cons_zero]
  have atNext : (front ++ before :: count :: behind)[front.length + 1]? = some count := by
    rw [List.getElem?_append_right (Nat.le_add_right _ 1), Nat.add_sub_cancel_left,
      List.getElem?_cons_succ, List.getElem?_cons_zero]
  have stored : (front ++ before :: count :: behind).set (front.length + 1) (count - before) =
      front ++ before :: (count - before) :: behind := by
    rw [List.set_append_right _ _ (Nat.le_add_right _ 1), Nat.add_sub_cancel_left,
      List.set_cons_succ, List.set_cons_zero]
  rw [lowerBehind?, atPlace, atNext]
  simp only [Option.bind_eq_bind, Option.bind_some, subtract?, if_pos ascends, stored]

/-- The difference of the last two of some totals stands behind the differences of the others. -/
theorem differencesFrom_concat (previous before count : UInt64) (front : List UInt64) :
    differencesFrom previous (front ++ [before, count]) =
      differencesFrom previous (front ++ [before]) ++ [count - before] := by
  induction front generalizing previous with
  | nil => rfl
  | cons first front inductionHypothesis =>
      rw [List.cons_append, List.cons_append, differencesFrom, differencesFrom,
        inductionHypothesis, List.cons_append]

/-- Totals in order are lowered to their differences, and what stands behind them stays. -/
theorem lowerDownFrom?_append
    {totals : List UInt64}
    (ordered : totals.Pairwise fun earlier later => earlier ≤ later)
    (behind : List UInt64) :
    lowerDownFrom? (totals.length - 1) (totals ++ behind) =
      some (differencesFrom 0 totals ++ behind) := by
  -- from the last total down: it is lowered first, and joins what stands behind the others
  induction totals using List.reverseRecOn generalizing behind with
  | nil => rfl
  | append_singleton totals count inductionHypothesis =>
      obtain ⟨orderedFront, -, ascends⟩ := List.pairwise_append.mp ordered
      rcases List.eq_nil_or_concat' totals with rfl | ⟨front, before, rfl⟩
      · rw [List.nil_append, differencesFrom, UInt64.sub_zero]
        rfl
      · have step := lowerBehind?_append
          (ascends before (List.mem_append_right _ List.mem_cons_self) count List.mem_cons_self)
          front behind
        have lowered := inductionHypothesis orderedFront ((count - before) :: behind)
        have place : (front ++ [before]).length - 1 = front.length := by
          rw [List.length_append, List.length_singleton, Nat.add_sub_cancel]
        have next : (front ++ [before] ++ [count]).length - 1 = front.length + 1 := by
          rw [List.length_append, List.length_append, List.length_singleton,
            List.length_singleton, Nat.add_sub_cancel]
        rw [place] at lowered
        simp only [List.append_assoc, List.cons_append, List.nil_append] at lowered next ⊢
        rw [next, lowerDownFrom?, step]
        refine lowered.trans ?_
        rw [differencesFrom_concat, List.append_assoc, List.singleton_append]

/-- In place or not, the counts one by one are the same, and no count loses more than it
holds. -/
theorem perBucketInPlace?_eq (counts : List UInt64) :
    perBucketInPlace? counts = some (perBucket counts) := by
  rw [perBucketInPlace?, perBucket]
  cases ordered : isNondecreasing counts with
  | false => rfl
  | true =>
      have lowered := lowerDownFrom?_append (isNondecreasing_iff.mp ordered) []
      rw [List.append_nil, List.append_nil] at lowered
      rw [if_pos rfl, if_pos rfl, lowered]

/-! ## Counts that stay as they are -/

/-- Counts are their own differences if none but the last is taken from another one. -/
theorem differencesFrom_eq_iff {previous : UInt64} :
    differencesFrom previous counts = counts ↔
      ∀ count ∈ (previous :: counts).dropLast, count = 0 := by
  induction counts generalizing previous with
  | nil => exact iff_of_true rfl (List.forall_mem_nil _)
  | cons count counts inductionHypothesis =>
      rw [differencesFrom, List.cons.injEq, inductionHypothesis, List.dropLast_cons_cons,
        List.forall_mem_cons, UInt64.sub_eq_iff_eq_add, UInt64.left_eq_add]

/-- Counts are left as they are if they are not in order, or only the last one is more than
nothing. -/
theorem perBucket_eq_self_iff :
    perBucket counts = counts ↔
      ¬counts.Pairwise (fun earlier later => earlier ≤ later) ∨
        ∀ count ∈ counts.dropLast, count = 0 := by
  by_cases ordered : counts.Pairwise fun earlier later => earlier ≤ later
  · rw [perBucket, if_pos (isNondecreasing_iff.mpr ordered), differencesFrom_eq_iff,
      or_iff_right (not_not_intro ordered)]
    cases counts with
    | nil => rfl
    | cons first counts => rw [List.dropLast_cons_cons, List.forall_mem_cons, and_iff_right rfl]
  · exact iff_of_true (perBucket_of_decreasing ordered) (.inl ordered)

/-! ## One form and the other -/

/-- Totals in order are the running totals of their counts one by one. -/
theorem cumulative_perBucket
    (ordered : counts.Pairwise fun earlier later => earlier ≤ later) :
    cumulative (perBucket counts) = counts := by
  rw [perBucket, if_pos (isNondecreasing_iff.mpr ordered)]
  exact cumulativeFrom_differencesFrom (.cons (fun _ _ => UInt64.zero_le) ordered)

/-- Counts one by one are found again in their running totals exactly if 64 bits hold their
sum. -/
theorem perBucket_cumulative_iff :
    perBucket (cumulative counts) = counts ↔ sum counts < UInt64.size := by
  refine ⟨fun restored => ?_, perBucket_cumulative⟩
  -- the last running total is the sum of the counts that are found in the totals
  have ordered := isNondecreasing_iff.mp (isNondecreasing_cumulative counts)
  rcases List.eq_nil_or_concat' (cumulative counts) with none | ⟨totals, last, isConcat⟩
  · rw [none] at restored
    rw [<- restored]
    decide
  · rw [isConcat] at restored ordered
    have sums := sum_perBucket_eq_iff.mpr ordered
    rw [restored] at sums
    rw [sums]
    exact last.toNat_lt

/-- Counts one by one and running totals lead to each other. Taken in place, no count loses
more than it holds. Counts stay in number, and as they are exactly if they are not in order
or none but the last is more than nothing. Totals in order are found again in their counts,
and counts in their totals exactly if 64 bits hold the sum. -/
theorem perBucket_inverse (counts : List UInt64) :
    perBucketInPlace? counts = some (perBucket counts) ∧
      (perBucket counts).length = counts.length ∧
      (perBucket counts = counts ↔
        ¬counts.Pairwise (fun earlier later => earlier ≤ later) ∨
          (∀ count ∈ counts.dropLast, count = 0) ∨ counts.length ≤ 1) ∧
      (counts.Pairwise (fun earlier later => earlier ≤ later) ->
        cumulative (perBucket counts) = counts) ∧
      (perBucket (cumulative counts) = counts ↔ sum counts ≤ 2 ^ 64 - 1) := by
  have short : counts.length ≤ 1 -> ∀ count ∈ counts.dropLast, count = 0 := by
    intro length
    rw [List.eq_nil_of_length_eq_zero (l := counts.dropLast) (by rw [List.length_dropLast]; omega)]
    exact List.forall_mem_nil _
  refine ⟨perBucketInPlace?_eq counts, length_perBucket counts, ?_, cumulative_perBucket, ?_⟩
  · rw [perBucket_eq_self_iff, or_iff_left_of_imp short]
  · rw [perBucket_cumulative_iff, UInt64.size]
    omega

/-- Totals that reach the greatest count. -/
theorem perBucket_inverse_greatest :
    [3, 3, 0xffffffffffffffff].Pairwise (fun earlier later : UInt64 => earlier ≤ later) ∧
      perBucket [3, 3, 0xffffffffffffffff] = [3, 0, 0xfffffffffffffffc] ∧
      cumulative (perBucket [3, 3, 0xffffffffffffffff]) = [3, 3, 0xffffffffffffffff] :=
  have ordered : [3, 3, 0xffffffffffffffff].Pairwise
      (fun earlier later : UInt64 => earlier ≤ later) := by decide
  ⟨ordered, by decide, (perBucket_inverse _).2.2.2.1 ordered⟩

end Buckets
end LineMetrics
