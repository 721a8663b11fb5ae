/-!
# Bucket counts

The counts of buckets are given either one by one or as running totals. `cumulative`
leads from the first form to the second and `perBucket` back, as far as the totals
stay within 64 bits.
-/

namespace LineMetrics
namespace Buckets

/-- No count is less than the one before it. -/
def isNondecreasing : List UInt64 -> Bool
  | first :: second :: rest => first ≤ second && isNondecreasing (second :: rest)
  | _ => true

/-- The differences of neighbours, the first from a given number. -/
def differencesFrom (previous : UInt64) : List UInt64 -> List UInt64
  | [] => []
  | count :: counts => (count - previous) :: differencesFrom count counts

/-- Counts one by one from running totals. Counts that decrease somewhere cannot be
running totals and are taken to be counts one by one already. -/
def perBucket (counts : List UInt64) : List UInt64 :=
  if isNondecreasing counts then differencesFrom 0 counts else counts

/-- The sum of two counts, or the largest count if there is none. -/
def addWithin (left right : UInt64) : UInt64 :=
  UInt64.ofNat (min (left.toNat + right.toNat) (UInt64.size - 1))

/-- Running totals on top of a given number. -/
def cumulativeFrom (total : UInt64) : List UInt64 -> List UInt64
  | [] => []
  | count :: counts =>
      let total := addWithin total count
      total :: cumulativeFrom total counts

/-- Running totals of counts given one by one. -/
def cumulative (counts : List UInt64) : List UInt64 := cumulativeFrom 0 counts

@[simp] theorem length_differencesFrom (previous : UInt64) (counts : List UInt64) :
    (differencesFrom previous counts).length = counts.length := by
  induction counts generalizing previous with
  | nil => rfl
  | cons count counts inductionHypothesis => simp [differencesFrom, inductionHypothesis]

@[simp] theorem length_perBucket (counts : List UInt64) :
    (perBucket counts).length = counts.length := by
  unfold perBucket
  split <;> simp

@[simp] theorem length_cumulativeFrom (total : UInt64) (counts : List UInt64) :
    (cumulativeFrom total counts).length = counts.length := by
  induction counts generalizing total with
  | nil => rfl
  | cons count counts inductionHypothesis => simp [cumulativeFrom, inductionHypothesis]

@[simp] theorem length_cumulative (counts : List UInt64) :
    (cumulative counts).length = counts.length := length_cumulativeFrom 0 counts

end Buckets
end LineMetrics
