import LineMetrics.Buckets
import LineMetrics.Observation
import LineMetrics.Sorting

/-!
# Assemblies of slices

An assembly is a data point of a distribution under construction. Slices arrive in
any order. A later slice for the same bucket, the same quantile or the total takes
the place of an earlier one. Buckets and quantiles are kept apart, since only the
whole metric decides which of them become its data points.
-/

namespace LineMetrics

/-- A data point of a distribution under construction. -/
structure Assembly where
  count : Option UInt64 := none
  sum : Option Binary64 := none
  buckets : List (Binary64 × UInt64) := []
  quantiles : List (Binary64 × Binary64) := []
  deriving DecidableEq, Inhabited

namespace Assembly

/-- Set the value at a place. Places that are numerically equal are one place, and keep
the form in which it came first. -/
def setAt (place : Binary64) (value : α) : List (Binary64 × α) -> List (Binary64 × α)
  | [] => [(place, value)]
  | entry :: entries =>
      if entry.1.sameNumber place then (entry.1, value) :: entries
      else entry :: setAt place value entries

/-- Add a slice. -/
def add (assembly : Assembly) : Slice -> Assembly
  | .bucket bound count => { assembly with buckets := setAt bound count assembly.buckets }
  | .quantile quantile value =>
      { assembly with quantiles := setAt quantile value assembly.quantiles }
  | .total count sum => { assembly with count := some count, sum := some sum }

/-- Values in the ascending order of their places. -/
def inOrder (entries : List (Binary64 × α)) : List (Binary64 × α) :=
  Sorting.sortOn Binary64.totalLE Prod.fst entries

/-- The buckets with finite bounds, in ascending order. -/
def finiteBuckets (assembly : Assembly) : List (Binary64 × UInt64) :=
  (inOrder assembly.buckets).filter fun bucket => bucket.1.isFinite

/-- The count of the bucket that holds every observation. -/
def infiniteBucket? (assembly : Assembly) : Option UInt64 :=
  (assembly.buckets.find? fun bucket => bucket.1 = .infinity).map Prod.snd

/-- The number of observations: as given, or else that of the last bucket. -/
def countOrLast (assembly : Assembly) : UInt64 :=
  ((assembly.count.or assembly.infiniteBucket?).or
    (assembly.finiteBuckets.getLast?.map Prod.snd)).getD 0

/-- The data point of a histogram. It has buckets if any bucket was given, and then
the number of observations closes the last one. -/
def toHistogramPoint (series : Series) (assembly : Assembly) : HistogramPoint :=
  let buckets := assembly.finiteBuckets
  let count := assembly.countOrLast
  { attributes := Attribute.ofTags series.attributes
    time := series.time
    count
    sum := assembly.sum
    counts :=
      if buckets.isEmpty && assembly.infiniteBucket?.isNone then []
      else Buckets.perBucket (buckets.map Prod.snd ++ [count])
    bounds := buckets.map Prod.fst }

/-- The data point of a summary. -/
def toSummaryPoint (series : Series) (assembly : Assembly) : SummaryPoint where
  attributes := Attribute.ofTags series.attributes
  time := series.time
  count := assembly.count.getD 0
  sum := assembly.sum.getD .zero
  quantiles := (inOrder assembly.quantiles).map fun (quantile, value) => ⟨quantile, value⟩

end Assembly
end LineMetrics
