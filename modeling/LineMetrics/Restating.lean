import LineMetrics.Grouping

/-!
# What sliced points restate

A tree that is written as sliced points and read again states the same metrics, but
their distributions are made anew: every count is read from a binary64 number, a sum is
always there, and the buckets are those that the running totals make when they are
closed by the count.
-/

namespace LineMetrics

/-- The number that a count is written as. -/
def writtenCount (count : UInt64) : Binary64 := .ofNat count.toNat

/-- A count as it is read again from the number that it is written as. -/
def restatedCount (count : UInt64) : UInt64 :=
  UInt64.ofNat (min (writtenCount count).wholePart (UInt64.size - 1))

/-- The slice as it is read again. -/
def Slice.restated : Slice -> Slice
  | .bucket bound count => .bucket bound (restatedCount count)
  | .quantile place value => .quantile place value
  | .total count sum => .total (restatedCount count) sum

@[simp] theorem Slice.isQuantile_restated (slice : Slice) :
    slice.restated.isQuantile = slice.isQuantile := by
  cases slice <;> simp only [Slice.restated, Slice.isQuantile]

/-- The slice of a series as it is read again. -/
def SeriesSlice.restated (part : SeriesSlice) : SeriesSlice :=
  { part with slice := part.slice.restated }

/-- The reading as it is read again. -/
def Reading.restated : Reading -> Reading
  | .slice preferSummary series part => .slice preferSummary series part.restated
  | reading => reading

@[simp] theorem Reading.kind_restated (reading : Reading) :
    reading.restated.kind = reading.kind := by
  cases reading <;> rfl

@[simp] theorem Reading.number?_restated (reading : Reading) :
    reading.restated.number? = reading.number? := by
  cases reading <;> rfl

@[simp] theorem Reading.histogram?_restated (reading : Reading) :
    reading.restated.histogram? = reading.histogram? := by
  cases reading <;> rfl

@[simp] theorem Reading.summary?_restated (reading : Reading) :
    reading.restated.summary? = reading.summary? := by
  cases reading <;> rfl

/-- Slices that were turned into readings are read again as slices. -/
theorem Reading.map_restated_toReading (parts : List SeriesSlice) :
    (parts.map SeriesSlice.toReading).map Reading.restated =
      (parts.map SeriesSlice.restated).map SeriesSlice.toReading := by
  rw [List.map_map, List.map_map]
  rfl

/-- The observation as it is read again. -/
def Observation.restated (observation : Observation) : Observation :=
  { observation with reading := observation.reading.restated }

namespace HistogramPoint

/-- The running totals of the buckets with finite bounds, as they are read again. -/
def restatedTotals (point : HistogramPoint) : List UInt64 :=
  (Buckets.cumulative (point.counts.take point.bounds.length)).map restatedCount

/-- The data point as it is read again. -/
def restated (point : HistogramPoint) : HistogramPoint :=
  { point with
    start := 0
    count := restatedCount point.count
    sum := some (point.sum.getD .zero)
    counts :=
      if point.counts.isEmpty then []
      else Buckets.perBucket (point.restatedTotals ++ [restatedCount point.count]) }

/-- What is read again is written as it was first. None of the running totals is more than
the count, or else they are taken for counts one by one, and accumulating them again
changes none of the numbers that they are written as. -/
def isStable (point : HistogramPoint) : Bool :=
  point.restatedTotals.all (fun total => total ≤ restatedCount point.count) ||
    (Buckets.cumulative point.restatedTotals).map writtenCount =
      point.restatedTotals.map writtenCount

end HistogramPoint

/-- The data point as it is read again. -/
def SummaryPoint.restated (point : SummaryPoint) : SummaryPoint :=
  { point with start := 0, count := restatedCount point.count }

namespace MetricData

/-- The data points as they are read again. -/
def restated : MetricData -> MetricData
  | .histogram points temporality =>
      .histogram (points.map HistogramPoint.restated) temporality
  | .summary points => .summary (points.map SummaryPoint.restated)
  | data => data

/-- What is read again of the data points is written as it was first. -/
def isStable : MetricData -> Bool
  | .histogram points _ => points.all HistogramPoint.isStable
  | _ => true

end MetricData

namespace Metric

/-- The metric as it is read again. -/
def restated (metric : Metric) : Metric :=
  { metric with data := metric.data.map MetricData.restated }

/-- What is read again of the metric is written as it was first. -/
def isStable (metric : Metric) : Bool := metric.data.all MetricData.isStable

end Metric

/-- What is read again of the tree is written as it was first. -/
def MetricTree.isStable (tree : MetricTree) : Bool :=
  tree.all fun resource =>
    resource.scopes.all fun scope => scope.metrics.all Metric.isStable

end LineMetrics
