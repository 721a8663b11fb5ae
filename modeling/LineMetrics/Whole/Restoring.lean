import LineMetrics.Export
import LineMetrics.Restoring

/-!
# Trees that whole points can restore

Whole points state a count as a binary64 number, close the buckets of a histogram with
its count, and tell the parts of a distribution apart by their places. They keep the
start time of a delta as text, which ends at the latest instant, and leave out the start
time of a running total. So a tree comes back from its points only as far as its data
points fit this form.
-/

namespace LineMetrics

/-- A whole point can state the data point: the counts of its buckets sum up to its
count, and that is a binary64 number. -/
def HistogramPoint.fitsWhole (point : HistogramPoint) : Bool :=
  Buckets.sum point.counts = point.count.toNat && point.count.toNat ≤ 2 ^ 53

/-- A whole point can state the data point: its count is a binary64 number, and no
quantile is repeated. -/
def SummaryPoint.fitsWhole (point : SummaryPoint) : Bool :=
  point.count.toNat ≤ 2 ^ 53 && (point.quantiles.map Quantile.quantile).Nodup

/-- A whole point can state the start time of the data point of a delta. -/
def NumberPoint.fitsWhole (point : NumberPoint) : Bool := point.start.toNat < 2 ^ 63

/-- Whole points can state the data points. -/
def MetricData.fitsWhole : MetricData -> Bool
  | .sum points temporality _ =>
      temporality ≠ Temporality.delta.code || points.all NumberPoint.fitsWhole
  | .histogram points _ => points.all HistogramPoint.fitsWhole
  | .summary points => points.all SummaryPoint.fitsWhole
  | _ => true

/-- Whole points can state the data points of the metric. -/
def Metric.fitsWhole (metric : Metric) : Bool := metric.data.all MetricData.fitsWhole

/-- Whole points can state all data points of the tree. -/
def MetricTree.fitsWhole (tree : MetricTree) : Bool :=
  tree.placedMetrics.all fun placed => placed.2.fitsWhole

/-- The data point without its start time. -/
def NumberPoint.withoutStart (point : NumberPoint) : NumberPoint := { point with start := 0 }

/-- The data without the start times of running totals. -/
def MetricData.withoutRunningStarts : MetricData -> MetricData
  | .sum points temporality monotonic =>
      if temporality = Temporality.cumulative.code then
        .sum (points.map NumberPoint.withoutStart) temporality monotonic
      else .sum points temporality monotonic
  | data => data

/-- The metric without the start times of running totals. -/
def Metric.withoutRunningStarts (metric : Metric) : Metric :=
  { metric with data := metric.data.map MetricData.withoutRunningStarts }

end LineMetrics
