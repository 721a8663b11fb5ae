import LineMetrics.Export

/-!
# Numbers in metric trees

The binary64 numbers that a metric tree holds: the values of data points, the sums of
distributions, the bounds of buckets, and quantiles with their values. The attributes
are left out, which are texts in every tree that is gathered from points.
-/

namespace LineMetrics

/-- The binary64 number of a data point, if it holds one. -/
def NumberPoint.doubles (point : NumberPoint) : List Binary64 :=
  match point.value with
  | some (.double value) => [value]
  | _ => []

/-- The sum and the bounds. -/
def HistogramPoint.doubles (point : HistogramPoint) : List Binary64 :=
  point.sum.toList ++ point.bounds

/-- The sum, and the quantiles with their values. -/
def SummaryPoint.doubles (point : SummaryPoint) : List Binary64 :=
  point.sum :: point.quantiles.flatMap fun quantile => [quantile.quantile, quantile.value]

/-- The binary64 numbers of the data points. -/
def MetricData.doubles : MetricData -> List Binary64
  | .gauge points => points.flatMap NumberPoint.doubles
  | .sum points _ _ => points.flatMap NumberPoint.doubles
  | .histogram points _ => points.flatMap HistogramPoint.doubles
  | .exponentialHistogram => []
  | .summary points => points.flatMap SummaryPoint.doubles

/-- The binary64 numbers in the data of the metrics. -/
def MetricTree.doubles (tree : MetricTree) : List Binary64 :=
  tree.placedMetrics.flatMap fun (_, metric) => metric.data.toList.flatMap MetricData.doubles

end LineMetrics
