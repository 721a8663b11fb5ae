import LineMetrics.Placement

/-!
# Metrics as sliced points

All points have the same measurement, and the metric is named by their fields. A data
point of a distribution becomes one point with its count and its sum and one more for
each bucket or quantile. The buckets end with one that holds every observation.
-/

namespace LineMetrics
namespace Sliced

/-- A point without fields. -/
def bare
    (placement : Placement)
    (attributes : List Attribute)
    (time : UInt64)
    (hint : TypeHint) : Point where
  measurement := ReservedName.prometheus
  tags := placement.tags attributes
  time := time
  hint := hint

/-- The point of a data point with one number. -/
def numberPoint
    (placement : Placement)
    (metric : String)
    (hint : TypeHint)
    (point : NumberPoint) : Except Error Point := do
  let value <- point.requireValue metric
  .ok <| (bare placement point.attributes point.time hint).withField metric (.ofNumber value)

/-- The points of a sum, which must be cumulative and monotonic. -/
def sumPoints
    (placement : Placement)
    (metric : String)
    (points : List NumberPoint)
    (code : Int)
    (monotonic : Bool) : Except Error (List Point) := do
  Temporality.requireCumulative metric code
  if !monotonic then .error (.nonMonotonicSum metric)
  else points.mapM (numberPoint placement metric .sum)

/-- The point with the count and the sum of a distribution. -/
def totalPoint (point : Point) (metric : String) (count : UInt64) (sum : Binary64) : Point :=
  (point.withField (metric ++ ReservedName.countEnding) (.float (.ofNat count.toNat))).withField
    (metric ++ ReservedName.sumEnding) (.float sum)

/-- The point with the running total of a bucket. -/
def bucketPoint (point : Point) (metric : String) (bound : String) (total : UInt64) : Point :=
  (point.withTag ReservedName.bucketBound bound).withField
    (metric ++ ReservedName.bucketEnding) (.float (.ofNat total.toNat))

/-- The point with the value of a quantile. -/
def quantilePoint (point : Point) (metric : String) (quantile : Quantile) : Point :=
  (point.withTag ReservedName.quantile quantile.quantile.keyText).withField
    metric (.float quantile.value)

/-- The points of a data point of a histogram. -/
def histogramPoints (placement : Placement) (metric : String) (point : HistogramPoint) :
    Except Error (List Point) := do
  let totals <- point.totals metric
  let bare := bare placement point.attributes point.time .histogram
  let buckets := (point.bounds.zip totals).map fun (bound, total) =>
    bucketPoint bare metric bound.keyText total
  let last := bucketPoint bare metric ReservedName.infiniteBound point.count
  .ok <| totalPoint bare metric point.count (point.sum.getD .zero) ::
    if point.counts.isEmpty then [] else buckets ++ [last]

/-- The points of a data point of a summary. -/
def summaryPoints (placement : Placement) (metric : String) (point : SummaryPoint) :
    List Point :=
  let bare := bare placement point.attributes point.time .summary
  totalPoint bare metric point.count point.sum ::
    point.quantiles.map (quantilePoint bare metric)

/-- The points of a metric with data. -/
def points (placement : Placement) (metric : String) :
    MetricData -> Except Error (List Point)
  | .gauge points => points.mapM (numberPoint placement metric .gauge)
  | .sum points temporality monotonic => sumPoints placement metric points temporality monotonic
  | .histogram points temporality => do
      Temporality.requireCumulative metric temporality
      let points <- points.mapM (histogramPoints placement metric)
      .ok points.flatten
  | .exponentialHistogram =>
      .error (.unsupportedMetricType metric "exponential histogram")
  | .summary points => .ok (points.flatMap (summaryPoints placement metric))

end Sliced
end LineMetrics
