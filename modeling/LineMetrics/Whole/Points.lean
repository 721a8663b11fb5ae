import LineMetrics.Instant
import LineMetrics.Placement

/-!
# Metrics as whole points

Each data point becomes one point, named after the metric. A distribution becomes its
count, its sum, and one field for each bucket or quantile.
-/

namespace LineMetrics
namespace Whole

/-- A point without fields, named after the metric. -/
def bare
    (placement : Placement)
    (metric : String)
    (attributes : List Attribute)
    (time : UInt64)
    (hint : TypeHint) : Point where
  measurement := metric
  tags := placement.tags attributes
  time := time
  hint := hint

/-- The point of a data point of a gauge. -/
def gaugePoint (placement : Placement) (metric : String) (point : NumberPoint) :
    Except Error Point := do
  let value <- point.requireValue metric
  .ok <| (bare placement metric point.attributes point.time .gauge).withField
    ReservedName.gauge (.ofNumber value)

/-- Mark a point as a delta with its start time, unless it has none. -/
def markDelta (start : UInt64) (point : Point) : Point :=
  let marked := point.withTag ReservedName.temporality ReservedName.delta
  if start = 0 then marked
  else marked.withField ReservedName.startTime (.text (Instant.text start))

/-- The point of a data point of a counter. -/
def counterPoint
    (placement : Placement)
    (metric : String)
    (temporality : Temporality)
    (point : NumberPoint) : Except Error Point := do
  let value <- point.requireValue metric
  let counter := (bare placement metric point.attributes point.time .sum).withField
    ReservedName.counter (.ofNumber value)
  .ok <|
    match temporality with
    | .cumulative => counter
    | .delta => markDelta point.start counter

/-- The points of a sum, which must be monotonic and of a known temporality. -/
def sumPoints
    (placement : Placement)
    (metric : String)
    (points : List NumberPoint)
    (code : Int)
    (monotonic : Bool) : Except Error (List Point) :=
  if !monotonic then .error (.nonMonotonicSum metric)
  else
    match Temporality.ofCode? code with
    | some temporality => points.mapM (counterPoint placement metric temporality)
    | none => .error (.unsupportedTemporality metric code)

/-- Add a field for each part of a distribution, keyed by its number. -/
def withParts (point : Point) (parts : List (Binary64 × Binary64)) : Point :=
  parts.foldl (fun point part => point.withField part.1.keyText (.float part.2)) point

/-- A point with the count and the sum of a distribution and its parts. -/
def distributionPoint
    (point : Point)
    (count : UInt64)
    (sum : Binary64)
    (parts : List (Binary64 × Binary64)) : Point :=
  withParts
    ((point.withField ReservedName.count (.float (.ofNat count.toNat))).withField
      ReservedName.sum (.float sum))
    parts

/-- The point of a data point of a histogram. -/
def histogramPoint (placement : Placement) (metric : String) (point : HistogramPoint) :
    Except Error Point := do
  let totals <- point.totals metric
  .ok <| distributionPoint
    (bare placement metric point.attributes point.time .histogram)
    point.count (point.sum.getD .zero)
    (point.bounds.zip (totals.map fun total => .ofNat total.toNat))

/-- The point of a data point of a summary. -/
def summaryPoint (placement : Placement) (metric : String) (point : SummaryPoint) : Point :=
  distributionPoint
    (bare placement metric point.attributes point.time .summary)
    point.count point.sum
    (point.quantiles.map fun quantile => (quantile.quantile, quantile.value))

/-- The points of a metric with data. -/
def points (placement : Placement) (metric : String) :
    MetricData -> Except Error (List Point)
  | .gauge points => points.mapM (gaugePoint placement metric)
  | .sum points temporality monotonic => sumPoints placement metric points temporality monotonic
  | .histogram points temporality => do
      Temporality.requireCumulative metric temporality
      points.mapM (histogramPoint placement metric)
  | .exponentialHistogram =>
      .error (.unsupportedMetricType metric "exponential histogram")
  | .summary points => .ok (points.map (summaryPoint placement metric))

end Whole
end LineMetrics
