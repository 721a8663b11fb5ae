import LineMetrics.Attribute
import LineMetrics.Number

/-!
# Metric trees

Metrics stand under the scope that measured them, and scopes under the resource that
was measured. A resource or a scope may be left unnamed. A metric holds data points
of one kind.
-/

namespace LineMetrics

/-- The name and version of the instrument that took measurements. -/
structure Scope where
  name : String
  version : String
  deriving DecidableEq, Inhabited

/-- A data point with one number. -/
structure NumberPoint where
  attributes : List Attribute := []
  start : UInt64 := 0
  time : UInt64 := 0
  value : Option Number := none
  deriving DecidableEq, Inhabited

/-- A data point with the counts of observations in buckets. Each bound closes a
bucket from above; one more count belongs to what lies above every bound. -/
structure HistogramPoint where
  attributes : List Attribute := []
  start : UInt64 := 0
  time : UInt64 := 0
  count : UInt64 := 0
  sum : Option Binary64 := none
  counts : List UInt64 := []
  bounds : List Binary64 := []
  deriving DecidableEq, Inhabited

/-- The value below which a given part of the observations lie. -/
structure Quantile where
  quantile : Binary64
  value : Binary64
  deriving DecidableEq, Inhabited

/-- A data point with quantiles of observations. -/
structure SummaryPoint where
  attributes : List Attribute := []
  start : UInt64 := 0
  time : UInt64 := 0
  count : UInt64 := 0
  sum : Binary64 := .zero
  quantiles : List Quantile := []
  deriving DecidableEq, Inhabited

/-- The data points of a metric. A temporality is kept as the number that stands for
it, which need not be one of the known ones. -/
inductive MetricData
  | gauge (points : List NumberPoint)
  | sum (points : List NumberPoint) (temporality : Int) (monotonic : Bool)
  | histogram (points : List HistogramPoint) (temporality : Int)
  | exponentialHistogram
  | summary (points : List SummaryPoint)
  deriving DecidableEq, Inhabited

/-- A metric; one without data is malformed. -/
structure Metric where
  name : String
  data : Option MetricData
  deriving DecidableEq, Inhabited

/-- The metrics of one scope. -/
structure ScopeMetrics where
  scope : Option Scope
  metrics : List Metric
  deriving DecidableEq, Inhabited

/-- The metrics of one resource, which is given by its attributes. -/
structure ResourceMetrics where
  resource : Option (List Attribute)
  scopes : List ScopeMetrics
  deriving DecidableEq, Inhabited

/-- The metrics of several resources. -/
abbrev MetricTree := List ResourceMetrics

end LineMetrics
