import LineMetrics.KeyOrder
import LineMetrics.MetricKind
import LineMetrics.TagLevels

/-!
# Observations

An observation is what a point says about one metric: where the metric stands, and a
reading of it. A reading is a data point, or a slice of one that has to be put
together from several points.
-/

namespace LineMetrics

/-- A part of a data point that is sliced over several points. -/
inductive Slice
  | bucket (bound : Binary64) (count : UInt64)
  | quantile (quantile value : Binary64)
  | total (count : UInt64) (sum : Binary64)
  deriving DecidableEq

/-- What a point says about the data points of a metric. A slice also says whether
its metric is meant to be a summary. -/
inductive Reading
  | gauge (point : NumberPoint)
  | sum (temporality : Temporality) (point : NumberPoint)
  | histogram (point : HistogramPoint)
  | summary (point : SummaryPoint)
  | slice (preferSummary : Bool) (series : Series) (slice : Slice)
  deriving DecidableEq

namespace Reading

/-- The kind of metric that a reading belongs to. -/
def kind : Reading -> MetricKind
  | .gauge _ => .gauge
  | .sum temporality _ => .sum temporality
  | .histogram _ => .whole .histogram
  | .summary _ => .whole .summary
  | .slice .. => .assembled

end Reading

/-- A reading and the metric that it is of. -/
structure Observation where
  resource : Tags
  scope : Scope
  metric : String
  reading : Reading
  deriving DecidableEq

namespace Observation

/-- A reading of the metric with a name, under the resource and scope of some tags. -/
def under (levels : TagLevels) (metric : String) (reading : Reading) : Observation :=
  ⟨levels.resource, levels.scope, metric, reading⟩

end Observation
end LineMetrics
