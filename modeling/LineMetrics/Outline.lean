import LineMetrics.Export
import Mathlib.Data.List.Forall2

/-!
# Outlines of metrics

The outline of a metric is its name, the kind of its data, and the times and attributes
of its data points. Trees with the same resources and scopes can be compared metric by
metric, for instance by these outlines.
-/

namespace LineMetrics

/-- What the data points of a metric are. -/
inductive DataKind
  | gauge
  | sum (temporality : Int) (monotonic : Bool)
  | histogram (temporality : Int)
  | exponentialHistogram
  | summary
  deriving DecidableEq

namespace Attribute

/-- As a tag of a sliced point, the attribute would select a bucket or a quantile. -/
def isSelector (entry : Attribute) : Bool :=
  entry.key = ReservedName.bucketBound || entry.key = ReservedName.quantile

end Attribute

namespace MetricData

/-- What the data points are. -/
def kind : MetricData -> DataKind
  | .gauge _ => .gauge
  | .sum _ temporality monotonic => .sum temporality monotonic
  | .histogram _ temporality => .histogram temporality
  | .exponentialHistogram => .exponentialHistogram
  | .summary _ => .summary

/-- The time and the attributes of each data point. -/
def places : MetricData -> List (UInt64 × List Attribute)
  | .gauge points => points.map fun point => (point.time, point.attributes)
  | .sum points _ _ => points.map fun point => (point.time, point.attributes)
  | .histogram points _ => points.map fun point => (point.time, point.attributes)
  | .exponentialHistogram => []
  | .summary points => points.map fun point => (point.time, point.attributes)

/-- The data points are of a sum that restarts with every report. -/
def isDelta : MetricData -> Bool
  | .sum _ temporality _ => temporality = Temporality.delta.code
  | _ => false

/-- A data point of a distribution has an attribute that would select a slice of it. -/
def hasSelector : MetricData -> Bool
  | .histogram points _ => points.any fun point => point.attributes.any Attribute.isSelector
  | .summary points => points.any fun point => point.attributes.any Attribute.isSelector
  | _ => false

/-- The data points are of one kind. If none of the first ones share their time and their
attributes, the second ones have the same times and attributes, in the same order. -/
structure SameOutline (first second : MetricData) : Prop where
  kind : second.kind = first.kind
  places : first.places.Nodup -> second.places = first.places

end MetricData

namespace Metric

/-- The metrics have one name and, unless both are malformed, data with one outline. -/
structure SameOutline (first second : Metric) : Prop where
  name : second.name = first.name
  data : Option.Rel MetricData.SameOutline first.data second.data

end Metric

/-- The scopes are the same, and their metrics are related one by one. -/
def ScopeMetrics.Related
    (related : Metric -> Metric -> Prop)
    (first second : ScopeMetrics) : Prop :=
  second.scope = first.scope ∧ List.Forall₂ related first.metrics second.metrics

/-- The resources are the same, and so are their scopes, but for metrics that are
related. -/
def ResourceMetrics.Related
    (related : Metric -> Metric -> Prop)
    (first second : ResourceMetrics) : Prop :=
  second.resource = first.resource ∧
    List.Forall₂ (ScopeMetrics.Related related) first.scopes second.scopes

namespace MetricTree

/-- The trees have the same resources and scopes, in the same order, and in these as many
metrics, related one by one. -/
def Related (related : Metric -> Metric -> Prop) (first second : MetricTree) : Prop :=
  List.Forall₂ (ResourceMetrics.Related related) first second

/-- Some metric of the tree has data that satisfy a condition. -/
def anyData (tree : MetricTree) (condition : MetricData -> Bool) : Bool :=
  tree.placedMetrics.any fun placed => placed.2.data.any condition

end MetricTree
end LineMetrics
