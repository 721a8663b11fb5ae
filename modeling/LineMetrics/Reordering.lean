import LineMetrics.Grouping
import Mathlib.Data.List.Forall2

/-!
# Points and trees up to order

Slices write slots of a data point. Slices for different slots can come in any order,
and then the trees of their observations differ at most in the order in which
resources, scopes, metrics and data points were first seen.
-/

namespace LineMetrics

namespace Slice

/-- The two slices are for the same bucket, for the same quantile, or both for the
total. -/
def sameSlot : Slice -> Slice -> Bool
  | .bucket left _, .bucket right _ => left.sameNumber right
  | .quantile left _, .quantile right _ => left.sameNumber right
  | .total .., .total .. => true
  | _, _ => false

end Slice

namespace Reading

/-- The two readings are slices for one slot of one data point. -/
def sameSlot : Reading -> Reading -> Bool
  | .slice _ leftSeries left, .slice _ rightSeries right =>
      leftSeries = rightSeries && left.sameSlot right
  | _, _ => false

end Reading

namespace Observation

/-- The two observations write one slot of one data point of one metric. -/
def sameSlot (left right : Observation) : Bool :=
  Grouping.sameMetric left right && left.reading.sameSlot right.reading

end Observation

/-- The elements of two lists correspond one to one, in some order. -/
def CorrespondUpToOrder (related : α -> β -> Prop) (left : List α) (right : List β) : Prop :=
  ∃ arranged, left.Perm arranged ∧ List.Forall₂ related arranged right

/-- The data are the same up to the order of data points. -/
def MetricData.SameUpToOrder : MetricData -> MetricData -> Prop
  | .gauge left, .gauge right => left.Perm right
  | .sum left leftTemporality leftMonotonic, .sum right rightTemporality rightMonotonic =>
      left.Perm right ∧ leftTemporality = rightTemporality ∧ leftMonotonic = rightMonotonic
  | .histogram left leftTemporality, .histogram right rightTemporality =>
      left.Perm right ∧ leftTemporality = rightTemporality
  | .exponentialHistogram, .exponentialHistogram => True
  | .summary left, .summary right => left.Perm right
  | _, _ => False

/-- The metrics are the same up to the order of data points. -/
def Metric.SameUpToOrder (left right : Metric) : Prop :=
  left.name = right.name ∧ Option.Rel MetricData.SameUpToOrder left.data right.data

/-- The scopes are the same up to the order of metrics and data points. -/
def ScopeMetrics.SameUpToOrder (left right : ScopeMetrics) : Prop :=
  left.scope = right.scope ∧
    CorrespondUpToOrder Metric.SameUpToOrder left.metrics right.metrics

/-- The resources are the same up to the order of scopes, metrics and data points. -/
def ResourceMetrics.SameUpToOrder (left right : ResourceMetrics) : Prop :=
  left.resource = right.resource ∧
    CorrespondUpToOrder ScopeMetrics.SameUpToOrder left.scopes right.scopes

/-- The trees are the same up to the order of resources, scopes, metrics and data
points. -/
def MetricTree.SameUpToOrder (left right : MetricTree) : Prop :=
  CorrespondUpToOrder ResourceMetrics.SameUpToOrder left right

end LineMetrics
