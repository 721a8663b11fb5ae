import LineMetrics.Buckets
import LineMetrics.MetricTree
import Mathlib.Algebra.Ring.Nat

/-!
# Trees that sliced points can restore

Sliced points state a count as a binary64 number, always state the sum of a
distribution, and close the buckets of a histogram with its count. So a tree comes back
from its points only as far as its data points fit this form.
-/

namespace LineMetrics

/-- The sum of counts as a natural number. -/
def Buckets.sum (counts : List UInt64) : Nat := (counts.map UInt64.toNat).sum

/-- Sliced points can state the data point: it has a sum, as it has if its total was
stated, the counts of its buckets, if any, sum up to its count, and that is a binary64
number. -/
def HistogramPoint.isRestorable (point : HistogramPoint) : Bool :=
  point.sum.isSome &&
    (point.counts.isEmpty || Buckets.sum point.counts = point.count.toNat) &&
    point.count.toNat ≤ 2 ^ 53

/-- Sliced points can state the data point: its count is a binary64 number. -/
def SummaryPoint.isRestorable (point : SummaryPoint) : Bool := point.count.toNat ≤ 2 ^ 53

/-- Sliced points can state the data points. -/
def MetricData.isRestorable : MetricData -> Bool
  | .histogram points _ => points.all HistogramPoint.isRestorable
  | .summary points => points.all SummaryPoint.isRestorable
  | _ => true

/-- Sliced points can state the data points of the metric. -/
def Metric.isRestorable (metric : Metric) : Bool :=
  metric.data.all MetricData.isRestorable

/-- Sliced points can state the data points of the scope. -/
def ScopeMetrics.isRestorable (scope : ScopeMetrics) : Bool :=
  scope.metrics.all Metric.isRestorable

/-- Sliced points can state the data points of the resource. -/
def ResourceMetrics.isRestorable (resource : ResourceMetrics) : Bool :=
  resource.scopes.all ScopeMetrics.isRestorable

/-- Sliced points can state all data points of the tree. -/
def MetricTree.isRestorable (tree : MetricTree) : Bool :=
  tree.all ResourceMetrics.isRestorable

end LineMetrics
