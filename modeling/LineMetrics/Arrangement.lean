import LineMetrics.MetricTree
import LineMetrics.Binary64.Order
import LineMetrics.Sorting

/-!
# The arrangement of metric trees

A tree is arranged by sorting each of its lists: resources by their attributes,
scopes by name and version, metrics by name, data points by time and attributes,
quantiles and buckets by their numbers. Trees that differ only in the order in which
their parts were first seen can then be compared.
-/

namespace LineMetrics
namespace Arrangement

/-- A text does not come behind another one. -/
def textLE (left right : String) : Bool := left ≤ right

/-- A pair does not come behind another one; the second parts are compared where the
first ones are equal. -/
def pairLE
    [DecidableEq α]
    (firstLE : α -> α -> Bool)
    (secondLE : β -> β -> Bool)
    (left right : α × β) : Bool :=
  if left.1 = right.1 then secondLE left.2 right.2 else firstLE left.1 right.1

/-- The text of an attribute in a key. -/
def attributeText (entry : Attribute) : String :=
  entry.key ++ "=" ++ entry.value.tagText?.getD ""

/-- The text by which attributes are compared, in whatever order they are given. -/
def attributesKey (attributes : List Attribute) : String :=
  ",".intercalate (Sorting.sortOn textLE id (attributes.map attributeText))

/-- Data points by time, and by attributes at one time. -/
def pointsInOrder
    (time : α -> UInt64)
    (attributes : α -> List Attribute)
    (points : List α) : List α :=
  Sorting.sortOn (pairLE (fun left right => left ≤ right) textLE)
    (fun point => (time point, attributesKey (attributes point))) points

/-- The bounds of a data point, each with its count. -/
def bucketPairs (point : HistogramPoint) : List (Binary64 × UInt64) :=
  point.bounds.zip point.counts

/-- A data point with its buckets in ascending order, if it has a count for each
bound and at most one more, which stays last. Bounds that ascend are left alone. -/
def bucketsInOrder (point : HistogramPoint) : HistogramPoint :=
  let bounds := point.bounds.length
  if point.counts.length = bounds ∨ point.counts.length = bounds + 1 then
    if Sorting.neighborsInOrder Binary64.totalLE point.bounds then point
    else
      let pairs := Sorting.sortOn Binary64.totalLE Prod.fst (bucketPairs point)
      { point with
        bounds := pairs.map Prod.fst
        counts := pairs.map Prod.snd ++ point.counts.drop bounds }
  else point

/-- A data point with its quantiles in ascending order. -/
def quantilesInOrder (point : SummaryPoint) : SummaryPoint :=
  { point with
    quantiles := Sorting.sortOn Binary64.totalLE Quantile.quantile point.quantiles }

/-- The data of a metric, arranged. -/
def arrangeData : MetricData -> MetricData
  | .gauge points => .gauge (pointsInOrder NumberPoint.time NumberPoint.attributes points)
  | .sum points temporality monotonic =>
      .sum (pointsInOrder NumberPoint.time NumberPoint.attributes points) temporality monotonic
  | .histogram points temporality =>
      .histogram
        ((pointsInOrder HistogramPoint.time HistogramPoint.attributes points).map
          bucketsInOrder)
        temporality
  | .exponentialHistogram => .exponentialHistogram
  | .summary points =>
      .summary
        ((pointsInOrder SummaryPoint.time SummaryPoint.attributes points).map
          quantilesInOrder)

/-- A metric, arranged. -/
def arrangeMetric (metric : Metric) : Metric :=
  { metric with data := metric.data.map arrangeData }

/-- The name and version by which scopes are compared. -/
def scopeKey (metrics : ScopeMetrics) : String × String :=
  match metrics.scope with
  | some scope => (scope.name, scope.version)
  | none => ("", "")

/-- The metrics of a scope, arranged. -/
def arrangeScope (metrics : ScopeMetrics) : ScopeMetrics :=
  { metrics with
    metrics := (Sorting.sortOn textLE Metric.name metrics.metrics).map arrangeMetric }

/-- The text by which resources are compared. -/
def resourceKey (metrics : ResourceMetrics) : String :=
  attributesKey (metrics.resource.getD [])

/-- The metrics of a resource, arranged. -/
def arrangeResource (metrics : ResourceMetrics) : ResourceMetrics :=
  { metrics with
    scopes := (Sorting.sortOn (pairLE textLE textLE) scopeKey metrics.scopes).map
      arrangeScope }

end Arrangement

/-- A metric tree with all of its lists sorted. -/
def arrange (tree : MetricTree) : MetricTree :=
  (Sorting.sortOn Arrangement.textLE Arrangement.resourceKey tree).map
    Arrangement.arrangeResource

end LineMetrics
