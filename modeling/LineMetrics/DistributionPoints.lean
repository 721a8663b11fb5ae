import LineMetrics.Export
import LineMetrics.KeyOrder

/-!
# Data points of distributions

Histograms and summaries side by side. Each of their data points stands in a tree under
the place and the name of its metric, and is told from the others of the metric by its
time and its attributes.
-/

namespace LineMetrics

/-- A data point of a distribution. -/
inductive DistributionPoint
  | histogram (point : HistogramPoint)
  | summary (point : SummaryPoint)
  deriving DecidableEq

namespace DistributionPoint

/-- The attributes of the data point. -/
def attributes : DistributionPoint -> List Attribute
  | .histogram point => point.attributes
  | .summary point => point.attributes

/-- The time of the data point. -/
def time : DistributionPoint -> UInt64
  | .histogram point => point.time
  | .summary point => point.time

/-- The number of observations. -/
def count : DistributionPoint -> UInt64
  | .histogram point => point.count
  | .summary point => point.count

/-- The sum of the observations, if there is one. -/
def sum? : DistributionPoint -> Option Binary64
  | .histogram point => point.sum
  | .summary point => some point.sum

/-- The places that split up the observations: the bounds of a histogram, or the quantiles
of a summary. -/
def places : DistributionPoint -> List Binary64
  | .histogram point => point.bounds
  | .summary point => point.quantiles.map Quantile.quantile

end DistributionPoint

/-- The data points of a histogram or a summary. -/
def MetricData.distributionPoints : MetricData -> List DistributionPoint
  | .histogram points _ => points.map .histogram
  | .summary points => points.map .summary
  | _ => []

/-- The data points of a summary belong to a summary. -/
theorem MetricData.exists_of_mem_summary
    {data : MetricData}
    {point : SummaryPoint}
    (member : .summary point ∈ data.distributionPoints) :
    ∃ points, data = .summary points ∧ point ∈ points := by
  cases data with
  | gauge points => cases member
  | sum points temporality monotonic => cases member
  | histogram points temporality =>
      obtain ⟨other, -, same⟩ := List.mem_map.mp member
      cases same
  | exponentialHistogram => cases member
  | summary points =>
      obtain ⟨other, otherMember, same⟩ := List.mem_map.mp member
      cases same
      exact ⟨points, rfl, otherMember⟩

namespace MetricTree

/-- The data points of the histograms and summaries in a tree, each with the place and the
name of its metric. -/
def placedDistributions (tree : MetricTree) :
    List (Placement × String × DistributionPoint) :=
  tree.placedMetrics.flatMap fun (placement, metric) =>
    (metric.data.elim [] MetricData.distributionPoints).map fun point =>
      (placement, metric.name, point)

/-- A data point stands under the place and the name of a metric that has it. -/
theorem mem_placedDistributions_iff
    {tree : MetricTree}
    {placement : Placement}
    {metric : String}
    {point : DistributionPoint} :
    (placement, metric, point) ∈ tree.placedDistributions ↔
      ∃ data, (placement, ⟨metric, some data⟩) ∈ tree.placedMetrics ∧
        point ∈ data.distributionPoints := by
  rw [placedDistributions, List.mem_flatMap]
  constructor
  · rintro ⟨⟨place, name, data⟩, member, inMetric⟩
    obtain ⟨other, otherMember, same⟩ := List.mem_map.mp inMetric
    cases same
    cases data with
    | none => cases otherMember
    | some data => exact ⟨data, member, otherMember⟩
  · rintro ⟨data, member, inData⟩
    exact ⟨_, member, List.mem_map_of_mem inData⟩

/-- The tree holds a data point for a series of the metric at a place. -/
structure HoldsSeries
    (tree : MetricTree)
    (placement : Placement)
    (metric : String)
    (series : Series)
    (point : DistributionPoint) : Prop where
  member : (placement, metric, point) ∈ tree.placedDistributions
  time : point.time = series.time
  attributes : point.attributes = Attribute.ofTags series.attributes

end MetricTree
end LineMetrics
