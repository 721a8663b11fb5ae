import LineMetrics.DistributionPoints
import LineMetrics.Proofs.AssembledMetrics
import LineMetrics.Proofs.TagRoundTrip

/-!
# The data points of series

In the tree of sliced points, a series of a metric has a data point exactly if it has an
accepted slice, and then it has one only. The slices of the series decide what it is, and
those of the other series of the metric only whether it belongs to a histogram or to a
summary.
-/

namespace LineMetrics

/-- Different resources and scopes are different places. -/
theorem Placement.eq_of_of
    {resource otherResource : Tags}
    {scope otherScope : Scope}
    (same : Placement.of resource scope = Placement.of otherResource otherScope) :
    resource = otherResource ∧ scope = otherScope :=
  ⟨Attribute.ofTags_injective (congrArg Placement.resource same),
    Option.some.inj (congrArg Placement.scope same)⟩

/-- Only a distribution has data points of one. -/
theorem MetricData.isDistribution_of_mem
    {data : MetricData}
    {point : DistributionPoint}
    (member : point ∈ data.distributionPoints) :
    data.isDistribution = true := by
  cases data with
  | gauge points => cases member
  | sum points temporality monotonic => cases member
  | histogram points temporality => rfl
  | exponentialHistogram => rfl
  | summary points => rfl

namespace LastSlices

/-- The slices of a series among those of its metric. -/
def slicesOf (series : Series) (parts : List SeriesSlice) : List Slice :=
  (parts.filter fun part => part.series = series).map SeriesSlice.slice

/-- The data point of a series from the slices of its metric: one of a summary if any of
these asks for it or is a quantile, and one of a histogram otherwise. -/
def point (series : Series) (parts : List SeriesSlice) : DistributionPoint :=
  if ∃ part ∈ parts, part.preferSummary ∨ part.slice.isQuantile then
    .summary (summaryPoint series (slicesOf series parts))
  else .histogram (histogramPoint series (slicesOf series parts))

@[simp] theorem time_point (series : Series) (parts : List SeriesSlice) :
    (point series parts).time = series.time := by
  rw [point]
  split <;> rfl

@[simp] theorem attributes_point (series : Series) (parts : List SeriesSlice) :
    (point series parts).attributes = Attribute.ofTags series.attributes := by
  rw [point]
  split <;> rfl

/-- The data of a metric have one data point for each series of its slices. -/
theorem mem_distributionPoints_data_iff
    {parts : List SeriesSlice}
    {distribution : DistributionPoint} :
    distribution ∈ (data parts).distributionPoints ↔
      ∃ series ∈ parts.map SeriesSlice.series, distribution = point series parts := by
  have inGroups (made : Series -> List Slice -> DistributionPoint) :
      distribution ∈ (groups SeriesSlice.series parts).map
          (fun group => made group.1 (group.2.map SeriesSlice.slice)) ↔
        ∃ series ∈ parts.map SeriesSlice.series,
          distribution = made series (slicesOf series parts) := by
    rw [List.mem_map]
    constructor
    · rintro ⟨group, member, rfl⟩
      obtain ⟨seriesMember, slices⟩ := mem_groups_iff.mp member
      exact ⟨group.1, seriesMember, by rw [slices, slicesOf]⟩
    · rintro ⟨series, member, rfl⟩
      exact ⟨(series, parts.filter fun part => part.series = series),
        mem_groups_iff.mpr ⟨member, rfl⟩, rfl⟩
  unfold data point
  dsimp only
  by_cases summary : ∃ part ∈ parts, part.preferSummary ∨ part.slice.isQuantile
  · simp only [if_pos summary, MetricData.distributionPoints, List.map_map]
    exact inGroups fun series slices => .summary (summaryPoint series slices)
  · simp only [if_neg summary, MetricData.distributionPoints, List.map_map]
    exact inGroups fun series slices => .histogram (histogramPoint series slices)

end LastSlices

namespace Batch

open Grouping

/-- The tree of sliced points holds a data point for a series exactly if an accepted point
states a slice of the series, and then it is the one of the last slices. -/
theorem holdsSeries_run_iff
    (arrivals : List Arrival)
    (resource : Tags)
    (scope : Scope)
    (metric : String)
    (series : Series)
    (point : DistributionPoint) :
    MetricTree.HoldsSeries ((empty .sliced).run arrivals).1.finish (.of resource scope)
        metric series point ↔
      series ∈ (acceptedParts arrivals resource scope metric).map SeriesSlice.series ∧
        point = LastSlices.point series (acceptedParts arrivals resource scope metric) := by
  constructor
  · rintro ⟨member, sameTime, sameAttributes⟩
    obtain ⟨data, inTree, inData⟩ := MetricTree.mem_placedDistributions_iff.mp member
    obtain ⟨otherResource, otherScope, samePlace, -, rfl⟩ :=
      exists_acceptedParts_of_mem inTree (MetricData.isDistribution_of_mem inData)
    obtain ⟨rfl, rfl⟩ := Placement.eq_of_of samePlace
    obtain ⟨other, otherMember, rfl⟩ := LastSlices.mem_distributionPoints_data_iff.mp inData
    obtain rfl : other = series := by
      obtain ⟨time, attributes⟩ := other
      rw [LastSlices.time_point] at sameTime
      rw [LastSlices.attributes_point] at sameAttributes
      obtain rfl : time = series.time := sameTime
      obtain rfl : attributes = series.attributes :=
        Attribute.ofTags_injective sameAttributes
      rfl
    exact ⟨otherMember, rfl⟩
  · rintro ⟨member, rfl⟩
    obtain ⟨part, partMember, -⟩ := List.mem_map.mp member
    have inTree := mem_of_acceptedParts_ne_nil (List.ne_nil_of_mem partMember)
    exact ⟨MetricTree.mem_placedDistributions_iff.mpr ⟨_, inTree,
      LastSlices.mem_distributionPoints_data_iff.mpr ⟨series, member, rfl⟩⟩,
      LastSlices.time_point series _, LastSlices.attributes_point series _⟩

end Batch
end LineMetrics
