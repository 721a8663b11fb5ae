import LineMetrics.Proofs.Reassembling
import LineMetrics.Proofs.Regrouping

/-!
# Rewritten observations

A metric tree is written metric by metric, and its distributions data point by data
point. What is written are observations again: those of gauges and counters as they
came, and the slices that each data point of a distribution is cut into. Grouping them,
as they are read again, makes the tree as it is read again, and that is the same tree if
it can be restored.
-/

namespace LineMetrics
namespace Grouping

/-- Some slice asks for a summary, or is a quantile. -/
def makesSummary (parts : List SeriesSlice) : Bool :=
  parts.any fun part => part.preferSummary || part.slice.isQuantile

/-- The slices that the data point of a series is cut into. -/
def rewrittenSeries (summary : Bool) (group : Series × List SeriesSlice) :
    List SeriesSlice :=
  partsOf summary group.1 <|
    if summary then ((assemble group.2).toSummaryPoint group.1).slices
    else ((assemble group.2).toHistogramPoint group.1).slices

/-- The slices that the data points of a distribution are cut into. -/
def rewrittenParts (parts : List SeriesSlice) : List SeriesSlice :=
  (groups SeriesSlice.series parts).flatMap (rewrittenSeries (makesSummary parts))

/-- The readings that the data of a metric are written as. -/
def rewritten (kind : MetricKind) (readings : List Reading) : List Reading :=
  match kind with
  | .assembled =>
      (rewrittenParts (readings.filterMap Reading.slice?)).map SeriesSlice.toReading
  | _ => readings

/-- The observations that a metric is written as. -/
def rewrittenMetric
    (resource : Tags)
    (scope : Scope)
    (group : String × List Observation) : List Observation :=
  match group.2 with
  | [] => []
  | first :: _ =>
      (rewritten first.reading.kind (group.2.map Observation.reading)).map
        fun reading => ⟨resource, scope, group.1, reading⟩

/-- The observations that the metrics of a scope are written as. -/
def rewrittenScope (resource : Tags) (group : Scope × List Observation) :
    List Observation :=
  (groups Observation.metric group.2).flatMap (rewrittenMetric resource group.1)

/-- The observations that the metrics of a resource are written as. -/
def rewrittenResource (group : Tags × List Observation) : List Observation :=
  (groups Observation.scope group.2).flatMap (rewrittenScope group.1)

/-- The observations that the tree of observations is written as. -/
def rewrittenTree (observations : List Observation) : List Observation :=
  (groups Observation.resource observations).flatMap rewrittenResource

/-- The data of slices is a summary or a histogram with a data point for each series. -/
theorem assembledData_eq (parts : List SeriesSlice) :
    assembledData parts =
      if makesSummary parts then
        .summary <| (groups SeriesSlice.series parts).map fun group =>
          (assemble group.2).toSummaryPoint group.1
      else
        .histogram
          ((groups SeriesSlice.series parts).map fun group =>
            (assemble group.2).toHistogramPoint group.1)
          Temporality.cumulative.code := rfl

/-- A data point is cut into one slice at least, the one with its count and sum. -/
theorem exists_total_mem_rewrittenSeries
    (summary : Bool)
    (group : Series × List SeriesSlice) :
    ∃ count sum, ⟨summary, group.1, .total count sum⟩ ∈ rewrittenSeries summary group := by
  cases summary <;> exact ⟨_, _, List.mem_cons_self⟩

/-- The slices of a data point are of its series, and ask for a summary if it is one. -/
theorem of_mem_rewrittenSeries
    {summary : Bool}
    {group : Series × List SeriesSlice}
    {part : SeriesSlice}
    (member : part ∈ rewrittenSeries summary group) :
    part.series = group.1 ∧ part.preferSummary = summary := by
  obtain ⟨slice, -, rfl⟩ := List.mem_map.mp member
  exact ⟨rfl, rfl⟩

/-- The slices that data points are cut into have the same series, also as they are read
again. -/
theorem groups_rewrittenParts (parts : List SeriesSlice) :
    groups SeriesSlice.series ((rewrittenParts parts).map SeriesSlice.restated) =
      (groups SeriesSlice.series parts).map fun group =>
        (group.1, (rewrittenSeries (makesSummary parts) group).map SeriesSlice.restated) := by
  rw [rewrittenParts, List.map_flatMap]
  refine groups_rewritten SeriesSlice.series _ parts ?_ ?_
  · intro group _
    obtain ⟨count, sum, member⟩ := exists_total_mem_rewrittenSeries (makesSummary parts) group
    exact List.ne_nil_of_mem (List.mem_map_of_mem member)
  · intro group _ part member
    obtain ⟨original, originalMember, rfl⟩ := List.mem_map.mp member
    exact (of_mem_rewrittenSeries originalMember).1

/-- A data point of a histogram has no slice that is a quantile. -/
theorem isQuantile_of_mem_histogram_slices
    {point : HistogramPoint}
    {slice : Slice}
    (member : slice ∈ point.slices) :
    slice.isQuantile = false := by
  rcases HistogramPoint.mem_slices_iff.mp member with rfl | ⟨-, ⟨bucket, -, rfl⟩ | rfl⟩
  · rfl
  · rfl
  · rfl

/-- The slices that data points are cut into make a summary exactly if those did that the
data points were made of. -/
theorem makesSummary_rewrittenParts (parts : List SeriesSlice) :
    makesSummary (rewrittenParts parts) = makesSummary parts := by
  cases summary : makesSummary parts with
  | true =>
      obtain ⟨part, member, -⟩ := List.any_eq_true.mp summary
      obtain ⟨group, groupMember, -⟩ := exists_mem_groups SeriesSlice.series member
      obtain ⟨count, sum, totalMember⟩ := exists_total_mem_rewrittenSeries true group
      rw [<- summary] at totalMember
      have rewrittenMember := List.mem_flatMap.mpr ⟨group, groupMember, totalMember⟩
      exact List.any_eq_true.mpr ⟨_, rewrittenMember, by rw [summary]; rfl⟩
  | false =>
      rw [makesSummary, List.any_eq_false]
      intro part member
      obtain ⟨group, -, inGroup⟩ := List.mem_flatMap.mp member
      rw [summary] at inGroup
      obtain ⟨slice, sliceMember, rfl⟩ := List.mem_map.mp inGroup
      rw [if_neg Bool.false_ne_true] at sliceMember
      simp [isQuantile_of_mem_histogram_slices sliceMember]

/-- Slices that are read again ask for a summary if they did so first. -/
@[simp] theorem makesSummary_restated (parts : List SeriesSlice) :
    makesSummary (parts.map SeriesSlice.restated) = makesSummary parts := by
  simp [makesSummary, List.any_map, Function.comp_def, SeriesSlice.restated]

/-- What is read again of slices of one series are slices of it. -/
theorem partsOf_restated (preferSummary : Bool) (series : Series) (slices : List Slice) :
    (partsOf preferSummary series slices).map SeriesSlice.restated =
      partsOf preferSummary series (slices.map Slice.restated) := by
  rw [partsOf, partsOf, List.map_map, List.map_map]
  rfl

/-- The slices that data points are cut into make, as they are read again, the data as they
are read again. -/
theorem assembledData_rewrittenParts
    {metric : String}
    {parts : List SeriesSlice}
    (readable : ∀ part ∈ parts, part.slice.IsReadable metric) :
    assembledData ((rewrittenParts parts).map SeriesSlice.restated) =
      (assembledData parts).restated := by
  have placed (group : Series × List SeriesSlice)
      (member : group ∈ groups SeriesSlice.series parts) :
      (assemble group.2).Placed metric :=
    placed_assemble fun part inGroup =>
      readable part (of_mem_of_mem_groups member inGroup).1
  rw [assembledData_eq, assembledData_eq, makesSummary_restated, makesSummary_rewrittenParts,
    groups_rewrittenParts, List.map_map, List.map_map]
  cases summary : makesSummary parts with
  | true =>
      rw [if_pos rfl, if_pos rfl, MetricData.restated, List.map_map]
      congr 1
      apply List.map_congr_left
      intro group member
      dsimp only [Function.comp_apply]
      rw [rewrittenSeries, partsOf_restated, if_pos rfl]
      exact toSummaryPoint_assemble_slices true group.1
        ((placed group member).orderedQuantiles group.1)
  | false =>
      rw [if_neg Bool.false_ne_true, if_neg Bool.false_ne_true, MetricData.restated,
        List.map_map]
      congr 1
      apply List.map_congr_left
      intro group member
      dsimp only [Function.comp_apply]
      rw [rewrittenSeries, partsOf_restated, if_neg Bool.false_ne_true]
      exact toHistogramPoint_assemble_slices false group.1
        ((placed group member).wellFormed group.1)

/-- Readings are written as readings of their kind. -/
theorem kind_of_mem_rewritten
    {kind : MetricKind}
    {readings : List Reading}
    {reading : Reading}
    (sameKind : ∀ other ∈ readings, other.kind = kind)
    (member : reading ∈ rewritten kind readings) :
    reading.kind = kind := by
  cases kind with
  | assembled =>
      obtain ⟨part, -, rfl⟩ := List.mem_map.mp member
      rfl
  | gauge => exact sameKind reading member
  | sum temporality => exact sameKind reading member
  | whole distribution => exact sameKind reading member

/-- A slice is found in the reading that it is. -/
theorem exists_slice?_of_kind
    {reading : Reading}
    (assembled : reading.kind = .assembled) :
    ∃ part, reading.slice? = some part := by
  cases reading with
  | slice preferSummary series slice => exact ⟨_, rfl⟩
  | gauge point => cases assembled
  | sum temporality point => cases assembled
  | histogram point => cases assembled
  | summary point => cases assembled

/-- Some readings are written as some readings. -/
theorem rewritten_ne_nil
    {kind : MetricKind}
    {readings : List Reading}
    (nonempty : readings ≠ [])
    (sameKind : ∀ reading ∈ readings, reading.kind = kind) :
    rewritten kind readings ≠ [] := by
  cases kind with
  | assembled =>
      obtain ⟨reading, member⟩ := List.exists_mem_of_ne_nil readings nonempty
      obtain ⟨part, found⟩ := exists_slice?_of_kind (sameKind reading member)
      have partMember := List.mem_filterMap.mpr ⟨reading, member, found⟩
      obtain ⟨group, groupMember, -⟩ := exists_mem_groups SeriesSlice.series partMember
      obtain ⟨count, sum, totalMember⟩ := exists_total_mem_rewrittenSeries
        (makesSummary (readings.filterMap Reading.slice?)) group
      have written := List.mem_flatMap.mpr ⟨group, groupMember, totalMember⟩
      exact List.ne_nil_of_mem (List.mem_map_of_mem written)
  | gauge => exact nonempty
  | sum temporality => exact nonempty
  | whole distribution => exact nonempty

/-- Among readings that sliced points can hold, there are no whole distributions, and
slices are readable. -/
theorem of_reads
    {metric : String}
    {readings : List Reading}
    (reads : ∀ reading ∈ readings, Sliced.Reads metric reading) :
    readings.filterMap Reading.histogram? = [] ∧ readings.filterMap Reading.summary? = [] ∧
      ∀ part ∈ readings.filterMap Reading.slice?, part.slice.IsReadable metric := by
  refine ⟨?_, ?_, ?_⟩
  · rw [List.filterMap_eq_nil_iff]
    intro reading member
    cases reads reading member <;> rfl
  · rw [List.filterMap_eq_nil_iff]
    intro reading member
    cases reads reading member <;> rfl
  · intro part member
    obtain ⟨reading, readingMember, found⟩ := List.mem_filterMap.mp member
    cases reads reading readingMember with
    | gauge => cases found
    | sum => cases found
    | slice preferSummary series slice timed attributes readable =>
        cases found
        exact readable

/-- What the data points of readings that sliced points can hold are written as makes, as
it is read again, the data as they are read again. -/
theorem dataOf_rewritten
    {metric : String}
    {readings : List Reading}
    (kind : MetricKind)
    (reads : ∀ reading ∈ readings, Sliced.Reads metric reading) :
    dataOf kind ((rewritten kind readings).map Reading.restated) =
      (dataOf kind readings).restated := by
  obtain ⟨noHistogram, noSummary, readable⟩ := of_reads reads
  cases kind with
  | assembled =>
      rw [rewritten, dataOf, dataOf, Reading.map_restated_toReading,
        Reading.filterMap_slice?_toReading, assembledData_rewrittenParts readable]
  | gauge =>
      simp only [rewritten, dataOf, List.filterMap_map, Function.comp_def,
        Reading.number?_restated]
      rfl
  | sum temporality =>
      simp only [rewritten, dataOf, List.filterMap_map, Function.comp_def,
        Reading.number?_restated]
      rfl
  | whole distribution =>
      cases distribution with
      | histogram =>
          simp only [rewritten, dataOf, List.filterMap_map, Function.comp_def,
            Reading.histogram?_restated, noHistogram]
          rfl
      | summary =>
          simp only [rewritten, dataOf, List.filterMap_map, Function.comp_def,
            Reading.summary?_restated, noSummary]
          rfl

/-- Consistent observations that sliced points can hold. -/
structure Rewritable (observations : List Observation) : Prop where
  consistent : Consistent observations
  admissible : ∀ observation ∈ observations, Sliced.Admissible observation

/-- The observations of a metric are written as observations of it, of their kind. -/
theorem writtenAs_rewrittenMetric
    {resource : Tags}
    {scope : Scope}
    {name : String}
    {members : List Observation}
    (ofMetric : OfMetric resource scope name members)
    (consistent : Consistent members) :
    WrittenAs id members (rewrittenMetric resource scope (name, members)) := by
  cases members with
  | nil => exact ⟨id, fun _ member => absurd member List.not_mem_nil⟩
  | cons first rest =>
      have sameKind (reading : Reading)
          (member : reading ∈ (first :: rest).map Observation.reading) :
          reading.kind = first.reading.kind := by
        obtain ⟨original, originalMember, rfl⟩ := List.mem_map.mp member
        exact ofMetric.kind_eq consistent original originalMember first List.mem_cons_self
      constructor
      · intro _
        rw [rewrittenMetric]
        dsimp only
        rw [Ne, List.map_eq_nil_iff]
        exact rewritten_ne_nil (List.cons_ne_nil _ _) sameKind
      · intro observation member
        obtain ⟨reading, readingMember, rfl⟩ := List.mem_map.mp member
        obtain ⟨sameResource, sameScope, sameName⟩ := ofMetric first List.mem_cons_self
        exact ⟨first, List.mem_cons_self, sameResource, sameScope, sameName,
          (kind_of_mem_rewritten sameKind readingMember).symm⟩

/-- What resembles observations resembles them as it is read again. -/
theorem WrittenAs.restated
    {become : MetricKind -> MetricKind}
    {originals written : List Observation}
    (writtenAs : WrittenAs become originals written) :
    WrittenAs become originals (written.map Observation.restated) := by
  constructor
  · intro nonempty none
    exact writtenAs.nonempty nonempty (List.map_eq_nil_iff.mp none)
  · intro observation member
    obtain ⟨first, firstMember, rfl⟩ := List.mem_map.mp member
    obtain ⟨original, originalMember, resembles⟩ := writtenAs.resembles first firstMember
    exact ⟨original, originalMember, resembles.resource, resembles.scope, resembles.metric,
      resembles.kind.trans (Reading.kind_restated _).symm⟩

/-- The observations that a metric is written as make, as they are read again, the metric
as it is read again. -/
theorem Rewritable.metricOf_rewritten
    {resource : Tags}
    {scope : Scope}
    {name : String}
    {members : List Observation}
    (rewritable : Rewritable members)
    (ofMetric : OfMetric resource scope name members) :
    metricOf name ((rewrittenMetric resource scope (name, members)).map Observation.restated) =
      (metricOf name members).restated := by
  cases members with
  | nil => rfl
  | cons first rest =>
      have reads (reading : Reading)
          (member : reading ∈ (first :: rest).map Observation.reading) :
          Sliced.Reads name reading := by
        obtain ⟨original, originalMember, rfl⟩ := List.mem_map.mp member
        have named : original.metric = name := (ofMetric original originalMember).2.2
        exact named ▸ (rewritable.admissible original originalMember).reading
      have data := dataOf_rewritten first.reading.kind reads
      have writtenAs := (writtenAs_rewrittenMetric ofMetric rewritable.consistent).restated
      have readings :
          ((rewrittenMetric resource scope (name, first :: rest)).map
              Observation.restated).map Observation.reading =
            (rewritten first.reading.kind
              ((first :: rest).map Observation.reading)).map Reading.restated := by
        rw [rewrittenMetric, List.map_map, List.map_map]
        rfl
      generalize (rewrittenMetric resource scope (name, first :: rest)).map
        Observation.restated = written at writtenAs readings
      obtain ⟨head, others, rfl⟩ :=
        List.exists_cons_of_ne_nil (writtenAs.nonempty (List.cons_ne_nil _ _))
      obtain ⟨original, originalMember, resembles⟩ := writtenAs.resembles head (.head _)
      have headKind : head.reading.kind = first.reading.kind :=
        resembles.kind.symm.trans
          (ofMetric.kind_eq rewritable.consistent original originalMember first
            List.mem_cons_self)
      rw [metricOf, metricOf, readings, List.head?_cons, List.head?_cons,
        Option.map_some, Option.map_some, headKind, data]
      rfl

/-- What a tree is written as, metric by metric. -/
theorem rewrittenTree_eq (observations : List Observation) :
    rewrittenTree observations =
      (metricGroups observations).flatMap fun group =>
        rewrittenMetric group.resource group.scope (group.name, group.members) :=
  (flatMap_rewrite
    (fun group => rewrittenMetric group.resource group.scope (group.name, group.members))
    observations).symm

/-- The groups of rewritable observations, metric by metric, are rewritable. -/
theorem Rewritable.metricGroup
    {observations : List Observation}
    {group : MetricGroup}
    (rewritable : Rewritable observations)
    (member : group ∈ metricGroups observations) :
    Rewritable group.members :=
  ⟨rewritable.consistent.subset fun _ inGroup => mem_of_mem_metricGroups member inGroup,
    fun observation inGroup =>
      rewritable.admissible observation (mem_of_mem_metricGroups member inGroup)⟩

/-- The resource of a metric has the keys of resources. -/
theorem Rewritable.separated
    {observations : List Observation}
    {group : MetricGroup}
    (rewritable : Rewritable observations)
    (member : group ∈ metricGroups observations) :
    ∀ key, group.resource.contains key -> TagLevels.isResourceLevel key :=
  isResourceLevel_of_mem_metricGroups
    (fun observation inTree => (rewritable.admissible observation inTree).resource) member

/-- The metrics of a tree are written one by one. -/
theorem Rewritable.writtenAs
    {observations : List Observation}
    (rewritable : Rewritable observations) :
    ∀ group ∈ metricGroups observations,
      WrittenAs id group.members
        (rewrittenMetric group.resource group.scope (group.name, group.members)) :=
  fun _ member => writtenAs_rewrittenMetric (ofMetric_of_mem_metricGroups member)
    (rewritable.metricGroup member).consistent

/-- What a tree is written as is consistent. -/
theorem Rewritable.consistent_rewrittenTree
    {observations : List Observation}
    (rewritable : Rewritable observations) :
    Consistent (rewrittenTree observations) := by
  rw [rewrittenTree_eq]
  exact (writtenAs_rewrite rewritable.writtenAs).consistent rewritable.consistent

/-- What a tree is written as, as it is read again, metric by metric. -/
theorem restated_rewrittenTree_eq (observations : List Observation) :
    (rewrittenTree observations).map Observation.restated =
      (metricGroups observations).flatMap fun group =>
        (rewrittenMetric group.resource group.scope (group.name, group.members)).map
          Observation.restated := by
  rw [rewrittenTree_eq, List.map_flatMap]

/-- What a tree is written as is consistent as it is read again. -/
theorem Rewritable.consistent_restated
    {observations : List Observation}
    (rewritable : Rewritable observations) :
    Consistent ((rewrittenTree observations).map Observation.restated) := by
  rw [restated_rewrittenTree_eq]
  exact (writtenAs_rewrite fun group member =>
    (rewritable.writtenAs group member).restated).consistent rewritable.consistent

/-- The observations that a tree is written as make, as they are read again, the tree with
its metrics as they are read again. -/
theorem Rewritable.tree_restated
    {observations : List Observation}
    (rewritable : Rewritable observations) :
    tree ((rewrittenTree observations).map Observation.restated) =
      (tree observations).mapMetrics Metric.restated := by
  rw [restated_rewrittenTree_eq]
  exact tree_rewrite Metric.restated rewritable.consistent
    (fun group member => (rewritable.writtenAs group member).restated)
    fun group member => (rewritable.metricGroup member).metricOf_rewritten
      (ofMetric_of_mem_metricGroups member)

/-- The metrics of a tree that sliced points can restore can be restored. -/
theorem isRestorable_of_mem_metricGroups
    {observations : List Observation}
    {group : MetricGroup}
    (consistent : Consistent observations)
    (restorable : (tree observations).isRestorable = true)
    (member : group ∈ metricGroups observations) :
    group.metric.isRestorable = true := by
  have placed := mem_placedMetrics_of_mem_metricGroups consistent member
  obtain ⟨resource, resourceMember, inResource⟩ := List.mem_flatMap.mp placed
  obtain ⟨scope, scopeMember, inScope⟩ := List.mem_flatMap.mp inResource
  obtain ⟨metric, metricMember, same⟩ := List.mem_map.mp inScope
  obtain rfl : metric = group.metric := congrArg Prod.snd same
  rw [MetricTree.isRestorable, List.all_eq_true] at restorable
  have resourceRestorable := restorable resource resourceMember
  rw [ResourceMetrics.isRestorable, List.all_eq_true] at resourceRestorable
  have scopeRestorable := resourceRestorable scope scopeMember
  rw [ScopeMetrics.isRestorable, List.all_eq_true] at scopeRestorable
  exact scopeRestorable _ metricMember

end Grouping
end LineMetrics
