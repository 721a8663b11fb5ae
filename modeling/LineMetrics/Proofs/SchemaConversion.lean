import LineMetrics.Proofs.SecondExport
import LineMetrics.Proofs.SlicedConversion

/-!
# From whole points to sliced points

A tree of whole points without deltas is written as sliced points metric by metric. If no
attribute of a distribution would select a slice, a batch accepts all of these points, and
finishes as a tree with the same metrics of the same kinds. Otherwise it refuses a point.
-/

namespace LineMetrics

/-- Elements with different keys that are each rewritten to some elements of its key have
these keys. -/
theorem eraseDups_map_flatMap
    {α β κ : Type}
    [DecidableEq κ]
    {key : β -> κ}
    {keyOf : α -> κ}
    {rewrite : α -> List β}
    {elements : List α}
    (nonempty : ∀ element ∈ elements, rewrite element ≠ [])
    (keyed : ∀ element ∈ elements, ∀ written ∈ rewrite element, key written = keyOf element)
    (distinct : (elements.map keyOf).Nodup) :
    ((elements.flatMap rewrite).map key).eraseDups = elements.map keyOf := by
  have rows :
      elements.flatMap rewrite =
        (elements.map fun element => (keyOf element, rewrite element)).flatMap Prod.snd := by
    rw [List.flatMap_map]
  have keys :
      (elements.map fun element => (keyOf element, rewrite element)).map Prod.fst =
        elements.map keyOf := List.map_map
  rw [<- keys_groups, rows, groups_flatMap (keys ▸ distinct) (List.forall_mem_map.mpr nonempty)
    (List.forall_mem_map.mpr keyed), keys]

namespace MetricData

/-- Data without the start times of running totals have the same outline. -/
theorem sameOutline_withoutRunningStarts (data : MetricData) :
    data.SameOutline data.withoutRunningStarts := by
  cases data with
  | gauge points => exact ⟨rfl, fun _ => rfl⟩
  | sum points temporality monotonic =>
      rw [withoutRunningStarts]
      split
      · exact ⟨rfl, fun _ => List.map_map⟩
      · exact ⟨rfl, fun _ => rfl⟩
  | histogram points temporality => exact ⟨rfl, fun _ => rfl⟩
  | exponentialHistogram => exact ⟨rfl, fun _ => rfl⟩
  | summary points => exact ⟨rfl, fun _ => rfl⟩

end MetricData

namespace Grouping

/-- Assembled data have a data point for each series. -/
theorem places_assembledData (parts : List SeriesSlice) :
    (assembledData parts).places =
      (parts.map SeriesSlice.series).eraseDups.map Series.place := by
  rw [<- keys_groups, assembledData_eq]
  split
  · rw [MetricData.places, List.map_map, List.map_map]
    rfl
  · rw [MetricData.places, List.map_map, List.map_map]
    rfl

/-- Assembled data are a summary or a cumulative histogram. -/
theorem kind_assembledData (parts : List SeriesSlice) :
    (assembledData parts).kind =
      if makesSummary parts then .summary else .histogram Temporality.cumulative.code := by
  rw [assembledData_eq]
  split <;> rfl

/-- The slices of data points that differ in time or attributes make data points at these
times and with these attributes. -/
theorem places_assembledData_flatMap
    {α : Type}
    {points : List α}
    {time : α -> UInt64}
    {attributes : α -> List Attribute}
    {cut : α -> List SeriesSlice}
    (areAttributes : ∀ point ∈ points, AreAttributes (attributes point))
    (nonempty : ∀ point ∈ points, cut point ≠ [])
    (ofSeries : ∀ point ∈ points, ∀ part ∈ cut point,
      part.series = .of (time point) (attributes point))
    (distinct : (points.map fun point => (time point, attributes point)).Nodup) :
    (assembledData (points.flatMap cut)).places =
      points.map fun point => (time point, attributes point) := by
  have placed :
      (points.map fun point => Series.of (time point) (attributes point)).map Series.place =
        points.map fun point => (time point, attributes point) := by
    rw [List.map_map]
    exact List.map_congr_left fun point member =>
      (areAttributes point member).place_series (time point)
  rw [<- placed] at distinct
  rw [places_assembledData, eraseDups_map_flatMap nonempty ofSeries (distinct.of_map _), placed]

/-- Histograms that are converted have the same outline. -/
theorem sameOutline_histograms
    {points : List HistogramPoint}
    (stated : ∀ point ∈ points, point.IsStated) :
    (MetricData.histogram points Temporality.cumulative.code).SameOutline
      (assembledData (points.flatMap HistogramPoint.cut)) := by
  constructor
  · have noSummary : makesSummary (points.flatMap HistogramPoint.cut) = false := by
      rw [makesSummary, List.any_eq_false]
      intro part member
      obtain ⟨point, -, inPoint⟩ := List.mem_flatMap.mp member
      obtain ⟨slice, sliceMember, rfl⟩ := List.mem_map.mp inPoint
      obtain ⟨original, originalMember, rfl⟩ := List.mem_map.mp sliceMember
      simp [isQuantile_of_mem_histogram_slices originalMember]
    rw [kind_assembledData, noSummary]
    rfl
  · refine places_assembledData_flatMap
      (fun point member => (stated point member).areAttributes)
      (fun _ _ => List.cons_ne_nil _ _) fun point _ part inPoint => ?_
    obtain ⟨slice, -, rfl⟩ := List.mem_map.mp inPoint
    rfl

/-- Summaries that are converted have the same outline. -/
theorem sameOutline_summaries
    {points : List SummaryPoint}
    (nonempty : points ≠ [])
    (stated : ∀ point ∈ points, point.IsStated) :
    (MetricData.summary points).SameOutline
      (assembledData (points.flatMap SummaryPoint.cut)) := by
  constructor
  · obtain ⟨point, member⟩ := List.exists_mem_of_ne_nil points nonempty
    have summary : makesSummary (points.flatMap SummaryPoint.cut) = true :=
      List.any_eq_true.mpr
        ⟨_, List.mem_flatMap.mpr ⟨point, member, List.mem_cons_self⟩, rfl⟩
    rw [kind_assembledData, summary]
    rfl
  · refine places_assembledData_flatMap
      (fun point member => (stated point member).areAttributes)
      (fun _ _ => List.cons_ne_nil _ _) fun point _ part inPoint => ?_
    obtain ⟨slice, -, rfl⟩ := List.mem_map.mp inPoint
    rfl

/-- The data of readings that whole points can hold, other than a delta, have the outline
of those that they are converted to. -/
theorem sameOutline_dataOf
    {kind : MetricKind}
    {readings : List Reading}
    (nonempty : readings ≠ [])
    (running : kind ≠ .sum .delta)
    (sameKind : ∀ reading ∈ readings, reading.kind = kind)
    (canSay : ∀ reading ∈ readings, Whole.CanSay reading) :
    (dataOf kind readings).SameOutline
      (dataOf kind.sliced (readings.flatMap Reading.converted)) := by
  have numbers (isNumber : kind = .gauge ∨ kind = .sum .cumulative) :
      (dataOf kind readings).SameOutline
        (dataOf kind (readings.flatMap Reading.converted)) := by
    rw [Reading.flatMap_converted fun reading member => (sameKind reading member) ▸ isNumber,
      dataOf_withoutRunningStart sameKind]
    exact MetricData.sameOutline_withoutRunningStarts _
  cases kind with
  | gauge => exact numbers (.inl rfl)
  | sum temporality =>
      cases temporality with
      | delta => exact absurd rfl running
      | cumulative => exact numbers (.inr rfl)
  | whole distribution =>
      cases distribution with
      | histogram =>
          obtain ⟨points, rfl, stated⟩ := Whole.exists_histograms sameKind canSay
          rw [Whole.dataOf_histograms, List.flatMap_map]
          change MetricData.SameOutline _ (assembledData ((points.flatMap fun point =>
            point.cut.map SeriesSlice.toReading).filterMap Reading.slice?))
          rw [<- List.map_flatMap, Reading.filterMap_slice?_toReading]
          exact sameOutline_histograms stated
      | summary =>
          obtain ⟨points, rfl, stated⟩ := Whole.exists_summaries sameKind canSay
          rw [Whole.dataOf_summaries, List.flatMap_map]
          change MetricData.SameOutline _ (assembledData ((points.flatMap fun point =>
            point.cut.map SeriesSlice.toReading).filterMap Reading.slice?))
          rw [<- List.map_flatMap, Reading.filterMap_slice?_toReading]
          exact sameOutline_summaries (fun none => nonempty (none ▸ rfl)) stated
  | assembled =>
      obtain ⟨first, member⟩ := List.exists_mem_of_ne_nil readings nonempty
      have isSlice := sameKind first member
      obtain ⟨time, -, reads⟩ := canSay first member
      cases reads <;> cases isSlice

end Grouping

/-- What sliced points say that are written for an observation of a whole point. -/
def Observation.converted (observation : Observation) : List Observation :=
  observation.reading.converted.map fun reading => { observation with reading }

namespace Grouping

variable {observations : List Observation} {group : MetricGroup} {kind : MetricKind}

/-- What is written for the observations of a metric is what is written for its readings. -/
theorem flatMap_converted
    {resource : Tags}
    {scope : Scope}
    {name : String}
    {members : List Observation}
    (ofMetric : OfMetric resource scope name members) :
    members.flatMap Observation.converted =
      ((members.map Observation.reading).flatMap Reading.converted).map fun reading =>
        ⟨resource, scope, name, reading⟩ := by
  rw [List.flatMap_map, List.map_flatMap]
  apply List.flatMap_congr
  intro observation member
  obtain ⟨rfl, rfl, rfl⟩ := ofMetric observation member
  rfl

/-- Observations are converted to observations of their metrics. -/
theorem writtenAs_converted (members : List Observation) :
    WrittenAs MetricKind.sliced members (members.flatMap Observation.converted) := by
  constructor
  · intro nonempty
    obtain ⟨original, member⟩ := List.exists_mem_of_ne_nil members nonempty
    obtain ⟨reading, converted⟩ := List.exists_mem_of_ne_nil _ original.reading.converted_ne_nil
    exact List.ne_nil_of_mem
      (List.mem_flatMap.mpr ⟨original, member, List.mem_map_of_mem converted⟩)
  · intro observation member
    obtain ⟨original, originalMember, inOriginal⟩ := List.mem_flatMap.mp member
    obtain ⟨reading, converted, rfl⟩ := List.mem_map.mp inOriginal
    exact ⟨original, originalMember, rfl, rfl, rfl, (Reading.kind_of_mem_converted converted).symm⟩

/-- What sliced points say that are written for a tree of whole points. -/
def convertedTree (observations : List Observation) : List Observation :=
  (metricGroups observations).flatMap fun group => group.members.flatMap Observation.converted

/-- Observations of whole points with a time that sliced points can say: their metrics have
names, and none of them is a delta. -/
structure Convertible (observations : List Observation) : Prop where
  held : HeldByWhole observations
  named : ∀ observation ∈ observations, observation.metric ≠ ""
  running : ∀ observation ∈ observations, observation.reading.kind ≠ .sum .delta

/-- A metric of whole points with a time that sliced points can say. -/
structure ConvertibleMetric (group : MetricGroup) (kind : MetricKind) : Prop where
  ofMetric : OfMetric group.resource group.scope group.name group.members
  nonempty : group.members ≠ []
  separated : ∀ key, group.resource.contains key -> TagLevels.isResourceLevel key
  named : group.name ≠ ""
  running : kind ≠ .sum .delta
  sameKind : ∀ observation ∈ group.members, observation.reading.kind = kind
  canSay : ∀ observation ∈ group.members, Whole.CanSay observation.reading
  data : group.metric.data = some (dataOf kind (group.members.map Observation.reading))

/-- The metrics of convertible observations are convertible. -/
theorem Convertible.metric
    (convertible : Convertible observations)
    (member : group ∈ metricGroups observations) :
    ∃ kind, ConvertibleMetric group kind := by
  obtain ⟨kind, sameKind, data⟩ :=
    exists_kind_of_mem_metricGroups convertible.held.consistent member
  have nonempty := (of_mem_metricGroups member).2
  obtain ⟨first, firstMember⟩ := List.exists_mem_of_ne_nil _ nonempty
  have ofMetric := ofMetric_of_mem_metricGroups member
  have inTree := mem_of_mem_metricGroups member firstMember
  refine ⟨kind, ofMetric, nonempty, convertible.held.separated member, ?_, ?_, sameKind, ?_, data⟩
  · rw [<- (ofMetric first firstMember).2.2]
    exact convertible.named first inTree
  · rw [<- sameKind first firstMember]
    exact convertible.running first inTree
  · intro observation inGroup
    obtain ⟨time, timed, admissible⟩ :=
      convertible.held.admissible observation (mem_of_mem_metricGroups member inGroup)
    exact ⟨time, timed, admissible.reading⟩

namespace ConvertibleMetric

/-- The points of a convertible metric say what its observations are converted to, unless an
attribute would select a slice. Then one of them is refused. -/
theorem exists_points (convertible : ConvertibleMetric group kind) :
    ∃ points,
      group.metric.points .sliced group.placement = .ok points ∧
        (group.metric.data.any MetricData.hasSelector = false ->
          List.Forall₂ Sliced.Says points (group.members.flatMap Observation.converted)) ∧
        (group.metric.data.any MetricData.hasSelector = true ->
          ∃ point ∈ points, Sliced.Refuses point) := by
  rw [Metric.points, convertible.data, flatMap_converted convertible.ofMetric]
  exact Whole.writesSliced_dataOf convertible.separated convertible.named
    (fun none => convertible.nonempty (List.map_eq_nil_iff.mp none)) convertible.running
    (List.forall_mem_map.mpr convertible.sameKind)
    (List.forall_mem_map.mpr convertible.canSay)

/-- What the observations of a convertible metric are converted to makes a metric with its
outline. -/
theorem sameOutline (convertible : ConvertibleMetric group kind) :
    group.metric.SameOutline
      (metricOf group.name (group.members.flatMap Observation.converted)) := by
  have outline := sameOutline_dataOf
    (fun none => convertible.nonempty (List.map_eq_nil_iff.mp none)) convertible.running
    (List.forall_mem_map.mpr convertible.sameKind)
    (List.forall_mem_map.mpr convertible.canSay)
  have writtenAs := writtenAs_converted group.members
  have readings :
      (group.members.flatMap Observation.converted).map Observation.reading =
        (group.members.map Observation.reading).flatMap Reading.converted := by
    rw [flatMap_converted convertible.ofMetric, List.map_map]
    exact List.map_id _
  refine ⟨rfl, ?_⟩
  rw [convertible.data, metricOf, readings]
  generalize group.members.flatMap Observation.converted = written at writtenAs
  obtain ⟨head, others, rfl⟩ :=
    List.exists_cons_of_ne_nil (writtenAs.nonempty convertible.nonempty)
  obtain ⟨original, originalMember, resembles⟩ := writtenAs.resembles head (.head _)
  have headKind : head.reading.kind = kind.sliced := by
    rw [<- resembles.kind, convertible.sameKind original originalMember]
  rw [List.head?_cons, Option.map_some, headKind]
  exact .some outline

end ConvertibleMetric

namespace Convertible

/-- What convertible observations are converted to is consistent. -/
theorem consistent_convertedTree (convertible : Convertible observations) :
    Consistent (convertedTree observations) :=
  (writtenAs_rewrite fun group _ => writtenAs_converted group.members).consistent
    convertible.held.consistent

/-- What convertible observations are converted to makes a tree with the same metrics, up to
the numbers in their data points. -/
theorem related_convertedTree (convertible : Convertible observations) :
    MetricTree.Related Metric.SameOutline (tree observations)
      (tree (convertedTree observations)) := by
  refine related_tree_rewrite convertible.held.consistent
    (fun group _ => writtenAs_converted group.members) fun group member => ?_
  obtain ⟨kind, metric⟩ := convertible.metric member
  exact metric.sameOutline

/-- The metrics of a convertible tree are those of its groups. -/
theorem exists_group
    (convertible : Convertible observations)
    {placed : Placement × Metric}
    (member : placed ∈ MetricTree.placedMetrics (tree observations)) :
    ∃ group ∈ metricGroups observations,
      placed = (group.placement, group.metric) ∧ ∃ kind, ConvertibleMetric group kind := by
  rw [placedMetrics_tree, convertible.held.consistent.accepted_eq] at member
  obtain ⟨group, groupMember, rfl⟩ := List.mem_map.mp member
  exact ⟨group, groupMember, rfl, convertible.metric groupMember⟩

/-- No metric of a convertible tree is dropped. -/
theorem unwritable_tree (convertible : Convertible observations) :
    MetricTree.unwritable .sliced (tree observations) = 0 := by
  refine MetricTree.unwritableOf_eq_zero fun placed member => ?_
  obtain ⟨group, -, rfl, kind, metric⟩ := convertible.exists_group member
  obtain ⟨points, converted, -⟩ := metric.exists_points
  exact ⟨points, converted⟩

/-- The points of a convertible tree say what it is converted to, if no attribute would
select a slice. -/
theorem says_points
    (convertible : Convertible observations)
    (noSelector : (tree observations).anyData MetricData.hasSelector = false) :
    List.Forall₂ (Batch.Says .sliced) (MetricTree.points .sliced (tree observations))
      (convertedTree observations) := by
  refine (Export.writes_tree convertible.held.consistent fun group member => ?_).says_points
  obtain ⟨kind, metric⟩ := convertible.metric member
  obtain ⟨points, converted, said, -⟩ := metric.exists_points
  rw [MetricTree.anyData, List.any_eq_false] at noSelector
  have here := noSelector _
    (mem_placedMetrics_of_mem_metricGroups convertible.held.consistent member)
  exact ⟨points, converted, (said (Bool.eq_false_iff.mpr here)).imp fun _ _ => And.right⟩

/-- A point of a convertible tree is refused if an attribute would select a slice. -/
theorem exists_refused
    (convertible : Convertible observations)
    (someSelector : (tree observations).anyData MetricData.hasSelector = true) :
    ∃ point ∈ MetricTree.points .sliced (tree observations), Sliced.Refuses point := by
  obtain ⟨placed, member, selects⟩ := List.any_eq_true.mp someSelector
  obtain ⟨group, -, rfl, kind, metric⟩ := convertible.exists_group member
  obtain ⟨points, converted, -, refused⟩ := metric.exists_points
  obtain ⟨point, pointMember, refuses⟩ := refused selects
  refine ⟨point, List.mem_flatMap.mpr ⟨_, member, ?_⟩, refuses⟩
  dsimp only
  rw [converted]
  exact pointMember

end Convertible

end Grouping

namespace Whole

/-- The numbers of a point with a measurement belong to metrics with names. -/
theorem name_ne_empty_of_mem_numbers
    {point : Point}
    {valueField : String}
    {result : List (String × Number)}
    {entry : String × Number}
    (named : point.measurement ≠ "")
    (read : numbers point valueField = .ok result)
    (member : entry ∈ result) :
    entry.1 ≠ "" := by
  rw [numbers] at read
  split at read
  · obtain ⟨number, -, made⟩ := exists_of_bind_eq_ok read
    cases made
    rw [List.mem_singleton.mp member]
    exact named
  · split at read
    · cases read
    · cases read
      obtain ⟨field, -, found⟩ := List.mem_filterMap.mp member
      rw [fieldNumber?] at found
      split at found
      · cases found
      · obtain ⟨number, -, rfl⟩ := Option.map_eq_some_iff.mp found
        intro empty
        have noCharacters := congrArg String.toList empty
        rw [String.toList_append, String.toList_append] at noCharacters
        have noMeasurement := (List.append_eq_nil_iff.mp noCharacters).1
        exact named (String.toList_inj.mp (List.append_eq_nil_iff.mp noMeasurement).1)

/-- The observations of a gauge or a counter with a measurement are of metrics with names. -/
theorem metric_ne_empty_of_mem_numberObservations
    {point : Point}
    {time start : UInt64}
    {valueField : String}
    {reading : NumberPoint -> Reading}
    {result : List Observation}
    {observation : Observation}
    (named : point.measurement ≠ "")
    (read : numberObservations point time valueField start reading = .ok result)
    (member : observation ∈ result) :
    observation.metric ≠ "" := by
  obtain ⟨entries, found, made⟩ := exists_of_bind_eq_ok read
  cases made
  obtain ⟨entry, entryMember, rfl⟩ := List.mem_map.mp member
  exact name_ne_empty_of_mem_numbers named found entryMember

/-- Whole points with a measurement say metrics with names. -/
theorem metric_ne_empty_of_mem_observations
    {now : UInt64}
    {point : Point}
    {result : List Observation}
    {observation : Observation}
    (named : point.measurement ≠ "")
    (read : observations now point = .ok result)
    (member : observation ∈ result) :
    observation.metric ≠ "" := by
  rw [observations] at read
  split at read
  · exact metric_ne_empty_of_mem_numberObservations named read member
  · exact metric_ne_empty_of_mem_numberObservations named read member
  · refine metric_ne_empty_of_mem_numberObservations ?_ read member
    exact named
  · obtain ⟨said, histogram, rfl⟩ := exists_of_map_eq_ok read
    obtain ⟨count, sum, buckets, -, -, rfl⟩ := histogramObservation_eq_ok_iff.mp histogram
    rw [List.mem_singleton.mp member]
    exact named
  · obtain ⟨said, summary, rfl⟩ := exists_of_map_eq_ok read
    obtain ⟨count, sum, quantiles, -, rfl⟩ := summaryObservation_eq_ok_iff.mp summary
    rw [List.mem_singleton.mp member]
    exact named

end Whole

namespace Batch

open Grouping

/-- What whole points with measurements and times say is convertible, if their tree holds no
delta. -/
theorem convertible_accepted
    {arrivals : List Arrival}
    (named : ∀ arrival ∈ arrivals, arrival.point.measurement ≠ "")
    (timed : ∀ arrival ∈ arrivals, arrival.point.time ≠ 0)
    (noDelta : (tree (Grouping.observations .whole arrivals)).anyData MetricData.isDelta =
      false) :
    Convertible (accepted (Grouping.observations .whole arrivals)) := by
  have held := heldByWhole_accepted timed
  refine ⟨held, fun observation member => ?_, fun observation member isDelta => ?_⟩
  · obtain ⟨arrival, arrivalMember, result, read, said⟩ :=
      Grouping.exists_of_mem_observations (List.mem_filter.mp member).1
    exact Whole.metric_ne_empty_of_mem_observations (named arrival arrivalMember) read said
  · obtain ⟨group, groupMember, inGroup⟩ := exists_mem_metricGroups member
    obtain ⟨kind, sameKind, data⟩ :=
      exists_kind_of_mem_metricGroups held.consistent groupMember
    obtain rfl := (sameKind observation inGroup).symm.trans isDelta
    rw [<- tree_accepted, MetricTree.anyData, List.any_eq_false] at noDelta
    refine noDelta _ (mem_placedMetrics_of_mem_metricGroups held.consistent groupMember) ?_
    dsimp only
    rw [data]
    rfl

/-- The tree of whole points with measurements and times, if it holds no delta, is written
as sliced points without dropping a metric. A batch accepts all of these points exactly if
no attribute of a distribution would select a slice. Then it finishes as a tree with the
same resources, scopes and metrics. Each metric is of the same kind, and, if its data points
differ in time or attributes, has as many, with the same times and attributes. -/
theorem run_sliced_writeTree_run_whole_iff
    (arrivals : List Arrival)
    (named : ∀ arrival ∈ arrivals, arrival.point.measurement ≠ "")
    (timed : ∀ arrival ∈ arrivals, arrival.point.time ≠ 0)
    (noDelta :
      ((empty .whole).run arrivals).1.finish.anyData MetricData.isDelta = false) :
    let converted := ((empty .whole).run arrivals).1.finish
    ∃ written : List Point,
      Export.writeTree .sliced PointWriter.collecting converted [] =
        (written.reverse, .ok ⟨written.length, 0⟩) ∧
      ∀ returning : List Arrival, returning.map Arrival.point = written ->
        ((∀ answer ∈ ((empty .sliced).run returning).2, answer = none) ↔
          converted.anyData MetricData.hasSelector = false) ∧
        (converted.anyData MetricData.hasSelector = false ->
          converted.Related Metric.SameOutline
            ((empty .sliced).run returning).1.finish) := by
  rw [finish_run] at noDelta ⊢
  have convertible := convertible_accepted named timed noDelta
  rw [<- tree_accepted] at noDelta ⊢
  generalize accepted (Grouping.observations .whole arrivals) = observations at *
  intro converted
  refine ⟨MetricTree.points .sliced converted, ?_, fun returning returned => ?_⟩
  · rw [Export.writeTree_collecting, convertible.unwritable_tree]
  · have whenUnselected (noSelector : converted.anyData MetricData.hasSelector = false) :=
      run_of_says (returned ▸ convertible.says_points noSelector)
        convertible.consistent_convertedTree
    refine ⟨⟨fun accepts => ?_, fun noSelector => (whenUnselected noSelector).1⟩,
      fun noSelector => ?_⟩
    · rw [Bool.eq_false_iff]
      intro someSelector
      obtain ⟨point, member, refuses⟩ := convertible.exists_refused someSelector
      rw [<- returned] at member
      obtain ⟨arrival, arrivalMember, rfl⟩ := List.mem_map.mp member
      obtain ⟨said, read⟩ :=
        ((run_empty_sliced_accepts_iff returning).mp accepts).1 arrival arrivalMember
      obtain ⟨error, refused⟩ := refuses arrival.now
      rw [refused] at read
      cases read
    · rw [(whenUnselected noSelector).2]
      exact convertible.related_convertedTree

/-- A gauge with a tag that selects buckets, a counter named like a count, a histogram with
two data points and a summary are all found again. -/
theorem run_sliced_writeTree_run_whole_iff_four_metrics :
    let arrival (hint : TypeHint) (metric : String) (tags : List (String × String))
        (fields : List (String × FieldValue)) : Arrival :=
      ⟨9, {
        measurement := metric
        tags := .ofList tags
        fields := .ofList fields
        time := 5
        hint }⟩
    let arrivals := [
      arrival .gauge "load" [("host.name", "a"), ("le", "1")] [("gauge", .int 7)],
      arrival .sum "lag_count" [] [("counter", .int 4), ("start_time", .int 8)],
      arrival .histogram "lag" [("zone", "a")]
        [("count", .int 4), ("sum", .int 6), ("1.50", .int 3), ("-0", .int 1)],
      arrival .histogram "lag" [("zone", "b")]
        [("count", .int 2), ("sum", .int 6), ("1", .int 3)],
      arrival .summary "size" [] [("count", .int 1), ("sum", .int 2), ("0.5", .int 2)]]
    let converted := ((empty .whole).run arrivals).1.finish
    (∀ arrival ∈ arrivals, arrival.point.measurement ≠ "") ∧
      (∀ arrival ∈ arrivals, arrival.point.time ≠ 0) ∧
      converted.anyData MetricData.isDelta = false ∧
      ∃ written : List Point,
        Export.writeTree .sliced PointWriter.collecting converted [] =
          (written.reverse, .ok ⟨written.length, 0⟩) ∧
        ∀ returning : List Arrival, returning.map Arrival.point = written ->
          (∀ answer ∈ ((empty .sliced).run returning).2, answer = none) ∧
            converted.Related Metric.SameOutline
              ((empty .sliced).run returning).1.finish := by
  intro arrival arrivals converted
  have named : ∀ arrival ∈ arrivals, arrival.point.measurement ≠ "" := by decide +kernel
  have timed : ∀ arrival ∈ arrivals, arrival.point.time ≠ 0 := by decide +kernel
  have noDelta : converted.anyData MetricData.isDelta = false := by decide +kernel
  have noSelector : converted.anyData MetricData.hasSelector = false := by decide +kernel
  obtain ⟨written, success, returned⟩ :=
    run_sliced_writeTree_run_whole_iff arrivals named timed noDelta
  refine ⟨named, timed, noDelta, written, success, fun returning same => ?_⟩
  obtain ⟨accepts, related⟩ := returned returning same
  exact ⟨accepts.mpr noSelector, related noSelector⟩

/-- A histogram with a tag that would select a bucket is written as points the first of
which, the one with the count and the sum, is refused. -/
theorem run_sliced_writeTree_run_whole_selector :
    let arrivals : List Arrival := [⟨9, {
      measurement := "lag"
      tags := .ofList [("le", "abc")]
      fields := .ofList [("count", .int 4), ("sum", .int 7), ("1", .int 3)]
      time := 5
      hint := .histogram }⟩]
    let written := (Export.writeTree .sliced PointWriter.collecting
      ((empty .whole).run arrivals).1.finish []).1.reverse
    let returning := written.map fun point => (⟨9, point⟩ : Arrival)
    (∀ arrival ∈ arrivals, arrival.point.measurement ≠ "") ∧
      (∀ arrival ∈ arrivals, arrival.point.time ≠ 0) ∧
      ((empty .whole).run arrivals).1.finish.anyData MetricData.isDelta = false ∧
      ((empty .sliced).run returning).2 = [some (.invalidBucketBound "abc"), none, none] := by
  decide +kernel

end Batch
end LineMetrics
