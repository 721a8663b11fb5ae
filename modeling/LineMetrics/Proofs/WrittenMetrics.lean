import LineMetrics.Export
import LineMetrics.Proofs.Rewriting
import LineMetrics.Proofs.SlicedPoints

/-!
# Metrics written as sliced points

The points of a metric say, one by one, the observations that the metric is written as,
with their counts as they are read again.
-/

namespace LineMetrics

/-- Lists that are made of related lists are related. -/
theorem forall₂_flatMap
    {related : β -> γ -> Prop}
    {left : α -> List β}
    {right : α -> List γ}
    {elements : List α}
    (each : ∀ element ∈ elements, List.Forall₂ related (left element) (right element)) :
    List.Forall₂ related (elements.flatMap left) (elements.flatMap right) := by
  induction elements with
  | nil => exact .nil
  | cons element elements inductionHypothesis =>
      have ⟨first, others⟩ := List.forall_mem_cons.mp each
      exact List.rel_append first (inductionHypothesis others)

namespace Sliced

/-- The points of a data point of a histogram are those of its slices. -/
theorem histogramPoints_eq
    {point : HistogramPoint}
    (placement : Placement)
    (metric : String)
    (wellFormed : point.WellFormed) :
    histogramPoints placement metric point =
      .ok (point.slices.map
        (slicePoint (bare placement point.attributes point.time .histogram) metric)) := by
  have infinite : Binary64.infinity.keyText = ReservedName.infiniteBound := by decide
  cases someBuckets : point.counts.isEmpty with
  | true =>
      have noCounts : point.counts.length = 0 := by
        rw [List.isEmpty_iff.mp someBuckets, List.length_nil]
      rw [histogramPoints, HistogramPoint.totals, HistogramPoint.slices, if_pos noCounts,
        someBuckets]
      rfl
  | false =>
      have length := wellFormed.length_counts someBuckets
      rw [histogramPoints, HistogramPoint.totals_eq metric length, HistogramPoint.slices,
        someBuckets, if_neg Bool.false_ne_true, List.map_cons, List.map_append, List.map_map,
        List.map_singleton]
      simp only [slicePoint, infinite]
      rfl

/-- The points of a data point of a summary are those of its slices. -/
theorem summaryPoints_eq (placement : Placement) (metric : String) (point : SummaryPoint) :
    summaryPoints placement metric point =
      point.slices.map
        (slicePoint (bare placement point.attributes point.time .summary) metric) := by
  rw [summaryPoints, SummaryPoint.slices, List.map_cons, List.map_map]
  rfl

/-- The points of histograms are those of their slices. -/
theorem points_histograms
    {points : List HistogramPoint}
    (placement : Placement)
    (metric : String)
    (wellFormed : ∀ point ∈ points, point.WellFormed) :
    Sliced.points placement metric (.histogram points Temporality.cumulative.code) =
      .ok (points.flatMap fun point => point.slices.map
        (slicePoint (bare placement point.attributes point.time .histogram) metric)) := by
  have cumulative :
      Temporality.requireCumulative metric Temporality.cumulative.code = .ok () := if_pos rfl
  have converted := mapM_eq_ok fun point member =>
    histogramPoints_eq placement metric (wellFormed point member)
  rw [Sliced.points, cumulative, converted, List.flatMap_def]
  rfl

/-- The points of summaries are those of their slices. -/
theorem points_summaries
    (placement : Placement)
    (metric : String)
    (points : List SummaryPoint) :
    Sliced.points placement metric (.summary points) =
      .ok (points.flatMap fun point => point.slices.map
        (slicePoint (bare placement point.attributes point.time .summary) metric)) := by
  exact congrArg (fun toPoints => Except.ok (points.flatMap toPoints))
    (funext (summaryPoints_eq placement metric))

/-- The slices of a data point of a histogram can be read. -/
theorem readable_histogram_slices
    {point : HistogramPoint}
    (metric : String)
    (wellFormed : point.WellFormed) :
    ∀ slice ∈ point.slices, slice.IsReadable metric := by
  intro slice member
  rcases HistogramPoint.mem_slices_iff.mp member with
    rfl | ⟨-, ⟨bucket, bucketMember, rfl⟩ | rfl⟩
  · exact trivial
  · have finite := wellFormed.finite_runningTotals bucket bucketMember
    exact Binary64.isNaN_of_isFinite finite
  · have isNumber : Binary64.infinity.isNaN = false := by decide
    exact isNumber

/-- The slices of a data point of a summary can be read. -/
theorem readable_summary_slices
    {metric : String}
    {point : SummaryPoint}
    (finite : ∀ quantile ∈ point.quantiles,
      quantile.quantile.isFinite = true ∧ metric ≠ "") :
    ∀ slice ∈ point.slices, slice.IsReadable metric := by
  intro slice member
  rw [SummaryPoint.slices, List.mem_cons] at member
  rcases member with rfl | member
  · exact trivial
  · obtain ⟨quantile, quantileMember, rfl⟩ := List.mem_map.mp member
    exact finite quantile quantileMember

variable {resource : Tags} {scope : Scope} {metric : String}

/-- A reading with a number that a point can say, as some reading that has no start
time. -/
def SaysNumber
    (resource : Tags)
    (metric : String)
    (reading : NumberPoint -> Reading)
    (original result : Reading) : Prop :=
  ∃ tags start time number,
    original.number? = some ⟨Attribute.ofTags tags, start, time, some number⟩ ∧
      result = reading ⟨Attribute.ofTags tags, 0, time, some number⟩ ∧
      (∀ scope, TagLevels.Separated ⟨resource, scope, tags⟩) ∧ time ≠ 0 ∧ metric ≠ ""

/-- The points of a gauge or a counter say its data points. -/
theorem exists_numberPoints
    {readings : List Reading}
    {result : Reading -> Reading}
    (kind : String)
    (hint : TypeHint)
    (reading : NumberPoint -> Reading)
    (hinted : ∀ point : Point, point.hint = hint -> ∀ time,
      Sliced.observation point time = numberObservation kind reading point time)
    (each : ∀ other ∈ readings, SaysNumber resource metric reading other (result other)) :
    ∃ points,
      (readings.filterMap Reading.number?).mapM
          (numberPoint (.of resource scope) metric hint) = .ok points ∧
        List.Forall₂ Says points
          ((readings.map result).map fun reading => ⟨resource, scope, metric, reading⟩) := by
  rw [List.map_map]
  apply exists_mapM_eq_ok
  intro other member
  obtain ⟨tags, start, time, number, found, same, separated, timed, named⟩ := each other member
  have said := says_numberPoint number hinted (separated scope) named timed
  have converted :
      numberPoint (.of resource scope) metric hint
          ⟨Attribute.ofTags tags, start, time, some number⟩ =
        .ok ((bare (.of resource scope) (Attribute.ofTags tags) time hint).withField metric
          (.ofNumber number)) := rfl
  refine ⟨_, _, found, converted, ?_⟩
  rw [Function.comp_apply, same]
  exact said

/-- The points of a gauge say the numbers of its readings. -/
theorem exists_gaugePoints
    {readings : List Reading}
    {result : Reading -> Reading}
    (each : ∀ other ∈ readings, SaysNumber resource metric .gauge other (result other)) :
    ∃ points,
      Sliced.points (.of resource scope) metric (Grouping.dataOf .gauge readings) =
          .ok points ∧
        List.Forall₂ Says points
          ((readings.map result).map fun reading => ⟨resource, scope, metric, reading⟩) := by
  refine exists_numberPoints "gauge" .gauge .gauge ?_ each
  intro point hinted time
  rw [observation, typeOf_of_hint (by rw [hinted]; decide), hinted]

/-- The points of a counter with running totals say the numbers of its readings. -/
theorem exists_counterPoints
    {readings : List Reading}
    {result : Reading -> Reading}
    (each : ∀ other ∈ readings,
      SaysNumber resource metric (.sum .cumulative) other (result other)) :
    ∃ points,
      Sliced.points (.of resource scope) metric
          (Grouping.dataOf (.sum .cumulative) readings) = .ok points ∧
        List.Forall₂ Says points
          ((readings.map result).map fun reading => ⟨resource, scope, metric, reading⟩) := by
  have cumulative :
      Temporality.requireCumulative metric Temporality.cumulative.code = .ok () := if_pos rfl
  rw [Grouping.dataOf, Sliced.points, sumPoints, cumulative]
  refine exists_numberPoints "sum" .sum (.sum .cumulative) ?_ each
  intro point hinted time
  rw [observation, typeOf_of_hint (by rw [hinted]; decide), hinted]

/-- The points of the slices of a series say them as they are read again. -/
theorem forall₂_says_slices
    {slices : List Slice}
    {series : Series}
    (preferSummary : Bool)
    (separated : ∀ key, resource.contains key -> TagLevels.isResourceLevel key)
    (timed : series.time ≠ 0)
    (tags : SeriesTags series.attributes)
    (readable : ∀ slice ∈ slices, slice.IsReadable metric) :
    List.Forall₂ Says
      (slices.map (slicePoint
        (bare (.of resource scope) (Attribute.ofTags series.attributes) series.time
          (sliceHint preferSummary))
        metric))
      ((Grouping.partsOf preferSummary series (slices.map Slice.restated)).map fun part =>
        ⟨resource, scope, metric, part.toReading⟩) := by
  rw [Grouping.partsOf, List.map_map, List.map_map, List.forall₂_map_left_iff,
    List.forall₂_map_right_iff, List.forall₂_same]
  intro slice member
  have levels : TagLevels.Separated ⟨resource, scope, series.attributes⟩ :=
    ⟨separated, tags.attributes⟩
  have said := says_slicePoint preferSummary levels tags timed (readable slice member)
  rw [seriesPoint] at said
  exact said

/-- What slices say that can be written. -/
structure SaysPart (metric : String) (part : SeriesSlice) : Prop where
  timed : part.series.time ≠ 0
  tags : SeriesTags part.series.attributes
  readable : part.slice.IsReadable metric

/-- The points of a distribution say the slices that its data points are cut into, as they
are read again. -/
theorem exists_assembledPoints
    {parts : List SeriesSlice}
    (separated : ∀ key, resource.contains key -> TagLevels.isResourceLevel key)
    (each : ∀ part ∈ parts, SaysPart metric part) :
    ∃ points,
      Sliced.points (.of resource scope) metric (Grouping.assembledData parts) =
          .ok points ∧
        List.Forall₂ Says points
          (((Grouping.rewrittenParts parts).map SeriesSlice.restated).map fun part =>
            ⟨resource, scope, metric, part.toReading⟩) := by
  have placed (group : Series × List SeriesSlice)
      (member : group ∈ groups SeriesSlice.series parts) :
      (Grouping.assemble group.2).Placed metric :=
    Grouping.placed_assemble fun part inGroup =>
      (each part (of_mem_of_mem_groups member inGroup).1).readable
  have series (group : Series × List SeriesSlice)
      (member : group ∈ groups SeriesSlice.series parts) :
      group.1.time ≠ 0 ∧ SeriesTags group.1.attributes := by
    obtain ⟨part, inGroup⟩ := List.exists_mem_of_ne_nil _ (ne_nil_of_mem_groups member)
    obtain ⟨original, same⟩ := of_mem_of_mem_groups member inGroup
    rw [<- same]
    exact ⟨(each part original).timed, (each part original).tags⟩
  rw [Grouping.assembledData_eq, Grouping.rewrittenParts, List.map_flatMap, List.map_flatMap]
  cases summary : Grouping.makesSummary parts with
  | true =>
      rw [if_pos rfl, points_summaries, List.flatMap_map]
      refine ⟨_, rfl, forall₂_flatMap fun group member => ?_⟩
      obtain ⟨timed, tags⟩ := series group member
      rw [Grouping.rewrittenSeries, Grouping.partsOf_restated, if_pos rfl]
      exact forall₂_says_slices true separated timed tags <|
        readable_summary_slices ((placed group member).finiteQuantiles group.1)
  | false =>
      have wellFormed (group : Series × List SeriesSlice)
          (member : group ∈ groups SeriesSlice.series parts) :
          ((Grouping.assemble group.2).toHistogramPoint group.1).WellFormed :=
        (placed group member).wellFormed group.1
      rw [if_neg Bool.false_ne_true,
        points_histograms _ _ (List.forall_mem_map.mpr wellFormed), List.flatMap_map]
      refine ⟨_, rfl, forall₂_flatMap fun group member => ?_⟩
      obtain ⟨timed, tags⟩ := series group member
      rw [Grouping.rewrittenSeries, Grouping.partsOf_restated, if_neg Bool.false_ne_true]
      exact forall₂_says_slices false separated timed tags <|
        readable_histogram_slices metric (wellFormed group member)

/-- The number of a gauge is said as it is. -/
theorem Reads.saysNumber_gauge
    {reading : Reading}
    (reads : Reads metric reading)
    (separated : ∀ key, resource.contains key -> TagLevels.isResourceLevel key)
    (isGauge : reading.kind = .gauge) :
    SaysNumber resource metric .gauge reading reading.restated := by
  cases reads with
  | gauge tags time number named timed attributes =>
      exact ⟨tags, 0, time, number, rfl, rfl, fun _ => ⟨separated, attributes⟩, timed, named⟩
  | sum => cases isGauge
  | slice => cases isGauge

/-- The number of a counter is said as it is. -/
theorem Reads.saysNumber_counter
    {reading : Reading}
    (reads : Reads metric reading)
    (separated : ∀ key, resource.contains key -> TagLevels.isResourceLevel key)
    (isSum : reading.kind = .sum .cumulative) :
    SaysNumber resource metric (.sum .cumulative) reading reading.restated := by
  cases reads with
  | gauge => cases isSum
  | sum tags time number named timed attributes =>
      exact ⟨tags, 0, time, number, rfl, rfl, fun _ => ⟨separated, attributes⟩, timed, named⟩
  | slice => cases isSum

/-- The slice in a reading can be written. -/
theorem Reads.saysPart
    {reading : Reading}
    {part : SeriesSlice}
    (reads : Reads metric reading)
    (found : reading.slice? = some part) :
    SaysPart metric part := by
  cases reads with
  | gauge => cases found
  | sum => cases found
  | slice preferSummary series slice timed attributes readable =>
      cases found
      exact ⟨timed, attributes, readable⟩

/-- The points of a metric with readings that sliced points can hold say what its data
points are written as, as it is read again. -/
theorem exists_points_dataOf
    {kind : MetricKind}
    {readings : List Reading}
    (separated : ∀ key, resource.contains key -> TagLevels.isResourceLevel key)
    (nonempty : readings ≠ [])
    (sameKind : ∀ reading ∈ readings, reading.kind = kind)
    (reads : ∀ reading ∈ readings, Reads metric reading) :
    ∃ points,
      Sliced.points (.of resource scope) metric (Grouping.dataOf kind readings) =
          .ok points ∧
        List.Forall₂ Says points
          (((Grouping.rewritten kind readings).map Reading.restated).map fun reading =>
            ⟨resource, scope, metric, reading⟩) := by
  obtain ⟨first, firstMember⟩ := List.exists_mem_of_ne_nil readings nonempty
  have firstKind := sameKind first firstMember
  cases reads first firstMember with
  | gauge =>
      have isGauge : kind = .gauge := firstKind.symm
      subst isGauge
      exact exists_gaugePoints fun reading member =>
        (reads reading member).saysNumber_gauge separated (sameKind reading member)
  | sum =>
      have isSum : kind = .sum .cumulative := firstKind.symm
      subst isSum
      exact exists_counterPoints fun reading member =>
        (reads reading member).saysNumber_counter separated (sameKind reading member)
  | slice =>
      have isAssembled : kind = .assembled := firstKind.symm
      subst isAssembled
      rw [Grouping.dataOf, Grouping.rewritten, Reading.map_restated_toReading,
        List.map_map]
      refine exists_assembledPoints separated fun part member => ?_
      obtain ⟨reading, readingMember, found⟩ := List.mem_filterMap.mp member
      exact (reads reading readingMember).saysPart found

end Sliced

namespace Grouping

/-- The points of a metric say the observations that it is written as, as they are read
again. -/
theorem Rewritable.exists_points_metricOf
    {resource : Tags}
    {scope : Scope}
    {name : String}
    {members : List Observation}
    (rewritable : Rewritable members)
    (ofMetric : OfMetric resource scope name members)
    (separated : ∀ key, resource.contains key -> TagLevels.isResourceLevel key)
    (nonempty : members ≠ []) :
    ∃ points,
      (metricOf name members).points .sliced (.of resource scope) = .ok points ∧
        List.Forall₂ Sliced.Says points
          ((rewrittenMetric resource scope (name, members)).map Observation.restated) := by
  cases members with
  | nil => exact absurd rfl nonempty
  | cons first rest =>
      have restated :
          (rewrittenMetric resource scope (name, first :: rest)).map Observation.restated =
            ((rewritten first.reading.kind
              ((first :: rest).map Observation.reading)).map Reading.restated).map
                fun reading => ⟨resource, scope, name, reading⟩ := by
        rw [rewrittenMetric, List.map_map, List.map_map]
        rfl
      rw [restated]
      refine Sliced.exists_points_dataOf separated (List.cons_ne_nil _ _) ?_ ?_
      · intro reading member
        obtain ⟨original, originalMember, rfl⟩ := List.mem_map.mp member
        exact ofMetric.kind_eq rewritable.consistent original originalMember first
          List.mem_cons_self
      · intro reading member
        obtain ⟨original, originalMember, rfl⟩ := List.mem_map.mp member
        have named : original.metric = name := (ofMetric original originalMember).2.2
        exact named ▸ (rewritable.admissible original originalMember).reading

end Grouping
end LineMetrics
