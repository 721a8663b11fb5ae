import LineMetrics.DistributionPoints
import LineMetrics.Proofs.HistogramShape
import LineMetrics.Proofs.WholePoints

/-!
# The shape of summaries

Whatever points a batch receives, each data point of a summary in its tree has finite
quantiles in ascending order. Sliced points state every quantile once, since a later line
for a quantile takes the place of an earlier one. A whole point may spell one quantile in
several keys, and then its data point has the quantile as often. A repeated quantile is
written once as a field, the last value over the others, and repeated as a line.
-/

namespace LineMetrics

namespace SummaryPoint

/-- The quantiles are in strictly ascending order. -/
def IsStrict (point : SummaryPoint) : Prop :=
  point.quantiles.Pairwise fun left right => left.quantile.inUnits < right.quantile.inUnits

instance (point : SummaryPoint) : Decidable point.IsStrict :=
  inferInstanceAs (Decidable (List.Pairwise _ _))

/-- Under either schema, each quantile is written for itself: a whole point has the count,
the sum and a field for each quantile, and behind the first sliced point each has a line
with its own tag. -/
structure WrittenApart
    (placement : Placement)
    (metric : String)
    (point : SummaryPoint) : Prop where
  whole :
    (Whole.summaryPoint placement metric point).fields.entries.Perm
      ((ReservedName.count, .float (.ofNat point.count.toNat)) ::
        (ReservedName.sum, .float point.sum) ::
        point.quantiles.map fun quantile =>
          (quantile.quantile.keyText, .float quantile.value))
  sliced :
    ∃ total lines,
      Sliced.summaryPoints placement metric point = total :: lines ∧
        lines.map (fun line => line.fields.find? metric) =
          point.quantiles.map (fun quantile => some (.float quantile.value)) ∧
        lines.map (fun line => line.tags.find? ReservedName.quantile) =
          point.quantiles.map (fun quantile => some quantile.quantile.keyText) ∧
        (lines.map fun line => line.tags.find? ReservedName.quantile).Nodup

/-- Different finite quantiles have different texts. -/
theorem nodup_keyTexts_iff
    {point : SummaryPoint}
    (finite : ∀ quantile ∈ point.quantiles, quantile.quantile.isFinite = true) :
    (point.quantiles.map fun quantile => some quantile.quantile.keyText).Nodup ↔
      (point.quantiles.map Quantile.quantile).Nodup := by
  rw [List.Nodup, List.Nodup, List.pairwise_map, List.pairwise_map]
  constructor
  · exact List.Pairwise.imp fun apart same => apart (by rw [same])
  · intro distinct
    apply distinct.imp_of_mem
    intro left right leftMember rightMember apart same
    exact apart <| Binary64.eq_of_keyText_eq
      (Binary64.isNaN_of_isFinite (finite left leftMember)) (Option.some.inj same)

/-- A whole point has a field for each of different finite quantiles. -/
theorem entries_summaryPoint
    {point : SummaryPoint}
    (placement : Placement)
    (metric : String)
    (finite : ∀ quantile ∈ point.quantiles, quantile.quantile.isFinite = true)
    (distinct : (point.quantiles.map Quantile.quantile).Nodup) :
    (Whole.summaryPoint placement metric point).fields.entries.Perm
      ((ReservedName.count, .float (.ofNat point.count.toNat)) ::
        (ReservedName.sum, .float point.sum) ::
        point.quantiles.map fun quantile =>
          (quantile.quantile.keyText, .float quantile.value)) := by
  have fields : Whole.partFields point.pairs =
      point.quantiles.map fun quantile =>
        (quantile.quantile.keyText, FieldValue.float quantile.value) := List.map_map
  have places : ∀ place ∈ point.pairs.map Prod.fst, place.isFinite = true := by
    rw [point.map_fst_pairs]
    exact List.forall_mem_map.mpr finite
  rw [<- point.map_fst_pairs] at distinct
  rw [<- fields]
  exact Whole.entries_distributionPoint rfl _ _ places distinct

/-- Finite quantiles are written for themselves exactly if no two of them are the same
number. -/
theorem writtenApart_iff
    {point : SummaryPoint}
    (placement : Placement)
    (metric : String)
    (finite : ∀ quantile ∈ point.quantiles, quantile.quantile.isFinite = true) :
    point.WrittenApart placement metric ↔
      (point.quantiles.map Quantile.quantile).Nodup := by
  constructor
  · rintro ⟨-, total, lines, -, -, tags, distinct⟩
    rw [tags] at distinct
    exact (nodup_keyTexts_iff finite).mp distinct
  · intro distinct
    have tags :
        (point.quantiles.map (Sliced.quantilePoint
            (Sliced.bare placement point.attributes point.time .summary) metric)).map
          (fun line => line.tags.find? ReservedName.quantile) =
        point.quantiles.map fun quantile => some quantile.quantile.keyText := by
      rw [List.map_map]
      exact List.map_congr_left fun quantile _ =>
        (Dictionary.find?_insert _ _ _ _).trans (if_pos rfl)
    refine ⟨entries_summaryPoint placement metric finite distinct, _, _, rfl, ?_, tags, ?_⟩
    · rw [List.map_map]
      exact List.map_congr_left fun quantile _ =>
        (Dictionary.find?_insert _ _ _ _).trans (if_pos rfl)
    · rw [tags]
      exact (nodup_keyTexts_iff finite).mpr distinct

/-- Ascending finite quantiles are strictly ascending exactly if they are numerically
different. -/
theorem isStrict_iff
    {point : SummaryPoint}
    (finite : ∀ quantile ∈ point.quantiles, quantile.quantile.isFinite = true)
    (ascending : (point.quantiles.map Quantile.quantile).Pairwise fun left right =>
      left.totalLE right = true) :
    point.IsStrict ↔
      (point.quantiles.map Quantile.quantile).Pairwise fun left right =>
        left.sameNumber right = false := by
  rw [List.pairwise_map] at ascending ⊢
  constructor
  · refine List.Pairwise.imp_of_mem fun {left right} leftMember rightMember below => ?_
    rw [Bool.eq_false_iff, ne_eq,
      Binary64.sameNumber_iff_inUnits (finite left leftMember) (finite right rightMember)]
    exact ne_of_lt below
  · intro apart
    apply (ascending.and apart).imp_of_mem
    intro left right leftMember rightMember both
    exact Binary64.inUnits_lt (finite left leftMember) (finite right rightMember) both.1 both.2

end SummaryPoint

namespace Grouping

/-- The shape of a data point of a summary, and what it takes for its quantiles to be
there once each. -/
structure SummaryShape
    (schema : Schema)
    (arrivals : List Arrival)
    (resource : Tags)
    (scope : Scope)
    (metric : String)
    (point : SummaryPoint) : Prop where
  finite : ∀ quantile ∈ point.quantiles, quantile.quantile.isFinite = true
  ascending : point.quantiles.Pairwise fun left right =>
    left.quantile.inUnits ≤ right.quantile.inUnits
  sliced : schema = .sliced -> point.IsStrict
  whole : schema = .whole ->
    ∃ arrival ∈ arrivals,
      Whole.observations arrival.now arrival.point =
          .ok [⟨resource, scope, metric, .summary point⟩] ∧
        (point.IsStrict ↔
          (arrival.point.fields.keys.filterMap Binary64.ofFiniteKey?).Pairwise
            fun left right => left.sameNumber right = false)
  written : point.WrittenApart (.of resource scope) metric ↔
    (point.quantiles.map Quantile.quantile).Nodup
  strict : point.IsStrict -> point.WrittenApart (.of resource scope) metric

end Grouping

namespace Grouping

variable {arrivals : List Arrival} {resource : Tags} {scope : Scope} {metric : String}

/-- A data point with finite quantiles in ascending order has the shape, if these are
different as far as its schema says. -/
theorem summaryShape_of_ascending
    {schema : Schema}
    {point : SummaryPoint}
    (finite : ∀ quantile ∈ point.quantiles, quantile.quantile.isFinite = true)
    (ascending : (point.quantiles.map Quantile.quantile).Pairwise fun left right =>
      left.totalLE right = true)
    (sliced : schema = .sliced -> point.IsStrict)
    (whole : schema = .whole ->
      ∃ arrival ∈ arrivals,
        Whole.observations arrival.now arrival.point =
            .ok [⟨resource, scope, metric, .summary point⟩] ∧
          (point.IsStrict ↔
            (arrival.point.fields.keys.filterMap Binary64.ofFiniteKey?).Pairwise
              fun left right => left.sameNumber right = false)) :
    SummaryShape schema arrivals resource scope metric point where
  finite := finite
  ascending := (List.pairwise_map.mp ascending).imp_of_mem fun leftMember rightMember below =>
    Binary64.inUnits_le (finite _ leftMember) (finite _ rightMember) below
  sliced := sliced
  whole := whole
  written := SummaryPoint.writtenApart_iff (.of resource scope) metric finite
  strict isStrict := by
    refine (SummaryPoint.writtenApart_iff (.of resource scope) metric finite).mpr ?_
    refine List.pairwise_map.mpr (isStrict.imp fun below same => ?_)
    rw [same] at below
    exact absurd below (lt_irrefl _)

/-- A summary that comes as a whole has the shape. -/
theorem summaryShape_whole
    {arrival : Arrival}
    {point : SummaryPoint}
    (member : arrival ∈ arrivals)
    (said : Whole.observations arrival.now arrival.point =
      .ok [⟨resource, scope, metric, .summary point⟩])
    (read : Whole.summaryObservation arrival.point (arrival.point.timeOr arrival.now) =
      .ok ⟨resource, scope, metric, .summary point⟩) :
    SummaryShape .whole arrivals resource scope metric point := by
  obtain ⟨count, sum, quantiles, stated, made⟩ := Whole.summaryObservation_eq_ok_iff.mp read
  cases made
  obtain ⟨finitePlaces, ascending⟩ := Whole.places_of_distribution stated
  generalize described : SummaryPoint.ofQuantiles
    (Attribute.ofTags (TagLevels.split arrival.point.tags).attributes)
    (arrival.point.timeOr arrival.now) count sum quantiles = point at said
  have places : point.quantiles.map Quantile.quantile = quantiles.map Prod.fst := by
    rw [<- described]
    exact List.map_map
  have finite : ∀ quantile ∈ point.quantiles, quantile.quantile.isFinite = true := by
    rw [<- places] at finitePlaces
    exact List.forall_mem_map.mp finitePlaces
  rw [<- places] at ascending
  refine summaryShape_of_ascending finite ascending (fun other => nomatch other) fun _ =>
    ⟨arrival, member, said, ?_⟩
  rw [SummaryPoint.isStrict_iff finite ascending, places]
  exact Whole.apart_places_iff stated

/-- A summary that is assembled from slices has the shape. -/
theorem summaryShape_sliced
    {series : Series}
    {parts : List SeriesSlice}
    (readable : ∀ part ∈ parts, part.slice.IsReadable metric) :
    SummaryShape .sliced arrivals resource scope metric
      ((assemble parts).toSummaryPoint series) := by
  have placed := placed_assemble readable
  have ordered := placed.orderedQuantiles series
  have finite := fun quantile member => (placed.finiteQuantiles series quantile member).1
  have ascending := ordered.imp And.left
  exact summaryShape_of_ascending finite ascending
    (fun _ => (SummaryPoint.isStrict_iff finite ascending).mpr (ordered.imp And.right))
    fun other => nomatch other

/-- Data of a summary come from whole ones, or are assembled from slices. -/
theorem summary_cases
    {kind : MetricKind}
    {readings : List Reading}
    {points : List SummaryPoint}
    (data : dataOf kind readings = .summary points) :
    kind = .whole .summary ∧ points = readings.filterMap Reading.summary? ∨
      kind = .assembled ∧
        points = (groups SeriesSlice.series (readings.filterMap Reading.slice?)).map
          fun group => (assemble group.2).toSummaryPoint group.1 := by
  cases kind with
  | gauge => cases data
  | sum => cases data
  | whole distribution =>
      cases distribution with
      | histogram => cases data
      | summary =>
          cases data
          exact .inl ⟨rfl, rfl⟩
  | assembled =>
      rw [dataOf, assembledData_eq] at data
      split at data
      · cases data
        exact .inr ⟨rfl, rfl⟩
      · cases data

variable {schema : Schema}

/-- A whole summary among accepted observations has the shape. -/
theorem summaryShape_of_mem_accepted
    {observation : Observation}
    {point : SummaryPoint}
    (member : observation ∈ accepted (observations schema arrivals))
    (found : observation.reading.summary? = some point) :
    SummaryShape schema arrivals observation.resource observation.scope
      observation.metric point := by
  have unfiltered := (List.mem_filter.mp member).1
  cases schema with
  | sliced =>
      obtain ⟨arrival, -, read⟩ := Sliced.exists_of_mem_observations unfiltered
      have isWhole : observation.reading.kind = .whole .summary := by
        cases reading : observation.reading <;> rw [reading] at found <;> cases found
        rfl
      exact absurd isWhole (Sliced.kind_of_observations .summary read)
  | whole =>
      obtain ⟨arrival, arrivalMember, result, read, inResult⟩ :=
        exists_of_mem_observations unfiltered
      obtain ⟨rfl, summary⟩ :=
        Whole.summaryObservation_of_mem_observations read inResult found
      obtain ⟨resource, scope, metric, reading⟩ := observation
      have isSummary : reading = .summary point := by
        cases reading <;> cases found
        rfl
      subst isSummary
      exact summaryShape_whole arrivalMember read summary

end Grouping

namespace Batch

open Grouping

/-- Every data point of a summary, in the tree of whatever points a batch receives, has
finite quantiles in ascending order. From sliced points the order is strict. From a whole
point it is so exactly if no two keys of the point are the same finite number. Written
again under either schema, each quantile stands for itself exactly if no two of them are
the same number, which is so if the order is strict. -/
theorem run_finish_summaryShape
    (schema : Schema)
    (arrivals : List Arrival)
    (placement : Placement)
    (metric : String)
    (point : SummaryPoint)
    (member : (placement, metric, .summary point) ∈
      MetricTree.placedDistributions ((empty schema).run arrivals).1.finish) :
    ∃ resource scope,
      placement = .of resource scope ∧
        SummaryShape schema arrivals resource scope metric point := by
  obtain ⟨data, inTree, inData⟩ := MetricTree.mem_placedDistributions_iff.mp member
  obtain ⟨points, rfl, pointMember⟩ := MetricData.exists_of_mem_summary inData
  rw [finish_run, placedMetrics_tree] at inTree
  obtain ⟨group, groupMember, same⟩ := List.mem_map.mp inTree
  obtain ⟨rfl, isMetric⟩ := Prod.mk.inj same
  obtain rfl : group.name = metric := congrArg Metric.name isMetric
  obtain ⟨kind, -, groupData⟩ :=
    exists_kind_of_mem_metricGroups (consistent_accepted _) groupMember
  rw [isMetric] at groupData
  refine ⟨group.resource, group.scope, rfl, ?_⟩
  rcases summary_cases (Option.some.inj groupData).symm with ⟨-, rfl⟩ | ⟨-, rfl⟩
  · obtain ⟨reading, readingMember, found⟩ := List.mem_filterMap.mp pointMember
    obtain ⟨observation, observationMember, rfl⟩ := List.mem_map.mp readingMember
    obtain ⟨sameResource, sameScope, sameName⟩ :=
      ofMetric_of_mem_metricGroups groupMember observation observationMember
    have accepted := mem_of_mem_metricGroups groupMember observationMember
    have shape := summaryShape_of_mem_accepted accepted found
    rw [sameResource, sameScope, sameName] at shape
    exact shape
  · obtain ⟨series, inGroup, rfl⟩ := List.mem_map.mp pointMember
    obtain ⟨rfl, readable⟩ := readable_of_mem_groups groupMember inGroup
    exact summaryShape_sliced readable

/-- A whole summary whose fields are not in the order of their numbers has its quantiles in
that order. -/
theorem run_finish_summaryShape_two_quantiles :
    let arrivals : List Arrival := [⟨9, {
      measurement := "lag"
      fields := .ofList
        [("10", .int 4), ("9.5", .int 3), ("count", .int 2), ("sum", .int 7)]
      time := 5
      hint := .summary }⟩]
    ∃ placement metric point,
      (placement, metric, .summary point) ∈
          MetricTree.placedDistributions ((empty .whole).run arrivals).1.finish ∧
        point.quantiles.length = 2 ∧
        ∃ resource scope,
          placement = .of resource scope ∧
            SummaryShape .whole arrivals resource scope metric point := by
  intro arrivals
  have hasTwo :
      2 ∈ (MetricTree.placedDistributions ((empty .whole).run arrivals).1.finish).map
        (fun placed => match placed.2.2 with
          | .summary point => point.quantiles.length
          | .histogram _ => 0) := by decide +kernel
  obtain ⟨⟨placement, metric, point⟩, member, length⟩ := List.mem_map.mp hasTwo
  cases point with
  | histogram point => cases length
  | summary point =>
      exact ⟨placement, metric, point, member, length,
        run_finish_summaryShape .whole arrivals placement metric point member⟩

/-- A whole summary that spells one quantile in two keys has it twice, and as a whole point
again it has one field for both. -/
theorem run_finish_summary_repeated_quantile :
    let arrivals : List Arrival := [⟨9, {
      measurement := "lag"
      fields := .ofList
        [("0.5", .int 3), ("0.50", .int 4), ("count", .int 2), ("sum", .int 7)]
      time := 5
      hint := .summary }⟩]
    ∃ placement metric point,
      (placement, metric, .summary point) ∈
          MetricTree.placedDistributions ((empty .whole).run arrivals).1.finish ∧
        ¬point.IsStrict ∧
        point.quantiles.length = 2 ∧
        (Whole.summaryPoint placement metric point).fields.keys = ["0.5", "count", "sum"] :=
    by
  intro arrivals
  have repeated :
      some (false, 2, ["0.5", "count", "sum"]) ∈
        (MetricTree.placedDistributions ((empty .whole).run arrivals).1.finish).map
          (fun placed => match placed.2.2 with
            | .summary point =>
                some (decide point.IsStrict, point.quantiles.length,
                  (Whole.summaryPoint placed.1 placed.2.1 point).fields.keys)
            | .histogram _ => none) := by decide +kernel
  obtain ⟨⟨placement, metric, point⟩, member, isWritten⟩ := List.mem_map.mp repeated
  cases point with
  | histogram point => cases isWritten
  | summary point =>
      simp only [Option.some.injEq, Prod.mk.injEq, decide_eq_false_iff_not] at isWritten
      exact ⟨placement, metric, point, member, isWritten⟩

end Batch
end LineMetrics
