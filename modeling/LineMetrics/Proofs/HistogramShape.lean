import LineMetrics.Proofs.LatestBuckets
import LineMetrics.Proofs.MetricGroups
import LineMetrics.Proofs.Rewriting
import LineMetrics.Proofs.WholeReadings

/-!
# The shape of histograms

Whatever points a batch receives, each data point of a histogram in its tree has finite
bounds in strictly ascending order and one more count than bounds. Its counts are those
that were stated, each bound with the last one stated for it, either as differences or,
if they cannot be running totals, as they came.
-/

namespace LineMetrics

namespace Binary64

/-- What is numerically equal to a finite number is finite. -/
theorem isFinite_of_sameNumber
    {left right : Binary64}
    (same : left.sameNumber right = true)
    (finite : right.isFinite = true) :
    left.isFinite = true := by
  simp only [sameNumber, Bool.and_eq_true, Bool.or_eq_true, beq_iff_eq] at same
  rcases same.2 with rfl | ⟨zero, -⟩
  · exact finite
  · rw [isZero, beq_iff_eq] at zero
    rw [isFinite, zero]
    rfl

end Binary64

/-- The data points of histograms in a tree, each with the place and the name of its
metric. -/
def MetricTree.placedHistograms (tree : MetricTree) :
    List (Placement × String × HistogramPoint) :=
  tree.placedMetrics.flatMap fun (placement, metric) =>
    match metric.data with
    | some (.histogram points _) => points.map fun point => (placement, metric.name, point)
    | _ => []

/-- The buckets that are stated: one for each finite bound, in ascending order, with the
count that is stated for it last. -/
structure StatedBuckets (stated buckets : List (Binary64 × UInt64)) : Prop where
  finite : ∀ bucket ∈ buckets, bucket.1.isFinite = true
  ascending : buckets.Pairwise fun left right => left.1.inUnits < right.1.inUnits
  covers : ∀ entry ∈ stated, entry.1.isFinite = true ->
    ∃ bucket ∈ buckets, bucket.1.sameNumber entry.1 = true
  latest : ∀ bucket ∈ buckets,
    (stated.reverse.find? fun entry => entry.1.sameNumber bucket.1).map Prod.snd =
      some bucket.2

namespace Assembly

/-- The finite buckets of what is kept are those that were stated. -/
theorem Latest.statedBuckets
    {stated kept : List (Binary64 × UInt64)}
    (latest : Latest stated kept) :
    StatedBuckets stated ((inOrder kept).filter fun bucket => bucket.1.isFinite) := by
  have ordered := latest.perm (inOrder_perm kept).symm
  refine ⟨fun bucket member => (List.mem_filter.mp member).2, ?_, ?_, ?_⟩
  · have places :=
      ((pairwise_inOrder kept).and (List.pairwise_map.mp ordered.apart)).filter
        fun bucket => bucket.1.isFinite
    apply places.imp_of_mem
    intro left right leftMember rightMember place
    exact Binary64.inUnits_lt (List.mem_filter.mp leftMember).2
      (List.mem_filter.mp rightMember).2 place.1 place.2
  · intro entry member finite
    obtain ⟨other, otherMember, same⟩ := ordered.covers entry member
    have otherFinite := Binary64.isFinite_of_sameNumber same finite
    exact ⟨other, List.mem_filter.mpr ⟨otherMember, otherFinite⟩, same⟩
  · intro bucket member
    exact ordered.latest bucket (List.mem_filter.mp member).1

/-- The data point of an assembly has no buckets, or the finite ones closed by the
count. -/
theorem toHistogramPoint_cases (series : Series) (assembly : Assembly) :
    (assembly.toHistogramPoint series).counts = [] ∧
        (assembly.toHistogramPoint series).bounds = [] ∨
      assembly.toHistogramPoint series =
        .ofBuckets (Attribute.ofTags series.attributes) series.time assembly.countOrLast
          assembly.sum assembly.finiteBuckets := by
  rw [toHistogramPoint]
  dsimp only
  cases noBuckets : assembly.finiteBuckets.isEmpty && assembly.infiniteBucket?.isNone with
  | true =>
      rw [Bool.and_eq_true, List.isEmpty_iff] at noBuckets
      refine .inl ⟨if_pos rfl, ?_⟩
      rw [noBuckets.1, List.map_nil]
  | false =>
      rw [if_neg Bool.false_ne_true]
      exact .inr rfl

end Assembly

namespace Grouping

/-- An assembly keeps the latest count of each bucket. -/
theorem latest_assemble
    {metric : String}
    {parts : List SeriesSlice}
    (readable : ∀ part ∈ parts, part.slice.IsReadable metric) :
    Assembly.Latest (parts.filterMap fun part => part.slice.bucket?)
      (assemble parts).buckets := by
  induction parts using List.reverseRecOn with
  | nil => exact Assembly.latest_nil
  | append_singleton parts part inductionHypothesis =>
      obtain ⟨partsReadable, partReadable⟩ := List.forall_mem_append.mp readable
      have earlier := inductionHypothesis partsReadable
      have isReadable := partReadable part (.head _)
      rw [assemble_append_singleton, List.filterMap_append, List.filterMap_cons,
        List.filterMap_nil]
      cases kind : part.slice with
      | bucket bound count =>
          rw [kind] at isReadable
          have isNumber : (bound, count).1.isNaN = false := isReadable
          exact earlier.setAt isNumber
      | quantile place value =>
          rw [show Slice.bucket? (.quantile place value) = none from rfl, List.append_nil]
          exact earlier
      | total count sum =>
          rw [show Slice.bucket? (.total count sum) = none from rfl, List.append_nil]
          exact earlier

end Grouping

namespace HistogramPoint

/-- Counts that are closed by the count sum up to it exactly if they do not decrease, and
stay as they are otherwise. -/
theorem counts_ofBuckets
    (attributes : List Attribute)
    (time count : UInt64)
    (sum : Option Binary64)
    (buckets : List (Binary64 × UInt64)) :
    let point := ofBuckets attributes time count sum buckets
    let stated := buckets.map Prod.snd ++ [count]
    (Buckets.sum point.counts = point.count.toNat ↔
        stated.Pairwise fun earlier later => earlier ≤ later) ∧
      (¬stated.Pairwise (fun earlier later => earlier ≤ later) -> point.counts = stated) :=
  ⟨Buckets.sum_perBucket_eq_iff, Buckets.perBucket_of_decreasing⟩

end HistogramPoint

namespace Grouping

/-- The bucket that an observation states for a series of a metric. -/
def bucketOf?
    (resource : Tags)
    (scope : Scope)
    (metric : String)
    (series : Series)
    (observation : Observation) : Option (Binary64 × UInt64) :=
  if observation.resource = resource ∧ observation.scope = scope ∧
      observation.metric = metric then
    observation.reading.slice?.bind fun part =>
      if part.series = series then part.slice.bucket? else none
  else none

/-- What points state about the buckets of a data point of a histogram, in the order in
which it comes. A whole point says the whole data point, in the fields whose keys are
finite numbers. Of sliced points, all that are accepted say one bucket each. -/
inductive SaysBuckets
    (arrivals : List Arrival)
    (resource : Tags)
    (scope : Scope)
    (metric : String)
    (point : HistogramPoint) : Schema -> List (Binary64 × UInt64) -> Prop
  | whole
      (arrival : Arrival)
      (member : arrival ∈ arrivals)
      (said : Whole.observations arrival.now arrival.point =
        .ok [⟨resource, scope, metric, .histogram point⟩]) :
      SaysBuckets arrivals resource scope metric point .whole
        (arrival.point.fields.entries.filterMap
          (Whole.statedPart? fun key value => value.toCount key))
  | sliced
      (series : Series)
      (time : series.time = point.time)
      (attributes : Attribute.ofTags series.attributes = point.attributes) :
      SaysBuckets arrivals resource scope metric point .sliced
        ((accepted (observations .sliced arrivals)).filterMap
          (bucketOf? resource scope metric series))

/-- The shape of a data point of a histogram with the buckets that points say. -/
structure HistogramShape
    (schema : Schema)
    (arrivals : List Arrival)
    (resource : Tags)
    (scope : Scope)
    (metric : String)
    (point : HistogramPoint) : Prop where
  finite : ∀ bound ∈ point.bounds, bound.isFinite = true
  ascending : point.bounds.Pairwise fun left right => left.inUnits < right.inUnits
  layout : point.counts.length = point.bounds.length + 1 ∨
    schema = .sliced ∧ point.counts = [] ∧ point.bounds = []
  counts : point.counts ≠ [] ->
    ∃ stated buckets,
      SaysBuckets arrivals resource scope metric point schema stated ∧
        StatedBuckets stated buckets ∧
        point.bounds = buckets.map Prod.fst ∧
        (Buckets.sum point.counts = point.count.toNat ↔
          (buckets.map Prod.snd ++ [point.count]).Pairwise fun earlier later =>
            earlier ≤ later) ∧
        (¬(buckets.map Prod.snd ++ [point.count]).Pairwise (fun earlier later =>
            earlier ≤ later) ->
          point.counts = buckets.map Prod.snd ++ [point.count])

variable {arrivals : List Arrival} {resource : Tags} {scope : Scope} {metric : String}

/-- Stated buckets closed by the count have the shape. -/
theorem histogramShape_ofBuckets
    {schema : Schema}
    {attributes : List Attribute}
    {time count : UInt64}
    {sum : Option Binary64}
    {stated buckets : List (Binary64 × UInt64)}
    (said : SaysBuckets arrivals resource scope metric
      (.ofBuckets attributes time count sum buckets) schema stated)
    (statedBuckets : StatedBuckets stated buckets) :
    HistogramShape schema arrivals resource scope metric
      (.ofBuckets attributes time count sum buckets) where
  finite bound member := by
    obtain ⟨bucket, bucketMember, rfl⟩ := List.mem_map.mp member
    exact statedBuckets.finite bucket bucketMember
  ascending := List.pairwise_map.mpr statedBuckets.ascending
  layout := .inl (HistogramPoint.length_counts_ofBuckets attributes time count sum buckets)
  counts _ :=
    ⟨stated, buckets, said, statedBuckets, rfl,
      HistogramPoint.counts_ofBuckets attributes time count sum buckets⟩

/-- A histogram that comes as a whole has the shape. -/
theorem histogramShape_whole
    {arrival : Arrival}
    {point : HistogramPoint}
    (member : arrival ∈ arrivals)
    (said : Whole.observations arrival.now arrival.point =
      .ok [⟨resource, scope, metric, .histogram point⟩])
    (read : Whole.histogramObservation arrival.point (arrival.point.timeOr arrival.now) =
      .ok ⟨resource, scope, metric, .histogram point⟩) :
    HistogramShape .whole arrivals resource scope metric point := by
  obtain ⟨count, sum, buckets, stated, ordered, made⟩ :=
    Whole.histogramObservation_eq_ok_iff.mp read
  cases made
  obtain ⟨finite, -⟩ := Whole.places_of_distribution stated
  obtain ⟨-, -, -, bucketsAre⟩ := Whole.distribution_eq_ok_iff.mp stated
  refine histogramShape_ofBuckets (.whole arrival member said) ?_
  have finiteBuckets : ∀ bucket ∈ buckets, bucket.1.isFinite = true :=
    fun bucket bucketMember => finite bucket.1 (List.mem_map_of_mem bucketMember)
  have apart := ordered.imp And.right
  rw [bucketsAre] at finiteBuckets apart ⊢
  -- no two bounds are equal, so all that is stated is the latest
  have perm := Assembly.inOrder_perm (arrival.point.fields.entries.filterMap
    (Whole.statedPart? fun key value => value.toCount key))
  have statedApart := ((perm.map Prod.fst).pairwise_iff fun {left right} apart =>
    (Binary64.sameNumber_comm right left).trans apart).mp apart
  have latest := Assembly.latest_self statedApart fun entry entryMember =>
    Binary64.isNaN_of_isFinite (finiteBuckets entry (perm.mem_iff.mpr entryMember))
  have buckets := latest.statedBuckets
  rw [List.filter_eq_self.mpr finiteBuckets] at buckets
  exact buckets

/-- A histogram that is assembled from slices has the shape. -/
theorem histogramShape_sliced
    {series : Series}
    {parts : List SeriesSlice}
    (readable : ∀ part ∈ parts, part.slice.IsReadable metric)
    (states : (accepted (observations .sliced arrivals)).filterMap
        (bucketOf? resource scope metric series) =
      parts.filterMap fun part => part.slice.bucket?) :
    HistogramShape .sliced arrivals resource scope metric
      ((assemble parts).toHistogramPoint series) := by
  rcases Assembly.toHistogramPoint_cases series (assemble parts) with
    ⟨noCounts, noBounds⟩ | made
  · refine ⟨?_, ?_, .inr ⟨rfl, noCounts, noBounds⟩, ?_⟩
    · rw [noBounds]
      exact fun _ member => nomatch member
    · rw [noBounds]
      exact .nil
    · exact fun someCounts => absurd noCounts someCounts
  · rw [made]
    refine histogramShape_ofBuckets (.sliced series rfl rfl) ?_
    rw [states]
    exact (latest_assemble readable).statedBuckets

/-- The buckets that observations state for a series of a metric are those of the slices
in its group. -/
theorem filterMap_bucketOf?
    (group : MetricGroup)
    (series : Series)
    (observations : List Observation) :
    observations.filterMap (bucketOf? group.resource group.scope group.name series) =
      (((((observations.filter group.covers).map Observation.reading).filterMap
        Reading.slice?).filter fun part => part.series = series).filterMap
          fun part => part.slice.bucket?) := by
  rw [List.filterMap_filter, List.filterMap_filterMap, List.filterMap_map,
    List.filterMap_filter]
  apply List.filterMap_congr
  intro observation _
  rw [bucketOf?]
  by_cases covered : group.covers observation = true
  · rw [if_pos covered, if_pos (by simpa [MetricGroup.covers, and_assoc] using covered)]
    simp
  · rw [if_neg covered, if_neg (by simpa [MetricGroup.covers] using covered)]

/-- Data of a histogram come from whole ones, or are assembled from slices. -/
theorem histogram_cases
    {kind : MetricKind}
    {readings : List Reading}
    {points : List HistogramPoint}
    {temporality : Int}
    (data : dataOf kind readings = .histogram points temporality) :
    kind = .whole .histogram ∧ points = readings.filterMap Reading.histogram? ∨
      kind = .assembled ∧
        points = (groups SeriesSlice.series (readings.filterMap Reading.slice?)).map
          fun group => (assemble group.2).toHistogramPoint group.1 := by
  cases kind with
  | gauge => cases data
  | sum => cases data
  | whole distribution =>
      cases distribution with
      | histogram =>
          cases data
          exact .inl ⟨rfl, rfl⟩
      | summary => cases data
  | assembled =>
      rw [dataOf, assembledData_eq] at data
      split at data
      · cases data
      · cases data
        exact .inr ⟨rfl, rfl⟩

variable {schema : Schema}

/-- A whole histogram among accepted observations has the shape. -/
theorem histogramShape_of_mem_accepted
    {observation : Observation}
    {point : HistogramPoint}
    (member : observation ∈ accepted (observations schema arrivals))
    (found : observation.reading.histogram? = some point) :
    HistogramShape schema arrivals observation.resource observation.scope
      observation.metric point := by
  have unfiltered := (List.mem_filter.mp member).1
  cases schema with
  | sliced =>
      obtain ⟨arrival, -, read⟩ := Sliced.exists_of_mem_observations unfiltered
      have noHistogram := (Sliced.slices_of_observations read).1
      rw [found] at noHistogram
      cases noHistogram
  | whole =>
      obtain ⟨arrival, arrivalMember, result, read, inResult⟩ :=
        exists_of_mem_observations unfiltered
      obtain ⟨rfl, histogram⟩ :=
        Whole.histogramObservation_of_mem_observations read inResult found
      obtain ⟨resource, scope, metric, reading⟩ := observation
      have isHistogram : reading = .histogram point := by
        cases reading <;> cases found
        rfl
      subst isHistogram
      exact histogramShape_whole arrivalMember read histogram

/-- The slices of a series come from sliced points, and can be read. -/
theorem readable_of_mem_groups
    {group : MetricGroup}
    {series : Series × List SeriesSlice}
    (member : group ∈ metricGroups (accepted (observations schema arrivals)))
    (inGroup : series ∈ groups SeriesSlice.series
      ((group.members.map Observation.reading).filterMap Reading.slice?)) :
    schema = .sliced ∧ ∀ part ∈ series.2, part.slice.IsReadable group.name := by
  have original (part : SeriesSlice) (inSeries : part ∈ series.2) :
      ∃ observation ∈ observations schema arrivals,
        observation.metric = group.name ∧ observation.reading.slice? = some part := by
    obtain ⟨reading, readingMember, found⟩ :=
      List.mem_filterMap.mp (of_mem_of_mem_groups inGroup inSeries).1
    obtain ⟨observation, observationMember, rfl⟩ := List.mem_map.mp readingMember
    have accepted := mem_of_mem_metricGroups member observationMember
    have named := (ofMetric_of_mem_metricGroups member observation observationMember).2.2
    exact ⟨observation, (List.mem_filter.mp accepted).1, named, found⟩
  cases schema with
  | whole =>
      obtain ⟨part, inSeries⟩ := List.exists_mem_of_ne_nil _ (ne_nil_of_mem_groups inGroup)
      obtain ⟨observation, observationMember, -, found⟩ := original part inSeries
      obtain ⟨arrival, -, result, read, inResult⟩ :=
        exists_of_mem_observations observationMember
      have noSlice :=
        (Whole.admissible_of_mem_observations read inResult).reading.slice?_eq_none
      rw [found] at noSlice
      cases noSlice
  | sliced =>
      refine ⟨rfl, fun part inSeries => ?_⟩
      obtain ⟨observation, observationMember, named, found⟩ := original part inSeries
      obtain ⟨arrival, -, read⟩ := Sliced.exists_of_mem_observations observationMember
      rw [<- named]
      exact (Sliced.slices_of_observations read).2 part found

/-- A data point that is assembled from the slices of a group has the shape. -/
theorem histogramShape_of_mem_groups
    {group : MetricGroup}
    {series : Series × List SeriesSlice}
    (member : group ∈ metricGroups (accepted (observations schema arrivals)))
    (inGroup : series ∈ groups SeriesSlice.series
      ((group.members.map Observation.reading).filterMap Reading.slice?)) :
    HistogramShape schema arrivals group.resource group.scope group.name
      ((assemble series.2).toHistogramPoint series.1) := by
  obtain ⟨rfl, readable⟩ := readable_of_mem_groups member inGroup
  refine histogramShape_sliced readable ?_
  rw [filterMap_bucketOf?, <- (of_mem_metricGroups member).1, (mem_groups_iff.mp inGroup).2]

end Grouping

namespace Batch

open Grouping

/-- Every data point of a histogram, in the tree of whatever points a batch receives, has
finite bounds in strictly ascending order and one more count than bounds, or neither
bounds nor counts if it comes from sliced points. If it has counts, these sum up to the
number of observations exactly if the stated counts, in the order of their bounds and
closed by that number, do not decrease. Otherwise they are the stated counts. -/
theorem run_finish_histogramShape
    (schema : Schema)
    (arrivals : List Arrival)
    (placed : Placement × String × HistogramPoint)
    (member : placed ∈
      MetricTree.placedHistograms ((empty schema).run arrivals).1.finish) :
    ∃ resource scope,
      placed.1 = .of resource scope ∧
        HistogramShape schema arrivals resource scope placed.2.1 placed.2.2 := by
  rw [finish_run, MetricTree.placedHistograms, placedMetrics_tree, List.flatMap_map]
    at member
  obtain ⟨group, groupMember, inMetric⟩ := List.mem_flatMap.mp member
  dsimp only at inMetric
  split at inMetric
  · rename_i points temporality data
    obtain ⟨point, pointMember, rfl⟩ := List.mem_map.mp inMetric
    obtain ⟨kind, -, groupData⟩ :=
      exists_kind_of_mem_metricGroups (consistent_accepted _) groupMember
    rw [groupData] at data
    refine ⟨group.resource, group.scope, rfl, ?_⟩
    rcases histogram_cases (Option.some.inj data) with ⟨-, rfl⟩ | ⟨-, rfl⟩
    · obtain ⟨reading, readingMember, found⟩ := List.mem_filterMap.mp pointMember
      obtain ⟨observation, observationMember, rfl⟩ := List.mem_map.mp readingMember
      obtain ⟨sameResource, sameScope, sameName⟩ :=
        ofMetric_of_mem_metricGroups groupMember observation observationMember
      have accepted := mem_of_mem_metricGroups groupMember observationMember
      have shape := histogramShape_of_mem_accepted accepted found
      rw [sameResource, sameScope, sameName] at shape
      exact shape
    · obtain ⟨series, inGroup, rfl⟩ := List.mem_map.mp pointMember
      exact histogramShape_of_mem_groups groupMember inGroup
  · cases inMetric

/-- Two slices for one bound, spelled in two ways, and one for a bucket with fewer
observations, make a data point with the counts as they came. -/
theorem run_finish_histogramShape_decreasing_counts :
    let slice (tags : List (String × String)) (fields : List (String × FieldValue)) :
        Arrival :=
      ⟨9, {
        measurement := "prometheus"
        tags := .ofList tags
        fields := .ofList fields
        time := 5 }⟩
    let arrivals := [
      slice [("le", "2")] [("lag_bucket", .int 3)],
      slice [("le", "1")] [("lag_bucket", .int 9)],
      slice [("le", "1.0")] [("lag_bucket", .int 5)],
      slice [] [("lag_count", .int 4), ("lag_sum", .int 7)]]
    ∃ placed ∈ MetricTree.placedHistograms ((empty .sliced).run arrivals).1.finish,
      placed.2.2.counts = [5, 3, 4] ∧
        ∃ resource scope,
          placed.1 = .of resource scope ∧
            HistogramShape .sliced arrivals resource scope placed.2.1 placed.2.2 := by
  intro slice arrivals
  have counts :
      (MetricTree.placedHistograms ((empty .sliced).run arrivals).1.finish).map
        (fun placed => placed.2.2.counts) = [[5, 3, 4]] := by decide +kernel
  obtain ⟨placed, rest, some, isCounts, -⟩ := List.map_eq_cons_iff.mp counts
  have member :
      placed ∈ MetricTree.placedHistograms ((empty .sliced).run arrivals).1.finish := by
    rw [some]
    exact .head _
  exact ⟨placed, member, isCounts, run_finish_histogramShape .sliced arrivals placed member⟩

end Batch
end LineMetrics
