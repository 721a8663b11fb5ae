import LineMetrics.Proofs.InfiniteFields
import LineMetrics.Proofs.SeriesPoints

/-!
# Infinite buckets are redundant

The bucket that holds every observation says no more than the count does. A whole histogram
passes over its fields for infinite buckets. A series of sliced points that has a count and
a finite bucket keeps its data point when lines with infinite buckets come in at any
places, since nothing that it is made of is taken from them.
-/

namespace LineMetrics

/-- The second list is the first one with further elements, of a certain kind, at any
places. -/
inductive Inserted {α : Type} (isNew : α -> Prop) : List α -> List α -> Prop
  | nil : Inserted isNew [] []
  | keep (element : α) {left right : List α} (rest : Inserted isNew left right) :
      Inserted isNew (element :: left) (element :: right)
  | insert {element : α} {left right : List α}
      (new : isNew element)
      (rest : Inserted isNew left right) :
      Inserted isNew left (element :: right)

namespace Inserted

variable {α β : Type} {isNew : α -> Prop} {left right : List α}

/-- Nothing is lost. -/
theorem subset (inserted : Inserted isNew left right) : left ⊆ right := by
  induction inserted with
  | nil => exact List.Subset.refl []
  | keep element _ inductionHypothesis => exact List.cons_subset_cons element inductionHypothesis
  | insert _ _ inductionHypothesis => exact List.subset_cons_of_subset _ inductionHypothesis

/-- What is added is of the kind. -/
theorem of_mem
    (inserted : Inserted isNew left right)
    {element : α}
    (member : element ∈ right) :
    element ∈ left ∨ isNew element := by
  induction inserted with
  | nil => cases member
  | keep first _ inductionHypothesis =>
      rcases List.mem_cons.mp member with rfl | behind
      · exact .inl (.head _)
      · exact (inductionHypothesis behind).imp_left (.tail _)
  | insert new _ inductionHypothesis =>
      rcases List.mem_cons.mp member with rfl | behind
      · exact .inr new
      · exact inductionHypothesis behind

/-- The same elements may stand in front of both lists. -/
theorem append_left
    (front : List α)
    (inserted : Inserted isNew left right) :
    Inserted isNew (front ++ left) (front ++ right) := by
  induction front with
  | nil => exact inserted
  | cons element front inductionHypothesis => exact .keep element inductionHypothesis

/-- What is made of new elements is new again. -/
theorem flatMap
    {isNewer : β -> Prop}
    {made : α -> List β}
    (makes : ∀ element, isNew element -> ∃ one, made element = [one] ∧ isNewer one)
    (inserted : Inserted isNew left right) :
    Inserted isNewer (left.flatMap made) (right.flatMap made) := by
  induction inserted with
  | nil => exact .nil
  | keep element _ inductionHypothesis =>
      rw [List.flatMap_cons, List.flatMap_cons]
      exact inductionHypothesis.append_left (made element)
  | insert new _ inductionHypothesis =>
      obtain ⟨one, makesOne, isNewer⟩ := makes _ new
      rw [List.flatMap_cons, makesOne]
      exact .insert isNewer inductionHypothesis

/-- What is found in new elements is new again. -/
theorem filterMap
    {isNewer : β -> Prop}
    {find : α -> Option β}
    (finds : ∀ element, isNew element -> ∃ one, find element = some one ∧ isNewer one)
    (inserted : Inserted isNew left right) :
    Inserted isNewer (left.filterMap find) (right.filterMap find) := by
  rw [List.filterMap_eq_flatMap_toList, List.filterMap_eq_flatMap_toList]
  refine inserted.flatMap fun element new => ?_
  obtain ⟨one, found, isNewer⟩ := finds element new
  exact ⟨one, by rw [found]; rfl, isNewer⟩

/-- Where nothing is found in new elements, the same is found in both lists. -/
theorem filterMap_eq
    {find : α -> Option β}
    (findsNone : ∀ element, isNew element -> find element = none)
    (inserted : Inserted isNew left right) :
    right.filterMap find = left.filterMap find := by
  induction inserted with
  | nil => rfl
  | keep element _ inductionHypothesis =>
      rw [List.filterMap_cons, List.filterMap_cons, inductionHypothesis]
  | insert new _ inductionHypothesis =>
      rw [List.filterMap_cons, findsNone _ new, inductionHypothesis]

/-- The first element that satisfies a condition is the first one from before, or a new
one. -/
theorem find?_cases
    {condition : α -> Bool}
    {first : α}
    (inserted : Inserted isNew left right)
    (found : left.find? condition = some first) :
    ∃ other, right.find? condition = some other ∧ (other = first ∨ isNew other) := by
  induction inserted with
  | nil => cases found
  | keep element _ inductionHypothesis =>
      rw [List.find?_cons] at found ⊢
      cases here : condition element with
      | true =>
          rw [here] at found
          exact ⟨element, rfl, .inl (Option.some.inj found)⟩
      | false =>
          rw [here] at found
          exact inductionHypothesis found
  | insert new _ inductionHypothesis =>
      rw [List.find?_cons]
      cases condition _ with
      | true => exact ⟨_, rfl, .inr new⟩
      | false => exact inductionHypothesis found

end Inserted

/-- Ordering the entries that satisfy a condition leaves out the others. -/
theorem Assembly.filter_inOrder
    {α : Type}
    {entries : List (Binary64 × α)}
    {condition : Binary64 × α -> Bool}
    (distinct : ((entries.filter condition).map Prod.fst).Nodup) :
    (inOrder entries).filter condition = inOrder (entries.filter condition) := by
  have perm := (inOrder_perm entries).filter condition
  rw [<- inOrder_of_pairwise ((pairwise_inOrder entries).filter condition)]
  exact inOrder_eq_of_perm perm ((perm.map Prod.fst).nodup_iff.mpr distinct)

namespace LastSlices

variable {α : Type}

/-- The places with finite numbers are those of what came for finite numbers. -/
theorem places_filter (received : List (Binary64 × α)) :
    places (received.filter fun entry => entry.1.isFinite) =
      (places received).filter Binary64.isFinite := by
  induction received with
  | nil => rfl
  | cons first received inductionHypothesis =>
      rw [places, List.filter_cons]
      cases finite : first.1.isFinite with
      | true =>
          rw [if_pos rfl, places, inductionHypothesis, List.filter_cons, finite, if_pos rfl,
            List.filter_comm]
      | false =>
          rw [if_neg Bool.false_ne_true, List.filter_cons, finite, if_neg Bool.false_ne_true,
            inductionHypothesis, List.filter_filter]
          apply List.filter_congr
          intro place _
          -- a finite place is not numerically equal to one that is not finite
          cases same : first.1.sameNumber place with
          | true =>
              have notFinite : place.isFinite = false := by
                rw [Bool.eq_false_iff]
                intro placeFinite
                rw [Binary64.isFinite_of_sameNumber same placeFinite] at finite
                cases finite
              rw [Bool.not_true, Bool.and_false, notFinite]
          | false => rw [Bool.not_false, Bool.and_true]

/-- What came last for a finite number is the last of what came for finite numbers. -/
theorem lastFor?_filter
    {place : Binary64}
    (received : List (Binary64 × α))
    (finite : place.isFinite = true) :
    lastFor? place (received.filter fun entry => entry.1.isFinite) =
      lastFor? place received := by
  rw [lastFor?, lastFor?, <- List.filter_reverse, List.find?_filter]
  have sameCondition :
      (fun entry : Binary64 × α => decide (entry.1.isFinite ∧ entry.1.sameNumber place)) =
        fun entry => entry.1.sameNumber place := by
    funext entry
    cases same : entry.1.sameNumber place with
    | true => simp [Binary64.isFinite_of_sameNumber same finite]
    | false => simp
  rw [sameCondition]

/-- The last values at finite places are those of what came for finite numbers. -/
theorem lastValues_filter (received : List (Binary64 × α)) :
    lastValues (received.filter fun entry => entry.1.isFinite) =
      (lastValues received).filter fun entry => entry.1.isFinite := by
  rw [lastValues, lastValues, places_filter, List.filterMap_filter, List.filter_filterMap]
  apply List.filterMap_congr
  intro place _
  cases finite : place.isFinite with
  | true =>
      rw [if_pos rfl, lastFor?_filter received finite]
      cases lastFor? place received with
      | none => rfl
      | some value => simp [Option.filter_some, finite]
  | false =>
      rw [if_neg Bool.false_ne_true]
      cases lastFor? place received with
      | none => rfl
      | some value => simp [Option.filter_some, finite]

/-- The places of finite numbers are distinct. -/
theorem nodup_finite_lastValues
    {received : List (Binary64 × α)}
    (finite : ∀ entry ∈ received, entry.1.isFinite = true) :
    ((lastValues received).map Prod.fst).Nodup := by
  have numbers : ∀ entry ∈ received, entry.1.isNaN = false :=
    fun entry member => Binary64.isNaN_of_isFinite (finite entry member)
  have places := map_fst_lastValues numbers
  have apart := pairwise_places received
  rw [<- places, List.pairwise_map] at apart
  refine nodup_finite_places (fun entry member => ?_) apart
  have isPlace := List.mem_map_of_mem (f := Prod.fst) member
  rw [places] at isPlace
  obtain ⟨other, otherMember, same⟩ := exists_mem_of_mem_places isPlace
  rw [<- same]
  exact finite other otherMember

/-- The buckets are those of the slices for finite bounds. -/
theorem buckets_eq (slices : List Slice) :
    buckets slices =
      Assembly.inOrder (lastValues
        ((slices.filterMap Slice.bucket?).filter fun bucket => bucket.1.isFinite)) := by
  have finite : ∀ bucket ∈
      (slices.filterMap Slice.bucket?).filter fun bucket => bucket.1.isFinite,
      bucket.1.isFinite = true := fun bucket member => (List.mem_filter.mp member).2
  have distinct := nodup_finite_lastValues finite
  rw [lastValues_filter] at distinct ⊢
  exact Assembly.filter_inOrder distinct

/-- There are buckets if a slice is one for a finite bound. -/
theorem buckets_ne_nil
    {slices : List Slice}
    {bound : Binary64}
    {count : UInt64}
    (member : .bucket bound count ∈ slices)
    (finite : bound.isFinite = true) :
    buckets slices ≠ [] := by
  have received : (bound, count) ∈
      (slices.filterMap Slice.bucket?).filter fun bucket => bucket.1.isFinite :=
    List.mem_filter.mpr ⟨List.mem_filterMap.mpr ⟨_, member, rfl⟩, finite⟩
  have numbers : ∀ bucket ∈
      (slices.filterMap Slice.bucket?).filter fun bucket => bucket.1.isFinite,
      bucket.1.isNaN = false :=
    fun bucket bucketMember => Binary64.isNaN_of_isFinite (List.mem_filter.mp bucketMember).2
  obtain ⟨place, placeMember, -⟩ := exists_mem_places numbers received
  rw [<- map_fst_lastValues numbers] at placeMember
  obtain ⟨bucket, bucketMember, -⟩ := List.mem_map.mp placeMember
  rw [buckets_eq]
  exact List.ne_nil_of_mem ((Assembly.inOrder_perm _).mem_iff.mpr bucketMember)

/-- The slice is a bucket that holds every observation. -/
def IsInfinite (slice : Slice) : Prop := ∃ count, slice = .bucket .infinity count

variable {left right : List Slice}

/-- The buckets with finite bounds are not those that hold every observation. -/
theorem buckets_inserted (inserted : Inserted IsInfinite left right) :
    buckets right = buckets left := by
  have same : (right.filterMap Slice.bucket?).filter (fun bucket => bucket.1.isFinite) =
      (left.filterMap Slice.bucket?).filter fun bucket => bucket.1.isFinite := by
    rw [List.filter_filterMap, List.filter_filterMap]
    apply inserted.filterMap_eq
    rintro slice ⟨count, rfl⟩
    rfl
  rw [buckets_eq, buckets_eq, same]

/-- A bucket that holds every observation is no total. -/
theorem total?_inserted (inserted : Inserted IsInfinite left right) :
    total? right = total? left := by
  rw [total?, total?, inserted.filterMap_eq]
  rintro slice ⟨count, rfl⟩
  rfl

/-- The data point of a histogram with a count and a finite bucket does not change. -/
theorem histogramPoint_inserted
    (series : Series)
    (inserted : Inserted IsInfinite left right)
    (counted : total? left ≠ none)
    (bounded : buckets left ≠ []) :
    histogramPoint series right = histogramPoint series left := by
  have sameCount : count right = count left := by
    rw [count, count, total?_inserted inserted]
    cases total : total? left with
    | none => exact absurd total counted
    | some total => rfl
  rw [histogramPoint, histogramPoint, sameCount, buckets_inserted inserted,
    total?_inserted inserted, if_neg fun both => bounded both.1,
    if_neg fun both => bounded both.1]

/-- The data point of a summary does not change. -/
theorem summaryPoint_inserted
    (series : Series)
    (inserted : Inserted IsInfinite left right) :
    summaryPoint series right = summaryPoint series left := by
  have sameQuantiles :
      right.filterMap Slice.quantile? = left.filterMap Slice.quantile? := by
    apply inserted.filterMap_eq
    rintro slice ⟨count, rfl⟩
    rfl
  rw [summaryPoint, summaryPoint, total?_inserted inserted, sameQuantiles]

/-- A part of a series that is a bucket that holds every observation, and does not ask for a
summary. -/
def IsInfinitePart (series : Series) (part : SeriesSlice) : Prop :=
  ∃ count, part = ⟨false, series, .bucket .infinity count⟩

/-- The slices of a series are those that its parts state. -/
theorem slicesOf_eq (series : Series) (parts : List SeriesSlice) :
    slicesOf series parts =
      parts.filterMap fun part => if part.series = series then some part.slice else none := by
  rw [slicesOf, <- List.filterMap_eq_map, List.filterMap_filter]
  apply List.filterMap_congr
  intro part _
  by_cases same : part.series = series <;> simp [same]

/-- A data point with a count and a finite bucket does not change. -/
theorem point_inserted
    {series : Series}
    {parts others : List SeriesSlice}
    (inserted : Inserted (IsInfinitePart series) parts others)
    (counted : total? (slicesOf series parts) ≠ none)
    (bounded : buckets (slicesOf series parts) ≠ []) :
    point series others = point series parts := by
  have insertedSlices :
      Inserted IsInfinite (slicesOf series parts) (slicesOf series others) := by
    rw [slicesOf_eq, slicesOf_eq]
    apply inserted.filterMap
    rintro part ⟨count, rfl⟩
    exact ⟨_, if_pos rfl, count, rfl⟩
  have samePreference :
      (∃ part ∈ others, part.preferSummary ∨ part.slice.isQuantile) ↔
        ∃ part ∈ parts, part.preferSummary ∨ part.slice.isQuantile := by
    constructor
    · rintro ⟨part, member, asks⟩
      rcases inserted.of_mem member with before | ⟨count, rfl⟩
      · exact ⟨part, before, asks⟩
      · rcases asks with prefers | isQuantile
        · cases prefers
        · cases isQuantile
    · rintro ⟨part, member, asks⟩
      exact ⟨part, inserted.subset member, asks⟩
  rw [point, point, summaryPoint_inserted series insertedSlices,
    histogramPoint_inserted series insertedSlices counted bounded]
  simp only [samePreference]

end LastSlices

namespace Grouping

variable {arrivals : List Arrival} {resource : Tags} {scope : Scope} {metric : String}

/-- The observation is of the metric. -/
def isOf (resource : Tags) (scope : Scope) (metric : String) (observation : Observation) :
    Bool :=
  observation.resource = resource ∧ observation.scope = scope ∧ observation.metric = metric

/-- A slice of a metric is stated by an observation of the metric. -/
theorem isOf_of_partOf?
    {observation : Observation}
    {part : SeriesSlice}
    (stated : partOf? resource scope metric observation = some part) :
    isOf resource scope metric observation = true ∧
      observation.reading.kind = .assembled := by
  rw [partOf?] at stated
  split at stated
  · rename_i same
    exact ⟨decide_eq_true same, kind_of_slice? stated⟩
  · cases stated

/-- Observations of the same metric as one of the metric are those of the metric. -/
theorem sameMetric_eq_isOf
    {observation : Observation}
    (same : isOf resource scope metric observation = true) :
    sameMetric observation = isOf resource scope metric := by
  obtain ⟨rfl, rfl, rfl⟩ := of_decide_eq_true same
  funext other
  rw [Bool.eq_iff_iff, sameMetric, isOf, Bool.and_eq_true, Bool.and_eq_true, and_assoc,
    decide_eq_true_eq, decide_eq_true_eq, decide_eq_true_eq, decide_eq_true_eq]
  exact and_congr eq_comm (and_congr eq_comm eq_comm)

/-- If a metric has accepted slices, its first observation is one of a slice. -/
theorem find?_isOf_of_acceptedParts
    (nonempty : acceptedParts arrivals resource scope metric ≠ []) :
    ∃ first,
      (observations .sliced arrivals).find? (isOf resource scope metric) = some first ∧
        first.reading.kind = .assembled := by
  rw [acceptedParts, Batch.observations_acceptedArrivals_sliced] at nonempty
  obtain ⟨part, partMember⟩ := List.exists_mem_of_ne_nil _ nonempty
  obtain ⟨observation, observationMember, stated⟩ := List.mem_filterMap.mp partMember
  obtain ⟨member, accepted⟩ := List.mem_filter.mp observationMember
  obtain ⟨same, assembled⟩ := isOf_of_partOf? stated
  have isFirst := refusal_eq_none_iff.mp (Option.isNone_iff_eq_none.mp accepted)
  rw [sameMetric_eq_isOf same] at isFirst
  have some : ((observations .sliced arrivals).find? (isOf resource scope metric)).isSome :=
    List.find?_isSome.mpr ⟨observation, member, same⟩
  obtain ⟨first, found⟩ := Option.isSome_iff_exists.mp some
  exact ⟨first, found, (isFirst first found).trans assembled⟩

/-- If the first observation of a metric is one of a slice, all its slices are accepted. -/
theorem acceptedParts_eq
    {first : Observation}
    (found : (observations .sliced arrivals).find? (isOf resource scope metric) = some first)
    (assembled : first.reading.kind = .assembled) :
    acceptedParts arrivals resource scope metric =
      (observations .sliced arrivals).filterMap (partOf? resource scope metric) := by
  rw [acceptedParts, Batch.observations_acceptedArrivals_sliced, accepted,
    List.filterMap_filter]
  apply List.filterMap_congr
  intro observation _
  cases stated : partOf? resource scope metric observation with
  | none => rw [ite_self]
  | some part =>
      obtain ⟨same, alsoAssembled⟩ := isOf_of_partOf? stated
      refine if_pos (Option.isNone_iff_eq_none.mpr (refusal_eq_none_iff.mpr ?_))
      intro other otherFound
      rw [sameMetric_eq_isOf same, found] at otherFound
      rw [<- Option.some.inj otherFound, assembled, alsoAssembled]

end Grouping

namespace Sliced

/-- A line for the infinite bucket of a series: it is said by a point that does not hint at
a summary, with a tag that spells infinity. -/
structure IsInfiniteLine
    (resource : Tags)
    (scope : Scope)
    (metric : String)
    (series : Series)
    (arrival : Arrival) : Prop where
  hint : arrival.point.hint = .untyped ∨ arrival.point.hint = .histogram
  bound : (arrival.point.tags.find? ReservedName.bucketBound).bind Binary64.ofKey? =
    some .infinity
  reads : ∃ preferSummary slice,
    observations arrival.now arrival.point =
      .ok [⟨resource, scope, metric, .slice preferSummary series slice⟩]

/-- The slice of a bucket has the bound that its tag spells. -/
theorem exists_count_of_bucketSlice
    {fields : Fields}
    {text metric : String}
    {bound : Binary64}
    {slice : Slice}
    (spelled : Binary64.ofKey? text = some bound)
    (read : bucketSlice fields text = .ok (metric, slice)) :
    ∃ count, slice = .bucket bound count := by
  rw [bucketSlice, spelled] at read
  dsimp only at read
  split at read
  · cases read
  · obtain ⟨count, -, made⟩ := exists_of_bind_eq_ok read
    cases made
    exact ⟨count, rfl⟩

/-- A line for an infinite bucket says that bucket, and asks for no summary. -/
theorem IsInfiniteLine.exists_count
    {resource : Tags}
    {scope : Scope}
    {metric : String}
    {series : Series}
    {arrival : Arrival}
    (line : IsInfiniteLine resource scope metric series arrival) :
    ∃ count,
      observations arrival.now arrival.point =
        .ok [⟨resource, scope, metric, .slice false series (.bucket .infinity count)⟩] := by
  obtain ⟨preferSummary, slice, said⟩ := line.reads
  obtain ⟨text, tagged, spelled⟩ := Option.bind_eq_some_iff.mp line.bound
  have typed : typeOf (keyed arrival.point) = sliceHint false := by
    have hint : (keyed arrival.point).hint = arrival.point.hint := rfl
    have selects : (keyed arrival.point).tags.contains ReservedName.bucketBound = true :=
      congrArg Option.isSome tagged
    rcases line.hint with untyped | histogram
    · rw [typeOf, if_neg (not_not_intro (hint.trans untyped)), if_pos (.inl selects)]
      rfl
    · exact typeOf_of_sliceHint (hint.trans histogram)
  have selected : (TagLevels.split (keyed arrival.point).tags).attributes.find?
      ReservedName.bucketBound = some text := by
    rw [TagLevels.find?_attributes_split, if_pos selectors_apart.1]
    exact tagged
  have read := (observations_eq_ok_iff.mp said).2
  rw [observation_of_typeOf _ typed, sliceObservation_eq false _ rfl, selectedSlice, selected]
    at read
  obtain ⟨⟨name, bucket⟩, bucketRead, made⟩ := exists_of_map_eq_ok read
  obtain ⟨count, rfl⟩ := exists_count_of_bucketSlice spelled bucketRead
  cases made
  exact ⟨count, said⟩

end Sliced

namespace Grouping

variable {resource : Tags} {scope : Scope} {metric : String} {series : Series}
  {left right : List Arrival}

/-- An observation of the infinite bucket of a series, which asks for no summary. -/
def IsInfiniteObservation
    (resource : Tags)
    (scope : Scope)
    (metric : String)
    (series : Series)
    (observation : Observation) : Prop :=
  ∃ count,
    observation = ⟨resource, scope, metric, .slice false series (.bucket .infinity count)⟩

/-- Lines for infinite buckets are as many observations of them. -/
theorem inserted_observations
    (inserted : Inserted (Sliced.IsInfiniteLine resource scope metric series) left right) :
    Inserted (IsInfiniteObservation resource scope metric series)
      (observations .sliced left) (observations .sliced right) := by
  refine inserted.flatMap fun arrival line => ?_
  obtain ⟨count, said⟩ := line.exists_count
  have read : Batch.observations .sliced arrival.now arrival.point =
      .ok [⟨resource, scope, metric, .slice false series (.bucket .infinity count)⟩] := said
  exact ⟨_, by rw [read]; rfl, count, rfl⟩

/-- A metric with accepted slices accepts infinite buckets anywhere among them. -/
theorem inserted_acceptedParts
    (inserted : Inserted (Sliced.IsInfiniteLine resource scope metric series) left right)
    (nonempty : acceptedParts left resource scope metric ≠ []) :
    Inserted (LastSlices.IsInfinitePart series) (acceptedParts left resource scope metric)
      (acceptedParts right resource scope metric) := by
  have insertedObservations := inserted_observations inserted
  obtain ⟨first, found, assembled⟩ := find?_isOf_of_acceptedParts nonempty
  obtain ⟨other, otherFound, isFirst⟩ := insertedObservations.find?_cases found
  -- the kind of the metric is that of its first observation, old or new
  have otherAssembled : other.reading.kind = .assembled := by
    rcases isFirst with rfl | ⟨count, rfl⟩
    · exact assembled
    · rfl
  rw [acceptedParts_eq found assembled, acceptedParts_eq otherFound otherAssembled]
  apply insertedObservations.filterMap
  rintro observation ⟨count, rfl⟩
  exact ⟨⟨false, series, .bucket .infinity count⟩, if_pos ⟨rfl, rfl, rfl⟩, count, rfl⟩

end Grouping

namespace Batch

open Grouping

/-- A batch adds points that are processed as histograms, and differ in nothing but fields
whose keys are plus or minus infinity, with the same result. And in the tree of sliced
points, a series with a total and a finite bucket has the same data point, and only that
one, if lines for its infinite bucket are inserted anywhere among the points. -/
theorem infinite_bucket_redundant :
    (∀ (batch : Batch) (now : UInt64) (left right : Point),
      batch.schema = .whole ->
      Whole.typeOf left = .histogram ->
      Whole.withoutInfinite left = Whole.withoutInfinite right ->
      Whole.typeOf right = .histogram ∧ batch.add now left = batch.add now right) ∧
    ∀ (resource : Tags) (scope : Scope) (metric : String) (series : Series)
      (left right : List Arrival),
      Inserted (Sliced.IsInfiniteLine resource scope metric series) left right ->
      (∃ part ∈ acceptedParts left resource scope metric,
        part.series = series ∧ ∃ count sum, part.slice = .total count sum) ->
      (∃ part ∈ acceptedParts left resource scope metric,
        part.series = series ∧
          ∃ bound count, part.slice = .bucket bound count ∧ bound.isFinite = true) ->
      ∃ point,
        (∀ other, MetricTree.HoldsSeries ((empty .sliced).run left).1.finish
          (.of resource scope) metric series other ↔ other = point) ∧
        ∀ other, MetricTree.HoldsSeries ((empty .sliced).run right).1.finish
          (.of resource scope) metric series other ↔ other = point := by
  constructor
  · intro batch now left right whole leftHistogram same
    have rightHistogram : Whole.typeOf right = .histogram := by
      rw [<- Whole.typeOf_withoutInfinite, <- same, Whole.typeOf_withoutInfinite,
        leftHistogram]
    refine ⟨rightHistogram, ?_⟩
    rw [<- add_withoutInfinite now whole leftHistogram, same,
      add_withoutInfinite now whole rightHistogram]
  · intro resource scope metric series left right inserted total bounded
    obtain ⟨totalPart, totalMember, totalSeries, count, sum, isTotal⟩ := total
    obtain ⟨bucketPart, bucketMember, bucketSeries, bound, bucketCount, isBucket, finite⟩ :=
      bounded
    have insertedParts := inserted_acceptedParts inserted (List.ne_nil_of_mem totalMember)
    have slice {part : SeriesSlice}
        (member : part ∈ acceptedParts left resource scope metric)
        (ofSeries : part.series = series) :
        part.slice ∈ LastSlices.slicesOf series (acceptedParts left resource scope metric) :=
      List.mem_map_of_mem (List.mem_filter.mpr ⟨member, decide_eq_true ofSeries⟩)
    have counted :
        LastSlices.total? (LastSlices.slicesOf series
          (acceptedParts left resource scope metric)) ≠ none := by
      have isSlice := slice totalMember totalSeries
      rw [isTotal] at isSlice
      rw [LastSlices.total?, ne_eq, List.getLast?_eq_none_iff]
      exact List.ne_nil_of_mem (List.mem_filterMap.mpr ⟨_, isSlice, rfl⟩)
    have someBucket :
        LastSlices.buckets (LastSlices.slicesOf series
          (acceptedParts left resource scope metric)) ≠ [] := by
      have isSlice := slice bucketMember bucketSeries
      rw [isBucket] at isSlice
      exact LastSlices.buckets_ne_nil isSlice finite
    have leftSeries :
        series ∈ (acceptedParts left resource scope metric).map SeriesSlice.series :=
      List.mem_map.mpr ⟨totalPart, totalMember, totalSeries⟩
    have rightSeries :
        series ∈ (acceptedParts right resource scope metric).map SeriesSlice.series :=
      List.map_subset SeriesSlice.series insertedParts.subset leftSeries
    refine ⟨LastSlices.point series (acceptedParts left resource scope metric),
      fun other => ?_, fun other => ?_⟩
    · rw [holdsSeries_run_iff, and_iff_right leftSeries]
    · rw [holdsSeries_run_iff, and_iff_right rightSeries,
        LastSlices.point_inserted insertedParts counted someBucket]

/-- A text for an infinite bucket leaves a histogram as it is, and so do two lines for one,
in front of the other lines and between them. -/
theorem infinite_bucket_redundant_lag :
    let whole (fields : List (String × FieldValue)) : Point := {
      measurement := "lag"
      fields := .ofList fields
      time := 5
      hint := .histogram }
    let line (tags : List (String × String)) (fields : List (String × FieldValue)) :
        Arrival :=
      ⟨9, {
        measurement := "prometheus"
        tags := .ofList tags
        fields := .ofList fields
        time := 5 }⟩
    let bucket := line [("le", "1")] [("lag_bucket", .int 3)]
    let total := line [] [("lag_count", .int 4), ("lag_sum", .int 7)]
    let left := [bucket, total]
    let right := [line [("le", "+Inf")] [("lag_bucket", .int 9)], bucket,
      line [("le", "1e999")] [("lag_bucket", .int 2)], total]
    (empty .whole).add 9 (whole [("1", .int 3), ("count", .int 4), ("sum", .int 7)]) =
        (empty .whole).add 9
          (whole [("1", .int 3), ("Inf", .text "all"), ("count", .int 4), ("sum", .int 7)]) ∧
      ∃ point,
        (∀ other, MetricTree.HoldsSeries ((empty .sliced).run left).1.finish
          (.of ∅ ⟨"", ""⟩) "lag" ⟨5, ∅⟩ other ↔ other = point) ∧
        ∀ other, MetricTree.HoldsSeries ((empty .sliced).run right).1.finish
          (.of ∅ ⟨"", ""⟩) "lag" ⟨5, ∅⟩ other ↔ other = point := by
  intro whole line bucket total left right
  have parts : acceptedParts left ∅ ⟨"", ""⟩ "lag" =
      [⟨false, ⟨5, ∅⟩, .bucket ⟨0x3ff0000000000000⟩ 3⟩,
        ⟨false, ⟨5, ∅⟩, .total 4 ⟨0x401c000000000000⟩⟩] := by decide +kernel
  refine ⟨(infinite_bucket_redundant.1 (empty .whole) 9 _ _ rfl rfl (by decide +kernel)).2,
    infinite_bucket_redundant.2 ∅ ⟨"", ""⟩ "lag" ⟨5, ∅⟩ left right ?_ ?_ ?_⟩
  · refine .insert ⟨.inl rfl, by decide +kernel, false, .bucket .infinity 9, rfl⟩
      (.keep bucket (.insert ⟨.inl rfl, by decide +kernel, false, .bucket .infinity 2, rfl⟩
        (.keep total .nil)))
  · rw [parts]
    exact ⟨_, .tail _ (.head _), rfl, _, _, rfl⟩
  · rw [parts]
    exact ⟨_, .head _, rfl, _, _, rfl, by decide⟩

end Batch
end LineMetrics
