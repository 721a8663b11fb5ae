import LineMetrics.Proofs.NumericOrder
import LineMetrics.Proofs.Reassembling
import LineMetrics.Proofs.WholeDistributions

/-!
# What whole distributions say

A histogram or a summary that comes as a whole says one data point, made of the count,
the sum and the parts that its fields state. Its places are finite numbers in ascending
order, and the bounds of a histogram are also numerically different.
-/

namespace LineMetrics

namespace HistogramPoint

/-- A data point with buckets in ascending order, closed by its count. -/
def ofBuckets
    (attributes : List Attribute)
    (time count : UInt64)
    (sum : Option Binary64)
    (buckets : List (Binary64 × UInt64)) : HistogramPoint where
  attributes := attributes
  time := time
  count := count
  sum := sum
  counts := Buckets.perBucket (buckets.map Prod.snd ++ [count])
  bounds := buckets.map Prod.fst

/-- There is one more count than there are bounds. -/
theorem length_counts_ofBuckets
    (attributes : List Attribute)
    (time count : UInt64)
    (sum : Option Binary64)
    (buckets : List (Binary64 × UInt64)) :
    (ofBuckets attributes time count sum buckets).counts.length =
      (ofBuckets attributes time count sum buckets).bounds.length + 1 := by
  rw [ofBuckets, Buckets.length_perBucket, List.length_append, List.length_map,
    List.length_map, List.length_singleton]

end HistogramPoint

namespace SummaryPoint

/-- A data point with quantiles in ascending order. -/
def ofQuantiles
    (attributes : List Attribute)
    (time count : UInt64)
    (sum : Binary64)
    (quantiles : List (Binary64 × Binary64)) : SummaryPoint where
  attributes := attributes
  time := time
  count := count
  sum := sum
  quantiles := quantiles.map fun (quantile, value) => ⟨quantile, value⟩

end SummaryPoint

namespace Whole

variable {α : Type}

/-- Stated parts are at finite places. -/
theorem isFinite_of_mem_statedParts
    {readPart : String -> FieldValue -> Except Error α}
    {entries : List (String × FieldValue)}
    {part : Binary64 × α}
    (member : part ∈ entries.filterMap (statedPart? readPart)) :
    part.1.isFinite = true := by
  obtain ⟨entry, -, stated⟩ := List.mem_filterMap.mp member
  exact (Option.filter_eq_some_iff.mp (statedPart?_eq_some stated).1).2

/-- The parts of a distribution are at finite places in ascending order. -/
theorem places_of_distribution
    {kind : Distribution}
    {readPart : String -> FieldValue -> Except Error α}
    {point : Point}
    {count : UInt64}
    {sum : Binary64}
    {parts : List (Binary64 × α)}
    (read : distribution kind readPart point = .ok (count, sum, parts)) :
    (∀ place ∈ parts.map Prod.fst, place.isFinite = true) ∧
      (parts.map Prod.fst).Pairwise fun left right => left.totalLE right = true := by
  obtain ⟨-, -, -, rfl⟩ := distribution_eq_ok_iff.mp read
  constructor
  · intro place member
    obtain ⟨part, partMember, rfl⟩ := List.mem_map.mp member
    rw [(Assembly.inOrder_perm _).mem_iff] at partMember
    exact isFinite_of_mem_statedParts partMember
  · exact List.pairwise_map.mpr (Assembly.pairwise_inOrder _)

/-- The places of stated parts are those that the keys of the fields state. -/
theorem map_fst_statedParts
    {readPart : String -> FieldValue -> Except Error α}
    {fields : Fields}
    (states : StatesParts readPart fields.entries) :
    (fields.entries.filterMap (statedPart? readPart)).map Prod.fst =
      fields.keys.filterMap Binary64.ofFiniteKey? := by
  rw [List.map_filterMap, Dictionary.keys, List.filterMap_map]
  apply List.filterMap_congr
  intro entry member
  rw [statedPart?, Function.comp_apply]
  cases isPlace : Binary64.ofFiniteKey? entry.1 with
  | none => rfl
  | some place =>
      obtain ⟨part, read⟩ := exists_of_isOk (states entry member place isPlace)
      rw [read]
      rfl

/-- The places of a distribution are numerically different exactly if the keys of the fields
state no number twice. -/
theorem apart_places_iff
    {kind : Distribution}
    {readPart : String -> FieldValue -> Except Error α}
    {point : Point}
    {count : UInt64}
    {sum : Binary64}
    {parts : List (Binary64 × α)}
    (read : distribution kind readPart point = .ok (count, sum, parts)) :
    ((parts.map Prod.fst).Pairwise fun left right => left.sameNumber right = false) ↔
      (point.fields.keys.filterMap Binary64.ofFiniteKey?).Pairwise fun left right =>
        left.sameNumber right = false := by
  obtain ⟨states, -, -, rfl⟩ := distribution_eq_ok_iff.mp read
  -- sorting the stated parts only moves them
  have perm := (Assembly.inOrder_perm
    (point.fields.entries.filterMap (statedPart? readPart))).map Prod.fst
  rw [<- map_fst_statedParts states]
  exact perm.pairwise_iff fun {left right} apart =>
    (Binary64.sameNumber_comm right left).trans apart

/-- Ascending finite places that differ from their neighbours all differ. -/
theorem firstRepeated?_eq_none_iff
    {places : List Binary64}
    (finite : ∀ place ∈ places, place.isFinite = true)
    (ascending : places.Pairwise fun left right => left.totalLE right = true) :
    firstRepeated? places = none ↔ OrderedPlaces places := by
  induction places with
  | nil => exact iff_of_true rfl .nil
  | cons first rest inductionHypothesis =>
      obtain ⟨firstFinite, restFinite⟩ := List.forall_mem_cons.mp finite
      obtain ⟨firstBelow, restAscending⟩ := List.pairwise_cons.mp ascending
      have behind := inductionHypothesis restFinite restAscending
      cases rest with
      | nil => exact iff_of_true rfl (List.pairwise_singleton _ _)
      | cons second others =>
          have secondFinite := restFinite second (.head _)
          rw [firstRepeated?, OrderedPlaces, List.pairwise_cons]
          cases same : first.sameNumber second with
          | true =>
              rw [if_pos rfl]
              refine iff_of_false (Option.some_ne_none _) fun ordered => ?_
              have apart := (ordered.1 second (.head _)).2
              rw [same] at apart
              cases apart
          | false =>
              rw [if_neg Bool.false_ne_true, behind]
              refine ⟨fun ordered => ⟨fun later member => ?_, ordered⟩, And.right⟩
              refine ⟨firstBelow later member, ?_⟩
              rcases List.mem_cons.mp member with rfl | isLater
              · exact same
              · have laterFinite := restFinite later (.tail _ isLater)
                have step := Binary64.inUnits_lt firstFinite secondFinite
                  (firstBelow second (.head _)) same
                obtain ⟨below, apart⟩ := (List.pairwise_cons.mp ordered).1 later isLater
                have next := Binary64.inUnits_lt secondFinite laterFinite below apart
                rw [Bool.eq_false_iff, ne_eq,
                  Binary64.sameNumber_iff_inUnits firstFinite laterFinite]
                exact ne_of_lt (step.trans next)

/-- A point says a histogram exactly if it states a distribution whose bounds are
numerically different. -/
theorem histogramObservation_eq_ok_iff
    {point : Point}
    {time : UInt64}
    {observation : Observation} :
    histogramObservation point time = .ok observation ↔
      ∃ count sum buckets,
        distribution .histogram (fun key value => value.toCount key) point =
            .ok (count, sum, buckets) ∧
          OrderedPlaces (buckets.map Prod.fst) ∧
          observation = .under (TagLevels.split point.tags) point.measurement
            (.histogram <| .ofBuckets
              (Attribute.ofTags (TagLevels.split point.tags).attributes)
              time count (some sum) buckets) := by
  rw [histogramObservation]
  constructor
  · intro succeeds
    obtain ⟨⟨count, sum, buckets⟩, read, made⟩ := exists_of_bind_eq_ok succeeds
    obtain ⟨finite, ascending⟩ := places_of_distribution read
    dsimp only at made
    split at made
    · cases made
    · rename_i different
      exact ⟨count, sum, buckets, read,
        (firstRepeated?_eq_none_iff finite ascending).mp different,
        (Except.ok.inj made).symm⟩
  · rintro ⟨count, sum, buckets, read, ordered, rfl⟩
    obtain ⟨finite, ascending⟩ := places_of_distribution read
    rw [read]
    change (pure (count, sum, buckets) >>= _) = _
    rw [pure_bind]
    dsimp only
    rw [(firstRepeated?_eq_none_iff finite ascending).mpr ordered]
    rfl

/-- A point says a summary exactly if it states a distribution. -/
theorem summaryObservation_eq_ok_iff
    {point : Point}
    {time : UInt64}
    {observation : Observation} :
    summaryObservation point time = .ok observation ↔
      ∃ count sum quantiles,
        distribution .summary (fun key value => value.toDouble key) point =
            .ok (count, sum, quantiles) ∧
          observation = .under (TagLevels.split point.tags) point.measurement
            (.summary <| .ofQuantiles
              (Attribute.ofTags (TagLevels.split point.tags).attributes)
              time count sum quantiles) := by
  rw [summaryObservation]
  constructor
  · intro succeeds
    obtain ⟨⟨count, sum, quantiles⟩, read, made⟩ := exists_of_bind_eq_ok succeeds
    exact ⟨count, sum, quantiles, read, (Except.ok.inj made).symm⟩
  · rintro ⟨count, sum, quantiles, read, rfl⟩
    rw [read]
    rfl

/-- A field holds a metric exactly if it is numeric and has a key that is not reserved. -/
theorem map_fst_fieldNumber? (measurement : String) (entry : String × FieldValue) :
    (fieldNumber? measurement entry).map Prod.fst =
      if entry.2.isNumeric && entry.1 ≠ ReservedName.startTime && entry.1 ≠ "" then
        some (measurement ++ "_" ++ entry.1)
      else none := by
  obtain ⟨key, value⟩ := entry
  rw [fieldNumber?]
  by_cases reserved : key = ReservedName.startTime ∨ key = ""
  · rw [if_pos reserved]
    rcases reserved with rfl | rfl <;> simp
  · rw [if_neg reserved]
    obtain ⟨notStart, notEmpty⟩ := not_or.mp reserved
    cases value <;> simp [FieldValue.toNumber, FieldValue.isNumeric, notStart, notEmpty,
      Except.toOption]

/-- The observations of a gauge or a counter have one number each. -/
theorem exists_of_mem_numberObservations
    {point : Point}
    {time start : UInt64}
    {valueField : String}
    {reading : NumberPoint -> Reading}
    {result : List Observation}
    {observation : Observation}
    (read : numberObservations point time valueField start reading = .ok result)
    (member : observation ∈ result) :
    ∃ metric number,
      observation = .under (TagLevels.split point.tags) metric
        (reading ⟨Attribute.ofTags (TagLevels.split point.tags).attributes, start, time,
          some number⟩) := by
  obtain ⟨named, -, made⟩ := exists_of_bind_eq_ok read
  cases made
  obtain ⟨⟨metric, number⟩, -, rfl⟩ := List.mem_map.mp member
  exact ⟨metric, number, rfl⟩

/-- What a whole point says about a metric at some time: one number, or a distribution
whose places are finite and in order. The attributes have the keys of attributes, and
the one that selects the temporality of a counter is not among them. -/
inductive Reads (time : UInt64) : Reading -> Prop
  | gauge
      (tags : Tags)
      (number : Number)
      (attributes : ∀ key, tags.contains key -> TagLevels.isAttributeLevel key) :
      Reads time (.gauge ⟨Attribute.ofTags tags, 0, time, some number⟩)
  | sum
      (temporality : Temporality)
      (tags : Tags)
      (start : UInt64)
      (number : Number)
      (attributes : ∀ key, tags.contains key -> TagLevels.isAttributeLevel key)
      (unmarked : tags.find? ReservedName.temporality = none) :
      Reads time (.sum temporality ⟨Attribute.ofTags tags, start, time, some number⟩)
  | histogram
      (tags : Tags)
      (count : UInt64)
      (sum : Binary64)
      (buckets : List (Binary64 × UInt64))
      (attributes : ∀ key, tags.contains key -> TagLevels.isAttributeLevel key)
      (finite : ∀ bound ∈ buckets.map Prod.fst, bound.isFinite = true)
      (ordered : OrderedPlaces (buckets.map Prod.fst)) :
      Reads time
        (.histogram (.ofBuckets (Attribute.ofTags tags) time count (some sum) buckets))
  | summary
      (tags : Tags)
      (count : UInt64)
      (sum : Binary64)
      (quantiles : List (Binary64 × Binary64))
      (attributes : ∀ key, tags.contains key -> TagLevels.isAttributeLevel key)
      (finite : ∀ quantile ∈ quantiles.map Prod.fst, quantile.isFinite = true)
      (ascending : (quantiles.map Prod.fst).Pairwise fun left right =>
        left.totalLE right = true) :
      Reads time (.summary (.ofQuantiles (Attribute.ofTags tags) time count sum quantiles))

/-- A whole point says no slice. -/
theorem Reads.slice?_eq_none
    {time : UInt64}
    {reading : Reading}
    (reads : Reads time reading) :
    reading.slice? = none := by
  cases reads <;> rfl

/-- No metric of slices comes from a whole point. -/
theorem Reads.kind_ne_assembled
    {time : UInt64}
    {reading : Reading}
    (reads : Reads time reading) :
    reading.kind ≠ .assembled := by
  intro assembled
  cases reads <;> cases assembled

/-- An observation that a whole point can hold. -/
structure Admissible (time : UInt64) (observation : Observation) : Prop where
  resource : ∀ key, observation.resource.contains key -> TagLevels.isResourceLevel key
  reading : Reads time observation.reading

/-- What a whole point says can be said. -/
theorem admissible_of_mem_observations
    {now : UInt64}
    {point : Point}
    {result : List Observation}
    {observation : Observation}
    (read : observations now point = .ok result)
    (member : observation ∈ result) :
    Admissible (point.timeOr now) observation := by
  have separated := TagLevels.separated_split point.tags
  rw [observations] at read
  split at read
  · obtain ⟨metric, number, rfl⟩ := exists_of_mem_numberObservations read member
    exact ⟨separated.resource, .gauge _ number separated.attributes⟩
  · obtain ⟨metric, number, rfl⟩ := exists_of_mem_numberObservations read member
    exact ⟨separated.resource, .gauge _ number separated.attributes⟩
  · have unmarked :
        (TagLevels.split (point.tags.erase ReservedName.temporality)).attributes.find?
          ReservedName.temporality = none := by
      rw [TagLevels.find?_attributes_split, Dictionary.find?_erase, if_pos rfl, ite_self]
    have separated := TagLevels.separated_split (point.tags.erase ReservedName.temporality)
    obtain ⟨metric, number, rfl⟩ := exists_of_mem_numberObservations read member
    exact ⟨separated.resource, .sum _ _ _ number separated.attributes unmarked⟩
  · obtain ⟨said, histogram, rfl⟩ := exists_of_map_eq_ok read
    obtain ⟨count, sum, buckets, stated, ordered, rfl⟩ :=
      histogramObservation_eq_ok_iff.mp histogram
    rw [List.mem_singleton.mp member]
    exact ⟨separated.resource, .histogram _ count sum buckets separated.attributes
      (places_of_distribution stated).1 ordered⟩
  · obtain ⟨said, summary, rfl⟩ := exists_of_map_eq_ok read
    obtain ⟨count, sum, quantiles, stated, rfl⟩ := summaryObservation_eq_ok_iff.mp summary
    obtain ⟨finite, ascending⟩ := places_of_distribution stated
    rw [List.mem_singleton.mp member]
    exact ⟨separated.resource, .summary _ count sum quantiles separated.attributes finite
      ascending⟩

/-- A point that says a histogram says nothing else. -/
theorem histogramObservation_of_mem_observations
    {now : UInt64}
    {point : Point}
    {result : List Observation}
    {observation : Observation}
    {histogram : HistogramPoint}
    (read : observations now point = .ok result)
    (member : observation ∈ result)
    (found : observation.reading.histogram? = some histogram) :
    result = [observation] ∧
      histogramObservation point (point.timeOr now) = .ok observation := by
  rw [observations] at read
  split at read
  · obtain ⟨metric, number, rfl⟩ := exists_of_mem_numberObservations read member
    cases found
  · obtain ⟨metric, number, rfl⟩ := exists_of_mem_numberObservations read member
    cases found
  · obtain ⟨metric, number, rfl⟩ := exists_of_mem_numberObservations read member
    cases found
  · obtain ⟨said, histogram, rfl⟩ := exists_of_map_eq_ok read
    cases List.mem_singleton.mp member
    exact ⟨rfl, histogram⟩
  · obtain ⟨said, summary, rfl⟩ := exists_of_map_eq_ok read
    obtain ⟨count, sum, quantiles, -, rfl⟩ := summaryObservation_eq_ok_iff.mp summary
    cases List.mem_singleton.mp member
    cases found

/-- A point that says a summary says nothing else. -/
theorem summaryObservation_of_mem_observations
    {now : UInt64}
    {point : Point}
    {result : List Observation}
    {observation : Observation}
    {summary : SummaryPoint}
    (read : observations now point = .ok result)
    (member : observation ∈ result)
    (found : observation.reading.summary? = some summary) :
    result = [observation] ∧
      summaryObservation point (point.timeOr now) = .ok observation := by
  rw [observations] at read
  split at read
  · obtain ⟨metric, number, rfl⟩ := exists_of_mem_numberObservations read member
    cases found
  · obtain ⟨metric, number, rfl⟩ := exists_of_mem_numberObservations read member
    cases found
  · obtain ⟨metric, number, rfl⟩ := exists_of_mem_numberObservations read member
    cases found
  · obtain ⟨said, histogram, rfl⟩ := exists_of_map_eq_ok read
    obtain ⟨count, sum, buckets, -, -, rfl⟩ := histogramObservation_eq_ok_iff.mp histogram
    cases List.mem_singleton.mp member
    cases found
  · obtain ⟨said, summary, rfl⟩ := exists_of_map_eq_ok read
    cases List.mem_singleton.mp member
    exact ⟨rfl, summary⟩

end Whole
end LineMetrics
