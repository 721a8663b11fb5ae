import LineMetrics.Grouping
import LineMetrics.Proofs.Computations
import LineMetrics.Proofs.Tags
import Mathlib.Data.List.Basic

/-!
# What sliced points can say

Everything that is read from a sliced point meets some conditions: the tags stand on
the levels of their keys, a gauge, a counter and a quantile have the name of a metric,
a bound is a number, and a quantile is a finite one. These are what allows a data point
to be written as points and to be read again.
-/

namespace LineMetrics

namespace Grouping

/-- An observation of points is one of those of one point that can be read. -/
theorem exists_of_mem_observations
    {schema : Schema}
    {arrivals : List Arrival}
    {observation : Observation}
    (member : observation ∈ observations schema arrivals) :
    ∃ arrival ∈ arrivals, ∃ result,
      Batch.observations schema arrival.now arrival.point = .ok result ∧
        observation ∈ result := by
  obtain ⟨arrival, arrivalMember, said⟩ := List.mem_flatMap.mp member
  refine ⟨arrival, arrivalMember, ?_⟩
  cases read : Batch.observations schema arrival.now arrival.point with
  | error error =>
      rw [read] at said
      cases said
  | ok result =>
      rw [read] at said
      exact ⟨result, rfl, said⟩

end Grouping

namespace Binary64

/-- A magnitude up to that of infinity is that of a number. -/
theorem isNaN_ofMagnitude
    (negative : Bool)
    {magnitude : Nat}
    (number : magnitude ≤ infiniteMagnitude) :
    (ofMagnitude negative magnitude).isNaN = false := by
  have small : magnitude < signWeight := Nat.lt_of_le_of_lt number (by decide)
  rw [isNaN, magnitude_ofMagnitude negative small, decide_eq_false_iff_not]
  exact Nat.not_lt.mpr number

/-- A key never states a NaN. -/
theorem isNaN_of_ofKey?
    {key : String}
    {number : Binary64}
    (stated : ofKey? key = some number) :
    number.isNaN = false := by
  rw [ofKey?, read?] at stated
  dsimp only at stated
  split at stated
  · cases stated
    exact isNaN_ofMagnitude _ (Nat.le_refl _)
  · rw [Option.map_eq_some_iff] at stated
    obtain ⟨decimal, -, rfl⟩ := stated
    exact isNaN_ofMagnitude _ decimal.nearest_le

end Binary64

namespace Slice

/-- The number of a bucket is not NaN, and that of a quantile is finite and belongs to
a metric with a name. -/
def IsReadable (metric : String) : Slice -> Prop
  | .bucket bound _ => bound.isNaN = false
  | .quantile place _ => place.isFinite = true ∧ metric ≠ ""
  | .total .. => True

end Slice

namespace Sliced

/-- The attributes of a slice: no tag that selects the slice is one. -/
structure SeriesTags (tags : Tags) : Prop where
  attributes : ∀ key, tags.contains key -> TagLevels.isAttributeLevel key
  noBound : tags.find? ReservedName.bucketBound = none
  noQuantile : tags.find? ReservedName.quantile = none

/-- The readings of a metric that sliced points can hold. -/
inductive Reads (metric : String) : Reading -> Prop
  | gauge
      (tags : Tags)
      (time : UInt64)
      (number : Number)
      (named : metric ≠ "")
      (timed : time ≠ 0)
      (attributes : ∀ key, tags.contains key -> TagLevels.isAttributeLevel key) :
      Reads metric (.gauge ⟨Attribute.ofTags tags, 0, time, some number⟩)
  | sum
      (tags : Tags)
      (time : UInt64)
      (number : Number)
      (named : metric ≠ "")
      (timed : time ≠ 0)
      (attributes : ∀ key, tags.contains key -> TagLevels.isAttributeLevel key) :
      Reads metric (.sum .cumulative ⟨Attribute.ofTags tags, 0, time, some number⟩)
  | slice
      (preferSummary : Bool)
      (series : Series)
      (slice : Slice)
      (timed : series.time ≠ 0)
      (attributes : SeriesTags series.attributes)
      (readable : slice.IsReadable metric) :
      Reads metric (.slice preferSummary series slice)

/-- An observation that a sliced point can hold. -/
structure Admissible (observation : Observation) : Prop where
  resource : ∀ key, observation.resource.contains key -> TagLevels.isResourceLevel key
  reading : Reads observation.metric observation.reading

theorem isReadable_of_bucketSlice
    {fields : Fields}
    {bound metric : String}
    {slice : Slice}
    (read : bucketSlice fields bound = .ok (metric, slice)) :
    slice.IsReadable metric := by
  rw [bucketSlice] at read
  split at read
  · cases read
  · rename_i number stated
    dsimp only at read
    split at read
    · cases read
    · obtain ⟨count, -, made⟩ := exists_of_bind_eq_ok read
      cases made
      exact Binary64.isNaN_of_ofKey? stated

theorem isReadable_of_quantileSlice
    {fields : Fields}
    {quantile metric : String}
    {slice : Slice}
    (named : ∀ entry ∈ fields.entries, entry.1 ≠ "")
    (read : quantileSlice fields quantile = .ok (metric, slice)) :
    slice.IsReadable metric := by
  rw [quantileSlice] at read
  split at read
  · cases read
  · rename_i number stated
    split at read
    · cases read
    · rename_i key value entries
      obtain ⟨double, -, made⟩ := exists_of_bind_eq_ok read
      cases made
      exact ⟨(Option.filter_eq_some_iff.mp stated).2,
        named _ (entries ▸ List.mem_cons_self)⟩
    · cases read

theorem isReadable_of_totalSlice
    {fields : Fields}
    {metric : String}
    {slice : Slice}
    (read : totalSlice fields = .ok (metric, slice)) :
    slice.IsReadable metric := by
  rw [totalSlice] at read
  dsimp only at read
  split at read
  · obtain ⟨count, -, counted⟩ := exists_of_bind_eq_ok read
    obtain ⟨sum, -, made⟩ := exists_of_bind_eq_ok counted
    cases made
    exact trivial
  · cases read
  · split at read <;> cases read

/-- The tags that select a slice are not in the attributes of its series. -/
theorem seriesTags_erase
    {tags : Tags}
    (attributes : ∀ key, tags.contains key -> TagLevels.isAttributeLevel key) :
    SeriesTags ((tags.erase ReservedName.bucketBound).erase ReservedName.quantile) := by
  refine ⟨fun key present => attributes key ?_, ?_, ?_⟩
  · rw [Dictionary.contains, Dictionary.find?_erase, Dictionary.find?_erase] at present
    split at present
    · cases present
    · split at present
      · cases present
      · exact present
  · rw [Dictionary.find?_erase, Dictionary.find?_erase, if_pos rfl, ite_self]
  · rw [Dictionary.find?_erase, if_pos rfl]

/-- The observation of a slice is of its series, and can be read. -/
theorem exists_of_sliceObservation
    {preferSummary : Bool}
    {point : Point}
    {time : UInt64}
    {observation : Observation}
    (named : ∀ entry ∈ point.fields.entries, entry.1 ≠ "")
    (read : sliceObservation preferSummary point time = .ok observation) :
    ∃ metric slice,
      slice.IsReadable metric ∧
        observation = .under (TagLevels.split point.tags) metric
          (.slice preferSummary
            ⟨time,
              ((TagLevels.split point.tags).attributes.erase
                ReservedName.bucketBound).erase ReservedName.quantile⟩
            slice) := by
  rw [sliceObservation] at read
  dsimp only at read
  split at read
  · obtain ⟨⟨metric, slice⟩, sliced, made⟩ := exists_of_bind_eq_ok read
    exact ⟨metric, slice, isReadable_of_bucketSlice sliced, (Except.ok.inj made).symm⟩
  · obtain ⟨⟨metric, slice⟩, sliced, made⟩ := exists_of_bind_eq_ok read
    exact ⟨metric, slice, isReadable_of_quantileSlice named sliced,
      (Except.ok.inj made).symm⟩
  · obtain ⟨⟨metric, slice⟩, sliced, made⟩ := exists_of_bind_eq_ok read
    exact ⟨metric, slice, isReadable_of_totalSlice sliced, (Except.ok.inj made).symm⟩

/-- The observation of a gauge or a counter has its number. -/
theorem exists_of_numberObservation
    {kind : String}
    {reading : NumberPoint -> Reading}
    {point : Point}
    {time : UInt64}
    {observation : Observation}
    (named : ∀ entry ∈ point.fields.entries, entry.1 ≠ "")
    (read : numberObservation kind reading point time = .ok observation) :
    ∃ metric number,
      metric ≠ "" ∧
        observation = .under (TagLevels.split point.tags) metric
          (reading ⟨Attribute.ofTags (TagLevels.split point.tags).attributes, 0, time,
            some number⟩) := by
  rw [numberObservation] at read
  split at read
  · rename_i metric value entries
    obtain ⟨number, -, made⟩ := exists_of_bind_eq_ok read
    exact ⟨metric, number, named _ (entries ▸ List.mem_cons_self),
      (Except.ok.inj made).symm⟩
  · cases read

/-- What a slice says can be said. -/
theorem admissible_of_sliceObservation
    {preferSummary : Bool}
    {point : Point}
    {time : UInt64}
    {observation : Observation}
    (named : ∀ entry ∈ point.fields.entries, entry.1 ≠ "")
    (timed : time ≠ 0)
    (read : sliceObservation preferSummary point time = .ok observation) :
    Admissible observation := by
  have separated := TagLevels.separated_split point.tags
  obtain ⟨metric, slice, readable, rfl⟩ := exists_of_sliceObservation named read
  exact ⟨separated.resource,
    .slice _ _ _ timed (seriesTags_erase separated.attributes) readable⟩

/-- What a gauge or a counter says can be said. -/
theorem admissible_of_numberObservation
    {kind : String}
    {reading : NumberPoint -> Reading}
    {point : Point}
    {time : UInt64}
    {observation : Observation}
    (reads : ∀ metric tags number, metric ≠ "" ->
      (∀ key, tags.contains key -> TagLevels.isAttributeLevel key) ->
        Reads metric (reading ⟨Attribute.ofTags tags, 0, time, some number⟩))
    (named : ∀ entry ∈ point.fields.entries, entry.1 ≠ "")
    (read : numberObservation kind reading point time = .ok observation) :
    Admissible observation := by
  have separated := TagLevels.separated_split point.tags
  obtain ⟨metric, number, nonempty, rfl⟩ := exists_of_numberObservation named read
  exact ⟨separated.resource, reads _ _ number nonempty separated.attributes⟩

/-- The point without the fields that have no key. -/
def keyed (point : Point) : Point :=
  { point with fields := point.fields.filter fun key _ => key ≠ "" }

/-- A point with the common measurement says what it says without the fields that have no
key. -/
theorem observations_eq_ok_iff
    {now : UInt64}
    {point : Point}
    {observation : Observation} :
    observations now point = .ok [observation] ↔
      point.measurement = ReservedName.prometheus ∧
        Sliced.observation (keyed point) (point.timeOr now) = .ok observation := by
  rw [observations]
  by_cases measured : point.measurement = ReservedName.prometheus
  · rw [if_neg (not_not_intro measured), and_iff_right measured]
    constructor
    · intro read
      obtain ⟨result, readResult, singleton⟩ := exists_of_map_eq_ok read
      cases singleton
      exact readResult
    · intro read
      exact congrArg (Except.map ([·])) read
  · rw [if_pos measured]
    exact iff_of_false (fun read => nomatch read) fun both => measured both.1

/-- A point says what it says without the fields that have no key. -/
theorem exists_of_observations
    {now : UInt64}
    {point : Point}
    {observation : Observation}
    (read : observations now point = .ok [observation]) :
    ∃ kept : Point,
      (∀ entry ∈ kept.fields.entries, entry.1 ≠ "") ∧
        Sliced.observation kept (point.timeOr now) = .ok observation := by
  refine ⟨keyed point, fun entry member => ?_, (observations_eq_ok_iff.mp read).2⟩
  exact of_decide_eq_true (List.mem_filter.mp member).2

/-- What a sliced point says can be said. -/
theorem admissible_of_observations
    {now : UInt64}
    {point : Point}
    {observation : Observation}
    (timed : point.time ≠ 0)
    (read : observations now point = .ok [observation]) :
    Admissible observation := by
  have timedHere : point.timeOr now ≠ 0 := by
    rw [Point.timeOr, if_neg timed]
    exact timed
  obtain ⟨kept, named, readKept⟩ := exists_of_observations read
  rw [Sliced.observation] at readKept
  split at readKept
  · cases readKept
  · exact admissible_of_numberObservation
      (fun metric tags number some levels => .gauge tags _ number some timedHere levels)
      named readKept
  · exact admissible_of_numberObservation
      (fun metric tags number some levels => .sum tags _ number some timedHere levels)
      named readKept
  · exact admissible_of_sliceObservation named timedHere readKept
  · exact admissible_of_sliceObservation named timedHere readKept

/-- A sliced point says no whole histogram, and a slice that it says can be read. -/
theorem slices_of_observations
    {now : UInt64}
    {point : Point}
    {observation : Observation}
    (read : observations now point = .ok [observation]) :
    observation.reading.histogram? = none ∧
      ∀ part, observation.reading.slice? = some part ->
        part.slice.IsReadable observation.metric := by
  obtain ⟨kept, named, readKept⟩ := exists_of_observations read
  rw [Sliced.observation] at readKept
  split at readKept
  · cases readKept
  · obtain ⟨metric, number, -, rfl⟩ := exists_of_numberObservation named readKept
    exact ⟨rfl, fun part sliced => nomatch sliced⟩
  · obtain ⟨metric, number, -, rfl⟩ := exists_of_numberObservation named readKept
    exact ⟨rfl, fun part sliced => nomatch sliced⟩
  · obtain ⟨metric, slice, readable, rfl⟩ := exists_of_sliceObservation named readKept
    exact ⟨rfl, fun part sliced => by cases sliced; exact readable⟩
  · obtain ⟨metric, slice, readable, rfl⟩ := exists_of_sliceObservation named readKept
    exact ⟨rfl, fun part sliced => by cases sliced; exact readable⟩

/-- A sliced point says no whole distribution. -/
theorem kind_of_observations
    {now : UInt64}
    {point : Point}
    {observation : Observation}
    (distribution : Distribution)
    (read : observations now point = .ok [observation]) :
    observation.reading.kind ≠ .whole distribution := by
  obtain ⟨kept, named, readKept⟩ := exists_of_observations read
  rw [Sliced.observation] at readKept
  split at readKept
  · cases readKept
  · obtain ⟨metric, number, -, rfl⟩ := exists_of_numberObservation named readKept
    exact fun same => by cases same
  · obtain ⟨metric, number, -, rfl⟩ := exists_of_numberObservation named readKept
    exact fun same => by cases same
  · obtain ⟨metric, slice, -, rfl⟩ := exists_of_sliceObservation named readKept
    exact fun same => by cases same
  · obtain ⟨metric, slice, -, rfl⟩ := exists_of_sliceObservation named readKept
    exact fun same => by cases same

/-- A point that can be read has one observation. -/
theorem exists_observation
    {now : UInt64}
    {point : Point}
    {observations : List Observation}
    (read : Sliced.observations now point = .ok observations) :
    ∃ observation, observations = [observation] := by
  unfold Sliced.observations at read
  split at read
  · cases read
  · revert read
    cases Sliced.observation _ (point.timeOr now) with
    | error error =>
        intro read
        cases read
    | ok observation =>
        intro read
        cases read
        exact ⟨observation, rfl⟩

/-- A point with a time says the same whenever it arrives. -/
theorem observations_eq_of_timed
    {point : Point}
    (now later : UInt64)
    (timed : point.time ≠ 0) :
    observations now point = observations later point := by
  rw [observations, observations, Point.timeOr, Point.timeOr, if_neg timed, if_neg timed]

/-- The observations of points with a time are those of the points alone. -/
theorem observations_eq_flatMap
    {arrivals : List Arrival}
    (timed : ∀ arrival ∈ arrivals, arrival.point.time ≠ 0) :
    Grouping.observations .sliced arrivals =
      (arrivals.map Arrival.point).flatMap fun point =>
        (observations 0 point).toOption.getD [] := by
  rw [Grouping.observations, List.flatMap_map]
  apply List.flatMap_congr
  intro arrival member
  rw [observations_eq_of_timed 0 arrival.now (timed arrival member)]
  rfl

/-- An observation of sliced points is the only one of one of them. -/
theorem exists_of_mem_observations
    {arrivals : List Arrival}
    {observation : Observation}
    (member : observation ∈ Grouping.observations .sliced arrivals) :
    ∃ arrival ∈ arrivals, observations arrival.now arrival.point = .ok [observation] := by
  obtain ⟨arrival, arrivalMember, result, read, said⟩ :=
    Grouping.exists_of_mem_observations member
  have sliced : observations arrival.now arrival.point = .ok result := read
  obtain ⟨only, rfl⟩ := exists_observation sliced
  cases List.mem_singleton.mp said
  exact ⟨arrival, arrivalMember, sliced⟩

/-- What points with a time say can be said. -/
theorem admissible_of_mem_observations
    {arrivals : List Arrival}
    {observation : Observation}
    (timed : ∀ arrival ∈ arrivals, arrival.point.time ≠ 0)
    (member : observation ∈ Grouping.observations .sliced arrivals) :
    Admissible observation := by
  obtain ⟨arrival, arrivalMember, read⟩ := exists_of_mem_observations member
  exact admissible_of_observations (timed arrival arrivalMember) read

end Sliced
end LineMetrics
