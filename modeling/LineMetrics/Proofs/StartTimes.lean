import LineMetrics.Proofs.ExpressibleMetrics
import LineMetrics.Proofs.WholePoints

/-!
# The start times of deltas

A whole point states the start time of a delta as a text. The text leaves out nothing, up
to the latest instant that has one, so the delta is read with the start time that it had,
wherever it stands in the tree and whatever its attributes are. A delta without a start
time has no field for it and is read without one.
-/

namespace LineMetrics
namespace Whole

/-- The point states the start time of a data point of a delta as a text, unless there is
none. Whenever the point arrives, it is read as a delta with the same number that starts at
the same time, or at the latest instant that has a text. -/
structure StatesStart (point : NumberPoint) (written : Point) : Prop where
  field : written.fields.find? ReservedName.startTime =
    if point.start = 0 then none else some (.text (Instant.text point.start))
  read : ∀ now, ∃ observation delta,
    observations now written = .ok [observation] ∧
      observation.reading = .sum .delta delta ∧
      delta.value = point.value ∧
      delta.start = UInt64.ofNat (min point.start.toNat (2 ^ 63 - 1)) ∧
      (point.start.toNat < 2 ^ 63 -> delta.start = point.start)

/-- A counter that is marked as a delta states its start time. -/
theorem statesStart_markDelta
    {point : NumberPoint}
    {counter : Point}
    {number : Number}
    (isNumber : point.value = some number)
    (hinted : counter.hint = .sum)
    (noStart : counter.fields.find? ReservedName.startTime = none)
    (found : counter.fields.find? ReservedName.counter = some (.ofNumber number)) :
    StatesStart point (markDelta point.start counter) := by
  have start := startOf_text point.start noStart
  have value := (find?_counter_insert_start counter.fields point.start
    (.text (Instant.text point.start))).trans found
  rw [markDelta_eq]
  constructor
  · dsimp only
    split
    · exact noStart
    · rw [Dictionary.find?_insert, if_pos rfl]
  · intro now
    have isDelta := temporalityOf_insert_delta counter.tags
    exact ⟨_, _, observations_counter now hinted value, congrArg (Reading.sum · _) isDelta,
      isNumber.symm, start, fun fits => start.trans (Instant.ofNat_min_latest fits)⟩

/-- The point of a data point of a delta states its start time. -/
theorem exists_statesStart
    {point : NumberPoint}
    (placement : Placement)
    (metric : String)
    (hasValue : point.value.isSome) :
    ∃ written,
      counterPoint placement metric .delta point = .ok written ∧
        StatesStart point written := by
  obtain ⟨number, isNumber⟩ := Option.isSome_iff_exists.mp hasValue
  have converted :
      counterPoint placement metric .delta point =
        .ok (markDelta point.start
          ((bare placement metric point.attributes point.time .sum).withField
            ReservedName.counter (.ofNumber number))) := by
    rw [counterPoint, NumberPoint.requireValue, isNumber]
    rfl
  exact ⟨_, converted, statesStart_markDelta isNumber rfl rfl <|
    (Dictionary.find?_insert _ _ _ _).trans (if_pos rfl)⟩

/-- The text of an instant is read as the instant, or as the greatest signed number of 64
bits if it lies behind that. A delta whose data points have numbers becomes whole points
that state their start times: each of them is read as a delta that starts when its data
point does. -/
theorem deltaPoints_statesStart
    (instant : UInt64)
    (placement : Placement)
    (metric : String)
    (points : List NumberPoint)
    (values : ∀ point ∈ points, point.value.isSome) :
    Instant.ofFieldValue (.text (Instant.text instant)) =
        .ok (UInt64.ofNat (min instant.toNat (2 ^ 63 - 1))) ∧
      ∃ written,
        (Metric.mk metric (some (.sum points Temporality.delta.code true))).points .whole
            placement =
          .ok written ∧
          List.Forall₂ StatesStart points written := by
  obtain ⟨written, converted, states⟩ :=
    exists_mapM_related fun point member =>
      exists_statesStart placement metric (values point member)
  exact ⟨Instant.ofFieldValue_text instant, written, converted, states⟩

/-- A delta that starts in 2023 keeps its start time, and one that starts behind all instants
with a text gets the latest one of them. -/
theorem deltaPoints_statesStart_two_starts :
    let points : List NumberPoint := [
      { value := some (.int 3), time := 5, start := 1681414440000535129 },
      { value := some (.int 4), time := 6, start := 0xffffffffffffffff }]
    (∀ point ∈ points, point.value.isSome) ∧
      ∃ first second,
        (Metric.mk "requests" (some (.sum points Temporality.delta.code true))).points .whole
            {} =
          .ok [first, second] ∧
          first.fields.find? ReservedName.startTime =
            some (.text "2023-04-13T19:34:00.000535129Z") ∧
          second.fields.find? ReservedName.startTime =
            some (.text "2262-04-11T23:47:16.854775807Z") ∧
          ∃ observation delta,
            observations 9 first = .ok [observation] ∧
              observation.reading = .sum .delta delta ∧ delta.start = 1681414440000535129 := by
  intro points
  have values : ∀ point ∈ points, point.value.isSome := by decide
  refine ⟨values, ?_⟩
  obtain ⟨-, written, converted, states⟩ :=
    deltaPoints_statesStart 0 {} "requests" points values
  change List.Forall₂ StatesStart [_, _] written at states
  obtain _ | ⟨first, _ | ⟨second, _ | _⟩⟩ := states
  obtain ⟨observation, delta, read, isDelta, -, -, kept⟩ := first.read 9
  refine ⟨_, _, converted, first.field.trans (by decide +kernel),
    second.field.trans (by decide +kernel), observation, delta, read, isDelta,
    kept (by decide)⟩

end Whole
end LineMetrics
