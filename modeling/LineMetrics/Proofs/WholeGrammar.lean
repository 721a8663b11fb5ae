import LineMetrics.Proofs.ArrangedArrivals
import LineMetrics.Proofs.WellFormed
import LineMetrics.Proofs.WholeReadings

/-!
# The grammar of whole points

Whether a whole point can be read is decided by its type and its fields alone. A gauge or a
counter needs a number, a distribution a count, a sum and readable parts, and the bounds of
a histogram may not repeat a number. A fresh batch lets in exactly the points of this
grammar, and then it holds a data point.
-/

namespace LineMetrics

/-- The value is a number of observations: a number that is finite and not negative. -/
def FieldValue.isCount : FieldValue -> Bool
  | .int value => 0 ≤ value.toInt
  | .uint _ => true
  | .float value => value.isFinite && 0 ≤ value.inUnits
  | .text _ => false
  | .bool _ => false

/-- A value is converted to a count exactly when it is one. -/
theorem FieldValue.toCount_isOk (field : String) (value : FieldValue) :
    (value.toCount field).isOk = value.isCount := by
  cases value with
  | int value =>
      rw [toCount, isCount]
      by_cases negative : value < 0
      · rw [if_pos negative]
        have below : value.toInt < 0 := Int64.lt_iff_toInt_lt.mp negative
        exact (decide_eq_false (by omega)).symm
      · rw [if_neg negative]
        have above : ¬value.toInt < 0 := fun below => negative (Int64.lt_iff_toInt_lt.mpr below)
        exact (decide_eq_true (by omega)).symm
  | uint value => rfl
  | float value =>
      rw [toCount, isCount]
      cases finite : value.isFinite with
      | false => rfl
      | true =>
          rw [Bool.true_and, Bool.true_and, Bool.eq_iff_iff, decide_eq_true_iff,
            <- Binary64.isAtLeastZero_iff finite]
          cases value.isAtLeastZero <;> simp [Except.isOk, Except.toBool]
  | text value => rfl
  | bool value => rfl

namespace Whole

variable {α : Type}

/-- The fields state a number: in the value field if there is one, and otherwise in a field
that can be a metric of its own. -/
def StatesNumber (fields : Fields) (valueField : String) : Prop :=
  match fields.find? valueField with
  | some value => value.isNumeric
  | none => ∃ entry ∈ fields.entries,
      entry.1 ≠ "" ∧ entry.1 ≠ ReservedName.startTime ∧ entry.2.isNumeric

/-- The fields state a count, a sum, and under every key that is a finite number a part. -/
structure StatesDistribution (isPart : FieldValue -> Bool) (fields : Fields) : Prop where
  count : ∃ value, fields.find? ReservedName.count = some value ∧ value.isCount
  sum : ∃ value, fields.find? ReservedName.sum = some value ∧ value.isNumeric
  parts : ∀ entry ∈ fields.entries,
    (Binary64.ofFiniteKey? entry.1).isSome -> isPart entry.2

/-- No two keys are numerically equal finite numbers. -/
def StatesPlacesOnce (fields : Fields) : Prop :=
  (fields.keys.filterMap Binary64.ofFiniteKey?).Pairwise fun left right =>
    left.sameNumber right = false

/-- The fields of the point are as its type requires. -/
def Grammatical (point : Point) : Prop :=
  match typeOf point with
  | .untyped => StatesNumber point.fields ReservedName.gauge
  | .gauge => StatesNumber point.fields ReservedName.gauge
  | .sum => StatesNumber point.fields ReservedName.counter
  | .histogram =>
      StatesDistribution FieldValue.isCount point.fields ∧ StatesPlacesOnce point.fields
  | .summary => StatesDistribution FieldValue.isNumeric point.fields

/-! ## Gauges and counters -/

/-- A field holds a metric of its own exactly if it is numeric and has a key that is not
reserved. -/
theorem isSome_fieldNumber? (measurement : String) (entry : String × FieldValue) :
    (fieldNumber? measurement entry).isSome = true ↔
      entry.1 ≠ "" ∧ entry.1 ≠ ReservedName.startTime ∧ entry.2.isNumeric = true := by
  rw [<- Option.isSome_map (f := Prod.fst), map_fst_fieldNumber?]
  simp [and_comm, and_left_comm]

/-- A gauge or a counter has numbers exactly if its fields state one. -/
theorem exists_numbers_iff (point : Point) (valueField : String) :
    (∃ result, numbers point valueField = .ok result) ↔
      StatesNumber point.fields valueField := by
  rw [numbers, StatesNumber]
  cases point.fields.find? valueField with
  | some value =>
      dsimp only
      rw [bind_ok_eq_map, exists_map_eq_ok_iff, <- isOk_iff, FieldValue.toNumber_isOk]
  | none =>
      have stated :
          (∃ entry ∈ point.fields.entries,
            entry.1 ≠ "" ∧ entry.1 ≠ ReservedName.startTime ∧ entry.2.isNumeric = true) ↔
          point.fields.entries.filterMap (fieldNumber? point.measurement) ≠ [] := by
        simp [<- isSome_fieldNumber? point.measurement, Option.isSome_iff_ne_none]
      dsimp only
      rw [stated]
      cases point.fields.entries.filterMap (fieldNumber? point.measurement) with
      | nil =>
          refine iff_of_false ?_ fun some => some rfl
          rintro ⟨_, fails⟩
          exact error_ne_ok fails
      | cons number others => exact iff_of_true ⟨_, rfl⟩ (List.cons_ne_nil _ _)

/-- A gauge or a counter has observations exactly if its fields state a number. -/
theorem exists_numberObservations_iff
    (point : Point)
    (time : UInt64)
    (valueField : String)
    (start : UInt64)
    (reading : NumberPoint -> Reading) :
    (∃ result, numberObservations point time valueField start reading = .ok result) ↔
      StatesNumber point.fields valueField := by
  rw [numberObservations, bind_ok_eq_map, exists_map_eq_ok_iff]
  exact exists_numbers_iff point valueField

/-! ## Histograms and summaries -/

/-- What is made of a field is made exactly if the field is there and acceptable. -/
theorem exists_bind_eq_some_iff
    {field : Option FieldValue}
    {read : FieldValue -> Except Error α}
    {accepts : FieldValue -> Bool}
    (reads : ∀ value, (read value).isOk = accepts value) :
    (∃ result, (field.bind fun value => (read value).toOption) = some result) ↔
      ∃ value, field = some value ∧ accepts value = true := by
  cases field with
  | none => simp only [Option.bind_none, reduceCtorEq, exists_false, false_and]
  | some value =>
      rw [Option.bind_some, <- Option.isSome_iff_exists, isSome_toOption, reads]
      simp only [Option.some.injEq, exists_eq_left']

/-- A point states a distribution exactly if its fields do. -/
theorem exists_distribution_iff
    {readPart : String -> FieldValue -> Except Error α}
    {isPart : FieldValue -> Bool}
    (kind : Distribution)
    (reads : ∀ key value, (readPart key value).isOk = isPart value)
    (point : Point) :
    (∃ count sum parts, distribution kind readPart point = .ok (count, sum, parts)) ↔
      StatesDistribution isPart point.fields := by
  have counts : (∃ count, statedCount? point.fields = some count) ↔ _ :=
    exists_bind_eq_some_iff (FieldValue.toCount_isOk ReservedName.count)
  have sums : (∃ sum, statedSum? point.fields = some sum) ↔ _ :=
    exists_bind_eq_some_iff (FieldValue.toDouble_isOk ReservedName.sum)
  have parts : StatesParts readPart point.fields.entries ↔
      ∀ entry ∈ point.fields.entries,
        (Binary64.ofFiniteKey? entry.1).isSome -> isPart entry.2 := by
    simp only [StatesParts, reads, Option.isSome_iff_exists, forall_exists_index]
  simp only [distribution_eq_ok_iff]
  constructor
  · rintro ⟨count, sum, -, states, hasCount, hasSum, -⟩
    exact ⟨counts.mp ⟨count, hasCount⟩, sums.mp ⟨sum, hasSum⟩, parts.mp states⟩
  · intro states
    obtain ⟨count, hasCount⟩ := counts.mpr states.count
    obtain ⟨sum, hasSum⟩ := sums.mpr states.sum
    exact ⟨count, sum, _, parts.mpr states.parts, hasCount, hasSum, rfl⟩

/-- A point says a histogram exactly if its fields state one with different bounds. -/
theorem exists_histogramObservation_iff (point : Point) (time : UInt64) :
    (∃ observation, histogramObservation point time = .ok observation) ↔
      StatesDistribution FieldValue.isCount point.fields ∧ StatesPlacesOnce point.fields := by
  have states := exists_distribution_iff .histogram FieldValue.toCount_isOk point
  rw [<- states]
  constructor
  · rintro ⟨observation, said⟩
    obtain ⟨count, sum, buckets, read, ordered, -⟩ := histogramObservation_eq_ok_iff.mp said
    exact ⟨⟨count, sum, buckets, read⟩, (apart_places_iff read).mp (ordered.imp And.right)⟩
  · rintro ⟨⟨count, sum, buckets, read⟩, once⟩
    have ordered : OrderedPlaces (buckets.map Prod.fst) :=
      List.pairwise_and_iff.mpr
        ⟨(places_of_distribution read).2, (apart_places_iff read).mpr once⟩
    exact ⟨_, histogramObservation_eq_ok_iff.mpr ⟨count, sum, buckets, read, ordered, rfl⟩⟩

/-- A point says a summary exactly if its fields state one. -/
theorem exists_summaryObservation_iff (point : Point) (time : UInt64) :
    (∃ observation, summaryObservation point time = .ok observation) ↔
      StatesDistribution FieldValue.isNumeric point.fields := by
  rw [<- exists_distribution_iff .summary FieldValue.toDouble_isOk point]
  constructor
  · rintro ⟨observation, said⟩
    obtain ⟨count, sum, quantiles, read, -⟩ := summaryObservation_eq_ok_iff.mp said
    exact ⟨count, sum, quantiles, read⟩
  · rintro ⟨count, sum, quantiles, read⟩
    exact ⟨_, summaryObservation_eq_ok_iff.mpr ⟨count, sum, quantiles, read, rfl⟩⟩

/-- A point has observations exactly if it is grammatical. -/
theorem exists_observations_iff (now : UInt64) (point : Point) :
    (∃ result, observations now point = .ok result) ↔ Grammatical point := by
  rw [Grammatical, observations]
  cases typeOf point with
  | untyped => exact exists_numberObservations_iff ..
  | gauge => exact exists_numberObservations_iff ..
  | sum =>
      exact exists_numberObservations_iff
        { point with tags := point.tags.erase ReservedName.temporality } _ _ _ _
  | histogram => exact exists_map_eq_ok_iff.trans (exists_histogramObservation_iff point _)
  | summary => exact exists_map_eq_ok_iff.trans (exists_summaryObservation_iff point _)

end Whole

namespace Grouping

/-- The tree of whole observations has a data point for the first of them. -/
theorem anyData_tree
    {first : Observation}
    {others : List Observation}
    (whole : first.reading.kind ≠ .assembled) :
    (tree (first :: others)).anyData (fun data => !data.places.isEmpty) = true := by
  have letIn : first ∈ accepted (first :: others) := by
    have found : (first :: others).find? (sameMetric first) = some first :=
      List.find?_cons_of_pos (sameMetric_self first)
    rw [accepted, List.mem_filter, refusal_eq_none_of_find? found]
    exact ⟨List.mem_cons_self, rfl⟩
  obtain ⟨group, groupMember, inGroup⟩ := exists_mem_metricGroups letIn
  obtain ⟨kind, sameKind, isData⟩ :=
    exists_kind_of_mem_metricGroups (consistent_accepted (first :: others)) groupMember
  have places := places_dataOf (sameKind first inGroup ▸ whole)
    (List.forall_mem_map.mpr sameKind)
  rw [MetricTree.anyData, placedMetrics_tree, List.any_map, List.any_eq_true]
  refine ⟨group, groupMember, ?_⟩
  rw [Function.comp_apply, isData, Option.any_some, places, Bool.not_eq_true', List.isEmpty_map,
    List.isEmpty_map, List.isEmpty_eq_false_iff]
  exact List.ne_nil_of_mem inGroup

end Grouping

namespace Batch

open Grouping

/-- Behind a single point, a batch finishes as the tree of its observations. -/
theorem finish_add_empty
    {schema : Schema}
    {now : UInt64}
    {point : Point}
    {result : List Observation}
    (read : observations schema now point = .ok result) :
    ((empty schema).add now point).1.finish = tree result := by
  have finished := finish_run schema [⟨now, point⟩]
  rw [run_cons, run_nil, observations_cons, read, observations_nil, List.append_nil] at finished
  exact finished

/-- A fresh batch lets in a whole point exactly if it is grammatical. Then it holds a data
point, and otherwise it stays empty. -/
theorem add_empty_whole (now : UInt64) (point : Point) :
    let added := (empty .whole).add now point
    (added.2 = none ↔ Whole.Grammatical point) ∧
      (added.2 = none ∧ added.1.finish.anyData (fun data => !data.places.isEmpty) = true ∨
        added.2 ≠ none ∧ added.1 = empty .whole) := by
  intro added
  rw [<- Whole.exists_observations_iff now point]
  cases said : Whole.observations now point with
  | ok result =>
      have read : observations .whole now point = .ok result := said
      have someObservation := Whole.observations_ne_nil said
      have letIn : added.2 = none := add_answer_of_isEmpty rfl read someObservation
      have finished : added.1.finish = tree result := finish_add_empty read
      obtain ⟨first, others, rfl⟩ := List.exists_cons_of_ne_nil someObservation
      have whole := (Whole.admissible_of_mem_observations said List.mem_cons_self).reading
      refine ⟨iff_of_true letIn ⟨_, rfl⟩, .inl ⟨letIn, ?_⟩⟩
      rw [finished]
      exact anyData_tree whole.kind_ne_assembled
  | error error =>
      have read : observations .whole now point = .error error := said
      have refused : added = (empty .whole, some error) := add_of_unreadable rfl read
      rw [refused]
      refine ⟨iff_of_false (Option.some_ne_none _) ?_, .inr ⟨Option.some_ne_none _, rfl⟩⟩
      rintro ⟨_, fails⟩
      exact error_ne_ok fails

end Batch
end LineMetrics
