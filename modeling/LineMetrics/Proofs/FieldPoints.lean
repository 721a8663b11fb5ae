import LineMetrics.Proofs.WholePoints
import LineMetrics.Whole.FieldPoints
import Mathlib.Data.List.ReduceOption

/-!
# A point with several metrics is several points

A whole gauge or counter that lacks its value field has the same effect on a batch as the
points of its metrics, added one after another in the order of their fields. It has the
observations that these points have, one each, and differs only in being answered once:
it is refused if all of them are, with the cause of the first.
-/

namespace LineMetrics

/-- Elements that are kept, and what is found for elements, correspond if something is
found for exactly the kept ones. -/
theorem forall₂_filter_filterMap
    {α β : Type}
    {related : α -> β -> Prop}
    {keep : α -> Bool}
    {find : α -> Option β}
    {elements : List α}
    (found : ∀ element ∈ elements, keep element = true ->
      ∃ result, find element = some result ∧ related element result)
    (missed : ∀ element ∈ elements, keep element = false -> find element = none) :
    List.Forall₂ related (elements.filter keep) (elements.filterMap find) := by
  induction elements with
  | nil => exact .nil
  | cons element elements inductionHypothesis =>
      obtain ⟨foundHere, foundBehind⟩ := List.forall_mem_cons.mp found
      obtain ⟨missedHere, missedBehind⟩ := List.forall_mem_cons.mp missed
      have behind := inductionHypothesis foundBehind missedBehind
      cases kept : keep element with
      | false =>
          rw [List.filter_cons_of_neg (by simp [kept]),
            List.filterMap_cons_none (missedHere kept)]
          exact behind
      | true =>
          obtain ⟨result, finds, holds⟩ := foundHere kept
          rw [List.filter_cons_of_pos kept, List.filterMap_cons_some finds]
          exact .cons holds behind

namespace Whole

/-- A point with a numeric value field has that one observation. -/
theorem numberObservations_of_toNumber
    {point : Point}
    {valueField : String}
    {value : FieldValue}
    {number : Number}
    (time start : UInt64)
    (reading : NumberPoint -> Reading)
    (found : point.fields.find? valueField = some value)
    (numeric : value.toNumber valueField = .ok number) :
    numberObservations point time valueField start reading =
      .ok [.under (TagLevels.split point.tags) point.measurement <|
        reading ⟨Attribute.ofTags (TagLevels.split point.tags).attributes, start, time,
          some number⟩] := by
  rw [numberObservations, numbers, found]
  dsimp only
  rw [numeric]
  rfl

/-- A number that a value has in one field it has in any field. -/
theorem toNumber_congr
    {field : String}
    {value : FieldValue}
    {number : Number}
    (other : String)
    (numeric : value.toNumber field = .ok number) :
    value.toNumber other = .ok number := by
  cases value with
  | int value => exact numeric
  | uint value => exact numeric
  | float value => exact numeric
  | text value => cases numeric
  | bool value => cases numeric

/-- A metric field holds a number, and the metric named after it. -/
theorem exists_fieldNumber?
    {entry : String × FieldValue}
    (measurement : String)
    (holds : (entry.2.isNumeric && entry.1 ≠ ReservedName.startTime && entry.1 ≠ "") = true) :
    ∃ number, entry.2.toNumber entry.1 = .ok number ∧
      fieldNumber? measurement entry = some (measurement ++ "_" ++ entry.1, number) := by
  obtain ⟨key, value⟩ := entry
  simp only [Bool.and_eq_true, decide_eq_true_eq] at holds
  obtain ⟨⟨numeric, notStart⟩, notEmpty⟩ := holds
  obtain ⟨number, read⟩ := exists_of_isOk ((FieldValue.toNumber_isOk key value).trans numeric)
  refine ⟨number, read, ?_⟩
  rw [fieldNumber?, if_neg (not_or.mpr ⟨notStart, notEmpty⟩), read]
  rfl

/-- A field that is not a metric field holds no number. -/
theorem fieldNumber?_eq_none
    {entry : String × FieldValue}
    (measurement : String)
    (holds : (entry.2.isNumeric && entry.1 ≠ ReservedName.startTime && entry.1 ≠ "") = false) :
    fieldNumber? measurement entry = none := by
  rw [<- Option.map_eq_none_iff, map_fst_fieldNumber?, holds]
  rfl

variable {point : Point} {key : String} {value : FieldValue} {number : Number}

/-- The point of one metric of a gauge says its number. -/
theorem says_fieldPoint_gauge
    (type : typeOf point ≠ .sum)
    (timed : point.time ≠ 0)
    (numeric : value.toNumber key = .ok number) :
    Batch.Says .whole (fieldPoint point key value)
      (.under (TagLevels.split point.tags) (point.measurement ++ "_" ++ key) <|
        .gauge ⟨Attribute.ofTags (TagLevels.split point.tags).attributes, 0, point.time,
          some number⟩) := by
  have isGauge : fieldPoint point key value = {
      measurement := point.measurement ++ "_" ++ key
      tags := point.tags
      time := point.time
      hint := .gauge
      fields := (∅ : Fields).insert ReservedName.gauge value } := by
    unfold fieldPoint
    split
    · rename_i isSum
      exact absurd isSum type
    · rfl
  intro now
  change observations now _ = _
  rw [isGauge, observations, typeOf_of_hint (by simp), Point.timeOr, if_neg timed]
  exact numberObservations_of_toNumber point.time 0 .gauge (by simp)
    (toNumber_congr ReservedName.gauge numeric)

/-- The point of one metric of a counter says its number, with the temporality and the
start time of the counter. -/
theorem says_fieldPoint_counter
    (type : typeOf point = .sum)
    (timed : point.time ≠ 0)
    (numeric : value.toNumber key = .ok number) :
    let levels := TagLevels.split (point.tags.erase ReservedName.temporality)
    Batch.Says .whole (fieldPoint point key value)
      (.under levels (point.measurement ++ "_" ++ key) <|
        .sum (temporalityOf point.tags)
          ⟨Attribute.ofTags levels.attributes, startOf point.fields, point.time,
            some number⟩) := by
  have isCounter : ∃ fields : Fields,
      fieldPoint point key value = {
        measurement := point.measurement ++ "_" ++ key
        tags := point.tags
        time := point.time
        hint := .sum
        fields } ∧
      fields.find? ReservedName.counter = some value ∧
      fields.find? ReservedName.startTime = point.fields.find? ReservedName.startTime := by
    rw [fieldPoint, type]
    have apart : ReservedName.counter ≠ ReservedName.startTime := by decide
    cases point.fields.find? ReservedName.startTime with
    | some start => exact ⟨_, rfl, by simp [Point.withField, apart], by simp⟩
    | none => exact ⟨_, rfl, by simp, by simp [apart.symm]⟩
  obtain ⟨fields, isPoint, found, started⟩ := isCounter
  intro levels now
  change observations now _ = _
  rw [isPoint, observations, typeOf_of_hint (by simp), Point.timeOr, if_neg timed,
    show startOf fields = startOf point.fields by rw [startOf, startOf, started]]
  exact numberObservations_of_toNumber point.time _ (.sum _) found
    (toNumber_congr ReservedName.counter numeric)

/-- What the points of single metrics say, as far as their numbers are concerned, are the
observations of a point that lacks its value field. -/
theorem exists_numberObservations
    {tags : Tags}
    {valueField : String}
    {start : UInt64}
    {reading : NumberPoint -> Reading}
    (absent : point.fields.find? valueField = none)
    (someField : fieldPoints point ≠ [])
    (say : ∀ key value number, value.toNumber key = .ok number ->
      Batch.Says .whole (fieldPoint point key value)
        (.under (TagLevels.split tags) (point.measurement ++ "_" ++ key) <|
          reading ⟨Attribute.ofTags (TagLevels.split tags).attributes, start, point.time,
            some number⟩)) :
    ∃ said,
      numberObservations { point with tags } point.time valueField start reading = .ok said ∧
        List.Forall₂ (Batch.Says .whole) (fieldPoints point) said := by
  have correspond :
      List.Forall₂
        (fun (entry : String × FieldValue) (number : String × Number) =>
          Batch.Says .whole (fieldPoint point entry.1 entry.2)
            (.under (TagLevels.split tags) number.1 <|
              reading ⟨Attribute.ofTags (TagLevels.split tags).attributes, start, point.time,
                some number.2⟩))
        (point.fields.entries.filter fun entry =>
          entry.2.isNumeric && entry.1 ≠ ReservedName.startTime && entry.1 ≠ "")
        (point.fields.entries.filterMap (fieldNumber? point.measurement)) := by
    refine forall₂_filter_filterMap (fun entry _ holds => ?_) fun entry _ =>
      fieldNumber?_eq_none point.measurement
    obtain ⟨number, numeric, found⟩ := exists_fieldNumber? point.measurement holds
    exact ⟨_, found, say entry.1 entry.2 number numeric⟩
  have someNumber : point.fields.entries.filterMap (fieldNumber? point.measurement) ≠ [] := by
    intro none
    rw [none, List.forall₂_nil_right_iff] at correspond
    apply someField
    rw [fieldPoints, Dictionary.entries_filter, correspond, List.map_nil]
  refine ⟨_, ?_, List.forall₂_map_left_iff.mpr (List.forall₂_map_right_iff.mpr correspond)⟩
  rw [numberObservations, numbers, absent]
  dsimp only
  split
  · rename_i none
    exact absurd none someNumber
  · rfl

/-- A gauge or a counter that lacks its value field has the observations that the points
of its metrics say. -/
theorem exists_observations_fieldPoints
    {valueField : String}
    (now : UInt64)
    (timed : point.time ≠ 0)
    (expects : valueField? point = some valueField)
    (absent : point.fields.find? valueField = none)
    (someField : fieldPoints point ≠ []) :
    ∃ said, observations now point = .ok said ∧
      List.Forall₂ (Batch.Says .whole) (fieldPoints point) said := by
  rw [observations, Point.timeOr, if_neg timed]
  rw [valueField?] at expects
  cases type : typeOf point with
  | untyped =>
      rw [type] at expects
      cases expects
      exact exists_numberObservations absent someField fun key value number =>
        says_fieldPoint_gauge (by rw [type]; decide) timed
  | gauge =>
      rw [type] at expects
      cases expects
      exact exists_numberObservations absent someField fun key value number =>
        says_fieldPoint_gauge (by rw [type]; decide) timed
  | sum =>
      rw [type] at expects
      cases expects
      exact exists_numberObservations absent someField fun key value number =>
        says_fieldPoint_counter type timed
  | histogram =>
      rw [type] at expects
      cases expects
  | summary =>
      rw [type] at expects
      cases expects

end Whole

namespace Batch

/-- Points that say one observation each are answered as these observations are, and leave
the batch that records them. -/
theorem run_eq_recordAll_of_says
    {batch : Batch}
    {arrivals : List Arrival}
    {said : List Observation}
    (saying : List.Forall₂ (Says batch.schema) (arrivals.map Arrival.point) said) :
    (batch.run arrivals).1 = (batch.recordAll said).1 ∧
      (batch.run arrivals).2.reduceOption = (batch.recordAll said).2 := by
  induction arrivals generalizing batch said with
  | nil =>
      cases saying
      exact ⟨rfl, rfl⟩
  | cons arrival arrivals inductionHypothesis =>
      cases saying with
      | cons first others =>
          rename_i observation observations
          have next : (batch.add arrival.now arrival.point).1 =
              (batch.record observation).1 := by
            rw [add_fst, first arrival.now]
            exact congrArg Prod.fst (recordAll_cons batch observation [])
          have answer := add_answer_of_single (first arrival.now)
          have sameSchema : (batch.record observation).1.schema = batch.schema := rfl
          rw [<- sameSchema] at others
          obtain ⟨last, errors⟩ := inductionHypothesis others
          rw [run_cons, recordAll_cons, next, answer]
          refine ⟨last, ?_⟩
          dsimp only
          cases (batch.record observation).2 with
          | none =>
              rw [List.reduceOption_cons_of_none, errors]
              rfl
          | some error =>
              rw [List.reduceOption_cons_of_some, errors]
              rfl

/-- Several answers, of which there is one, are put together in that of their point: it is
let in if one of them lets an observation in, and otherwise refused for the first cause. -/
theorem first_cause_iff
    {answers : List (Option Error)}
    (someAnswer : answers ≠ []) :
    let answer :=
      if answers.reduceOption.length = answers.length then answers.reduceOption.head? else none
    (answer = none ↔ none ∈ answers) ∧ (none ∉ answers -> answers.head? = some answer) := by
  intro answer
  by_cases accepted : none ∈ answers
  · have notAll : ¬answers.reduceOption.length = answers.length := by
      rw [List.reduceOption_length_eq_iff]
      exact fun refused => absurd (refused none accepted) (by decide)
    exact ⟨iff_of_true (if_neg notAll) accepted, fun refused => absurd accepted refused⟩
  · have all : answers.reduceOption.length = answers.length := by
      rw [List.reduceOption_length_eq_iff]
      intro answer member
      exact Option.isSome_iff_ne_none.mpr fun isNone => accepted (isNone ▸ member)
    have answerEq : answer = answers.reduceOption.head? := if_pos all
    cases answers with
    | nil => exact absurd rfl someAnswer
    | cons first others =>
        cases first with
        | none => exact absurd List.mem_cons_self accepted
        | some error =>
            rw [List.reduceOption_cons_of_some, List.head?_cons] at answerEq
            rw [answerEq]
            exact ⟨iff_of_false (by simp) accepted, fun _ => rfl⟩

/-- To add a whole gauge or counter that lacks its value field is to add the points of its
metrics one by one: the batch is the same behind them. The point is let in if one of them
is, and otherwise refused for the same cause as the first of them. -/
theorem add_eq_run_fieldPoints
    (earlier : List Arrival)
    (now : UInt64)
    (point : Point)
    (valueField : String)
    (timed : point.time ≠ 0)
    (expects : Whole.valueField? point = some valueField)
    (absent : point.fields.find? valueField = none)
    (someField : Whole.metricFields point ≠ [])
    (singles : List Arrival)
    (fieldPoints : singles.map Arrival.point = Whole.fieldPoints point) :
    let batch := ((empty .whole).run earlier).1
    (batch.add now point).1 = (batch.run singles).1 ∧
      ((batch.add now point).2 = none ↔ none ∈ (batch.run singles).2) ∧
      (none ∉ (batch.run singles).2 ->
        (batch.run singles).2.head? = some (batch.add now point).2) := by
  intro batch
  have whole : batch.schema = .whole := by
    change ((empty .whole).run earlier).1.schema = .whole
    rw [run_fst, schema_recordAll]
    rfl
  have somePoint : Whole.fieldPoints point ≠ [] := by
    intro none
    apply someField
    rw [Whole.metricFields, Dictionary.keys, List.map_eq_nil_iff]
    exact List.map_eq_nil_iff.mp none
  obtain ⟨said, read, saying⟩ :=
    Whole.exists_observations_fieldPoints now timed expects absent somePoint
  rw [<- fieldPoints] at saying somePoint
  have sayingHere : List.Forall₂ (Says batch.schema) (singles.map Arrival.point) said := by
    rw [whole]
    exact saying
  obtain ⟨last, errors⟩ := run_eq_recordAll_of_says sayingHere
  have readHere : observations batch.schema now point = .ok said := by
    rw [whole]
    exact read
  have answered : (batch.run singles).2.length = said.length := by
    rw [length_run_answers, <- saying.length_eq, List.length_map]
  have added : batch.add now point =
      ((batch.run singles).1,
        if (batch.run singles).2.reduceOption.length = (batch.run singles).2.length then
          (batch.run singles).2.reduceOption.head?
        else none) := by
    rw [add, readHere, errors, answered, last]
  have someAnswer : (batch.run singles).2 ≠ [] := by
    intro none
    rw [<- List.length_eq_zero_iff, length_run_answers, List.length_eq_zero_iff] at none
    exact somePoint (none ▸ rfl)
  rw [added]
  exact ⟨rfl, first_cause_iff someAnswer⟩

/-- A gauge with three metrics, of which one is known as a counter, has the effect of the
points of its metrics: two of them are let in, and so is the gauge. -/
theorem add_eq_run_fieldPoints_refused_metric :
    let counter : Arrival :=
      ⟨9, { measurement := "disk_used", fields := .ofList [("counter", .int 1)], time := 4 }⟩
    let gauge : Point := {
      measurement := "disk"
      tags := .ofList [("host.name", "a"), ("device", "sda")]
      fields := .ofList
        [("used", .int 7), ("free", .uint 5), ("label", .text "root"), ("load", .float .zero)]
      time := 5 }
    let batch := ((empty .whole).run [{ counter with point.tags := gauge.tags }]).1
    let singles : List Arrival := (Whole.fieldPoints gauge).map fun point => ⟨9, point⟩
    (batch.add 9 gauge).1 = (batch.run singles).1 ∧
      ((batch.add 9 gauge).2 = none ↔ none ∈ (batch.run singles).2) ∧
      (batch.run singles).2 =
        [none, none, some (.kindConflict "disk_used" (.sum .cumulative) .gauge)] := by
  intro counter gauge batch singles
  have same := add_eq_run_fieldPoints [{ counter with point.tags := gauge.tags }] 9 gauge
    ReservedName.gauge (by decide) (by decide +kernel) (by decide +kernel) (by decide +kernel)
    singles (List.map_map.trans (List.map_id _))
  exact ⟨same.1, same.2.1, by decide +kernel⟩

end Batch
end LineMetrics
