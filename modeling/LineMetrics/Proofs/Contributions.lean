import LineMetrics.Proofs.SlicedContributions
import LineMetrics.Proofs.WholeContributions

/-!
# Batches finish as the tree of what their points contribute

What points contribute is said of their tags and fields alone, point by point, and the tree
of these contributions needs no index. A batch that is fed with the points records exactly
their contributions and finishes as that tree.
-/

namespace LineMetrics

section

variable {α β : Type} {yields : α -> List β -> Prop}

/-- What elements yield, one behind the other. An element that yields nothing is passed
over. -/
inductive YieldInOrder (yields : α -> List β -> Prop) : List α -> List β -> Prop
  | nil : YieldInOrder yields [] []
  | yielding
      {element : α}
      {elements : List α}
      {here behind : List β}
      (isYield : yields element here)
      (others : YieldInOrder yields elements behind) :
      YieldInOrder yields (element :: elements) (here ++ behind)
  | silent
      {element : α}
      {elements : List α}
      {behind : List β}
      (silent : ∀ here, ¬yields element here)
      (others : YieldInOrder yields elements behind) :
      YieldInOrder yields (element :: elements) behind

/-- If a function gives what each element yields, and nothing where there is nothing, then it
gives what all elements yield. -/
theorem yieldInOrder_iff
    {result : α -> List β}
    (yielding : ∀ element here, yields element here -> result element = here)
    (silent : ∀ element, (∀ here, ¬yields element here) -> result element = [])
    {elements : List α}
    {results : List β} :
    YieldInOrder yields elements results ↔ results = elements.flatMap result := by
  induction elements generalizing results with
  | nil =>
      constructor
      · rintro ⟨⟩
        rfl
      · rintro rfl
        exact .nil
  | cons element elements inductionHypothesis =>
      rw [List.flatMap_cons]
      constructor
      · rintro (_ | ⟨isYield, others⟩ | ⟨none, others⟩)
        · rw [yielding _ _ isYield, inductionHypothesis.mp others]
        · rw [silent _ none, inductionHypothesis.mp others, List.nil_append]
      · rintro rfl
        have others := inductionHypothesis.mpr rfl
        by_cases some : ∃ here, yields element here
        · obtain ⟨here, isYield⟩ := some
          rw [yielding element here isYield]
          exact .yielding isYield others
        · rw [silent element (not_exists.mp some), List.nil_append]
          exact .silent (not_exists.mp some) others

end

namespace Batch

/-- What a point contributes to a batch of a schema. -/
def Contributes : Schema -> UInt64 -> Point -> List Observation -> Prop
  | .whole => Whole.Contributes
  | .sliced => Sliced.Contributes

/-- What is read from a point is exactly what it contributes. -/
theorem observations_eq_ok_iff
    {schema : Schema}
    {now : UInt64}
    {point : Point}
    {result : List Observation} :
    observations schema now point = .ok result ↔ Contributes schema now point result := by
  cases schema with
  | whole => exact Whole.observations_eq_ok_iff_contributes
  | sliced => exact Sliced.observations_eq_ok_iff_contributes

end Batch

namespace Grouping

/-- The contributions of points in the order in which they arrive. -/
def Contributions (schema : Schema) : List Arrival -> List Observation -> Prop :=
  YieldInOrder fun arrival => Batch.Contributes schema arrival.now arrival.point

/-- The observations of points are what the points contribute. -/
theorem contributions_iff
    {schema : Schema}
    {arrivals : List Arrival}
    {contributed : List Observation} :
    Contributions schema arrivals contributed ↔
      contributed = observations schema arrivals := by
  refine yieldInOrder_iff (fun arrival here contributes => ?_) (fun arrival silent => ?_)
  · rw [Batch.observations_eq_ok_iff.mpr contributes]
    rfl
  · cases read : Batch.observations schema arrival.now arrival.point with
    | error error => rfl
    | ok here => exact absurd (Batch.observations_eq_ok_iff.mp read) (silent here)

end Grouping

namespace Batch

open Grouping

/-- A run ends with the batch that records the observations of its points one by one, and
finishes as their tree. These observations are what the points contribute by their tags and
fields. Each of them is let in exactly if it is the first of its metric or of the kind of
that first one. A whole gauge or counter without its value field has an observation for each
of its metric fields, in the order of their keys. -/
theorem run_finish_eq_grouping (schema : Schema) (arrivals : List Arrival) :
    ((empty schema).run arrivals).1 =
        ((empty schema).recordAll (Grouping.observations schema arrivals)).1 ∧
      ((empty schema).run arrivals).1.finish =
        Grouping.tree (Grouping.observations schema arrivals) ∧
      (∀ contributed,
        Contributions schema arrivals contributed ↔
          contributed = Grouping.observations schema arrivals) ∧
      (∀ earlier observation,
        (((empty schema).recordAll earlier).1.record observation).2 = none ↔
          ∀ first, earlier.find? (Grouping.sameMetric observation) = some first ->
            observation.reading.kind = first.reading.kind) ∧
      ∀ now point valueField,
        Whole.valueField? point = some valueField ->
        point.fields.find? valueField = none ->
          List.Forall₂ (Whole.ObservesField now point valueField) (Whole.metricFields point)
            (Grouping.observations .whole [⟨now, point⟩]) := by
  refine ⟨run_fst _ _, finish_run _ _, fun _ => contributions_iff,
    fun earlier observation => ?_, fun now point valueField expects absent => ?_⟩
  · rw [(recordAll_gathers schema earlier).record_answer, Grouping.refusal_accepted,
      Grouping.refusal_eq_none_iff]
    simp only [eq_comm]
  · have single : Grouping.observations .whole [⟨now, point⟩] =
        (Whole.observations now point).toOption.getD [] := List.flatMap_singleton _ _
    rw [single]
    exact Whole.forall₂_observations now expects absent

/-- A whole point with two numbers and a text has two metrics. A counter of the same name is
another metric without the tags of the first, and refuses a gauge. -/
theorem run_finish_two_metric_fields :
    let load : Point := {
      measurement := "load"
      tags := .ofList
        [("host.name", "alpha"), ("otel.library.name", "probe"), ("zone", "east")]
      fields := .ofList [("one", .int 1), ("note", .text "idle"), ("five", .int 5)] }
    let counter : Point := {
      measurement := "load_one"
      tags := .ofList [("temporality", "delta")]
      fields := .ofList [("counter", .uint 4), ("start_time", .int 2)]
      time := 3 }
    let gauge : Point := {
      measurement := "load_one"
      fields := .ofList [("gauge", .int 6)]
      time := 4 }
    let arrivals : List Arrival := [⟨7, load⟩, ⟨7, counter⟩, ⟨7, gauge⟩]
    List.Forall₂ (Whole.ObservesField 7 load ReservedName.gauge) ["five", "one"]
        (Grouping.observations .whole [⟨7, load⟩]) ∧
      (∃ contributed, Contributions .whole arrivals contributed ∧
        ((empty .whole).run arrivals).1.finish = Grouping.tree contributed) ∧
      ((empty .whole).run arrivals).1.finish = [
        ⟨some [.ofText "host.name" "alpha"], [⟨some ⟨"probe", ""⟩, [
          ⟨"load_five", some <| .gauge [⟨[.ofText "zone" "east"], 0, 7, some (.int 5)⟩]⟩,
          ⟨"load_one", some <| .gauge [⟨[.ofText "zone" "east"], 0, 7, some (.int 1)⟩]⟩]⟩]⟩,
        ⟨some [], [⟨some ⟨"", ""⟩, [
          ⟨"load_one", some <|
            .sum [⟨[], 2, 3, some (.int 4)⟩] Temporality.delta.code true⟩]⟩]⟩] := by
  intro load counter gauge arrivals
  obtain ⟨-, finished, contributed, -, fields⟩ := run_finish_eq_grouping .whole arrivals
  have twoFields := fields 7 load ReservedName.gauge (by decide) (by decide)
  exact ⟨twoFields, ⟨_, (contributed _).mpr rfl, finished⟩, finished.trans (by decide +kernel)⟩

end Batch
end LineMetrics
