import LineMetrics.Proofs.Refinement
import LineMetrics.Proofs.SlicedReadings
import Mathlib.Data.List.Forall2

/-!
# Which points are accepted

Observations are consistent if those of one metric are of one kind. This does not
depend on their order, and it is exactly when none of them is refused. So points with
one observation each, as all sliced points are, are all accepted exactly if each of them
can be read and their observations are consistent.
-/

namespace LineMetrics

namespace Grouping

/-- Observations of one metric are of one kind. -/
def Consistent (observations : List Observation) : Prop :=
  ∀ left ∈ observations, ∀ right ∈ observations,
    sameMetric left right -> left.reading.kind = right.reading.kind

/-- Observations are consistent exactly if none of them is refused. -/
theorem consistent_iff {observations : List Observation} :
    Consistent observations ↔
      ∀ observation ∈ observations, refusal observations observation = none := by
  constructor
  · intro consistent observation member
    rw [refusal_eq_none_iff]
    intro first found
    exact (consistent observation member first (List.mem_of_find?_eq_some found)
      (List.find?_some found)).symm
  · intro noneRefused left leftMember right rightMember same
    have leftFits := refusal_eq_none_iff.mp (noneRefused left leftMember)
    have rightFits := refusal_eq_none_iff.mp (noneRefused right rightMember)
    rw [<- sameMetric_congr same] at rightFits
    have someFirst : (observations.find? (sameMetric left)).isSome :=
      List.find?_isSome.mpr ⟨left, leftMember, sameMetric_self left⟩
    obtain ⟨first, found⟩ := Option.isSome_iff_exists.mp someFirst
    exact (leftFits first found).symm.trans (rightFits first found)

/-- Consistent observations are all accepted. -/
theorem Consistent.accepted_eq
    {observations : List Observation}
    (consistent : Consistent observations) :
    accepted observations = observations := by
  rw [accepted, List.filter_eq_self]
  intro observation member
  rw [consistent_iff.mp consistent observation member]
  rfl

/-- Accepted observations are consistent. -/
theorem consistent_accepted (observations : List Observation) :
    Consistent (accepted observations) := by
  rw [consistent_iff]
  intro observation member
  rw [refusal_accepted]
  exact Option.isNone_iff_eq_none.mp (List.mem_filter.mp member).2

@[simp] theorem observations_nil (schema : Schema) : observations schema [] = [] := rfl

/-- The observations of points are those of the first one and then the others. -/
theorem observations_cons (schema : Schema) (arrival : Arrival) (arrivals : List Arrival) :
    observations schema (arrival :: arrivals) =
      (Batch.observations schema arrival.now arrival.point).toOption.getD [] ++
        observations schema arrivals := by
  rw [observations, List.flatMap_cons]
  rfl

/-- Some of consistent observations are consistent. -/
theorem Consistent.subset
    {observations others : List Observation}
    (consistent : Consistent observations)
    (contained : others ⊆ observations) :
    Consistent others :=
  fun left leftMember right rightMember =>
    consistent left (contained leftMember) right (contained rightMember)

/-- The observations are of one resource. -/
def OfResource (resource : Tags) (observations : List Observation) : Prop :=
  ∀ observation ∈ observations, observation.resource = resource

/-- The observations are of one scope under a resource. -/
def OfScope (resource : Tags) (scope : Scope) (observations : List Observation) : Prop :=
  ∀ observation ∈ observations,
    observation.resource = resource ∧ observation.scope = scope

/-- The observations are of the metric with some name under a resource and a scope. -/
def OfMetric
    (resource : Tags)
    (scope : Scope)
    (name : String)
    (observations : List Observation) : Prop :=
  ∀ observation ∈ observations,
    observation.resource = resource ∧ observation.scope = scope ∧ observation.metric = name

theorem ofResource_of_mem_groups
    {observations : List Observation}
    {group : Tags × List Observation}
    (member : group ∈ groups Observation.resource observations) :
    OfResource group.1 group.2 :=
  fun _ inGroup => (of_mem_of_mem_groups member inGroup).2

theorem OfResource.ofScope
    {resource : Tags}
    {observations : List Observation}
    {group : Scope × List Observation}
    (ofResource : OfResource resource observations)
    (member : group ∈ groups Observation.scope observations) :
    OfScope resource group.1 group.2 := by
  intro observation inGroup
  obtain ⟨original, sameScope⟩ := of_mem_of_mem_groups member inGroup
  exact ⟨ofResource observation original, sameScope⟩

theorem OfScope.ofMetric
    {resource : Tags}
    {scope : Scope}
    {observations : List Observation}
    {group : String × List Observation}
    (ofScope : OfScope resource scope observations)
    (member : group ∈ groups Observation.metric observations) :
    OfMetric resource scope group.1 group.2 := by
  intro observation inGroup
  obtain ⟨original, sameName⟩ := of_mem_of_mem_groups member inGroup
  obtain ⟨sameResource, sameScope⟩ := ofScope observation original
  exact ⟨sameResource, sameScope, sameName⟩

theorem OfMetric.sameMetric
    {resource : Tags}
    {scope : Scope}
    {name : String}
    {observations : List Observation}
    (ofMetric : OfMetric resource scope name observations) :
    ∀ left ∈ observations, ∀ right ∈ observations, sameMetric left right := by
  intro left leftMember right rightMember
  obtain ⟨leftResource, leftScope, leftMetric⟩ := ofMetric left leftMember
  obtain ⟨rightResource, rightScope, rightMetric⟩ := ofMetric right rightMember
  simp [Grouping.sameMetric, leftResource, rightResource, leftScope, rightScope, leftMetric,
    rightMetric]

/-- Consistent observations of one metric are of one kind. -/
theorem OfMetric.kind_eq
    {resource : Tags}
    {scope : Scope}
    {name : String}
    {observations : List Observation}
    (ofMetric : OfMetric resource scope name observations)
    (consistent : Consistent observations) :
    ∀ left ∈ observations, ∀ right ∈ observations,
      left.reading.kind = right.reading.kind := by
  intro left leftMember right rightMember
  exact consistent left leftMember right rightMember
    (ofMetric.sameMetric left leftMember right rightMember)

end Grouping

namespace Batch

open Grouping

/-- The answer to a point with one observation is the answer to that observation. -/
theorem add_answer_of_single
    {batch : Batch}
    {now : UInt64}
    {point : Point}
    {observation : Observation}
    (read : observations batch.schema now point = .ok [observation]) :
    (batch.add now point).2 = (batch.record observation).2 := by
  rw [add, read]
  dsimp only
  rw [recordAll_cons]
  cases answer : (batch.record observation).2 <;> simp [answer]

/-- A point with one observation is answered as the observations before it require, and
the batch gathers this observation behind them. -/
theorem add_of_single
    {batch : Batch}
    {schema : Schema}
    {earlier : List Observation}
    {now : UInt64}
    {point : Point}
    {observation : Observation}
    (hasSchema : batch.schema = schema)
    (gathers : batch.Gathers (accepted earlier))
    (read : observations schema now point = .ok [observation]) :
    (batch.add now point).2 = refusal earlier observation ∧
      (batch.add now point).1.schema = schema ∧
        (batch.add now point).1.Gathers (accepted (earlier ++ [observation])) := by
  subst hasSchema
  have next : (batch.add now point).1 = (batch.recordAll [observation]).1 := by
    rw [add_fst, read]
    rfl
  refine ⟨?_, ?_, ?_⟩
  · rw [add_answer_of_single read, gathers.record_answer, refusal_accepted]
  · rw [next, schema_recordAll]
  · rw [next]
    exact gathers.recordAll [observation]

/-- Points that have one observation each are all accepted behind some observations
exactly if each of them can be read and none of their observations is refused. -/
theorem run_accepts_iff
    {batch : Batch}
    {schema : Schema}
    {earlier : List Observation}
    {arrivals : List Arrival}
    (hasSchema : batch.schema = schema)
    (gathers : batch.Gathers (accepted earlier))
    (single : ∀ arrival ∈ arrivals, ∀ result,
      observations schema arrival.now arrival.point = .ok result ->
        ∃ observation, result = [observation]) :
    (∀ answer ∈ (batch.run arrivals).2, answer = none) ↔
      (∀ arrival ∈ arrivals,
        ∃ result, observations schema arrival.now arrival.point = .ok result) ∧
        ∀ observation ∈ Grouping.observations schema arrivals,
          refusal (earlier ++ Grouping.observations schema arrivals) observation =
            none := by
  induction arrivals generalizing batch earlier with
  | nil => simp [Grouping.observations]
  | cons arrival arrivals inductionHypothesis =>
      obtain ⟨singleHere, singleBehind⟩ := List.forall_mem_cons.mp single
      rw [run_cons, List.forall_mem_cons, List.forall_mem_cons]
      cases read : observations schema arrival.now arrival.point with
      | error error =>
          have refused : (batch.add arrival.now arrival.point).2 = some error :=
            congrArg Prod.snd (add_of_unreadable hasSchema read)
          simp [refused]
      | ok result =>
          obtain ⟨observation, rfl⟩ := singleHere result read
          obtain ⟨answer, nextSchema, nextGathers⟩ := add_of_single hasSchema gathers read
          have observationsHere :
              Grouping.observations schema (arrival :: arrivals) =
                observation :: Grouping.observations schema arrivals := by
            rw [Grouping.observations_cons, read]
            rfl
          rw [inductionHypothesis nextSchema nextGathers singleBehind, answer,
            observationsHere, List.forall_mem_cons, refusal_append_cons_self,
            List.append_cons]
          simp [and_left_comm]

/-- A batch accepts all of some points that have one observation each exactly if each of
them can be read and their observations are consistent. -/
theorem run_empty_accepts_iff
    {schema : Schema}
    {arrivals : List Arrival}
    (single : ∀ arrival ∈ arrivals, ∀ result,
      observations schema arrival.now arrival.point = .ok result ->
        ∃ observation, result = [observation]) :
    (∀ answer ∈ ((empty schema).run arrivals).2, answer = none) ↔
      (∀ arrival ∈ arrivals,
        ∃ result, observations schema arrival.now arrival.point = .ok result) ∧
        Consistent (Grouping.observations schema arrivals) := by
  have gathers : (empty schema).Gathers (accepted []) := gathers_empty schema
  rw [run_accepts_iff rfl gathers single, consistent_iff]
  rfl

/-- A batch accepts all of some sliced points exactly if each of them can be read and
their observations are consistent. -/
theorem run_empty_sliced_accepts_iff (arrivals : List Arrival) :
    (∀ answer ∈ ((empty .sliced).run arrivals).2, answer = none) ↔
      (∀ arrival ∈ arrivals,
        ∃ observations,
          Sliced.observations arrival.now arrival.point = .ok observations) ∧
        Consistent (Grouping.observations .sliced arrivals) :=
  run_empty_accepts_iff fun _ _ _ read => Sliced.exists_observation read

/-- Whenever it arrives, the point says this observation and no other one. -/
def Says (schema : Schema) (point : Point) (observation : Observation) : Prop :=
  ∀ now, observations schema now point = .ok [observation]

variable {schema : Schema} {arrivals : List Arrival} {said : List Observation}

/-- The observations of points are what they say. -/
theorem observations_eq_of_says
    (saying : List.Forall₂ (Says schema) (arrivals.map Arrival.point) said) :
    Grouping.observations schema arrivals = said := by
  induction arrivals generalizing said with
  | nil =>
      cases saying
      rfl
  | cons arrival arrivals inductionHypothesis =>
      cases saying with
      | cons first others =>
          rw [observations_cons, first arrival.now, inductionHypothesis others]
          rfl

/-- Points that say observations are all accepted exactly if these are consistent. -/
theorem run_accepts_iff_consistent
    (saying : List.Forall₂ (Says schema) (arrivals.map Arrival.point) said) :
    (∀ answer ∈ ((empty schema).run arrivals).2, answer = none) ↔ Consistent said := by
  have readEach :
      List.Forall₂
        (fun (arrival : Arrival) observation =>
          (∃ other, observations schema arrival.now arrival.point = .ok [other]) ∧
            Says schema arrival.point observation)
        arrivals said :=
    (List.forall₂_map_left_iff.mp saying).imp fun arrival observation said =>
      ⟨⟨observation, said arrival.now⟩, said⟩
  have read := ((List.forall₂_and_left _ _).mp readEach).1
  have single (arrival : Arrival) (member : arrival ∈ arrivals) (result : List Observation)
      (succeeds : observations schema arrival.now arrival.point = .ok result) :
      ∃ observation, result = [observation] := by
    obtain ⟨observation, readHere⟩ := read arrival member
    exact ⟨observation, Except.ok.inj (succeeds.symm.trans readHere)⟩
  rw [run_empty_accepts_iff single, observations_eq_of_says saying]
  refine and_iff_right fun arrival member => ?_
  obtain ⟨observation, readHere⟩ := read arrival member
  exact ⟨[observation], readHere⟩

/-- Points that say consistent observations are all accepted, and finish as their
tree. -/
theorem run_of_says
    (saying : List.Forall₂ (Says schema) (arrivals.map Arrival.point) said)
    (consistent : Consistent said) :
    (∀ answer ∈ ((empty schema).run arrivals).2, answer = none) ∧
      ((empty schema).run arrivals).1.finish = tree said := by
  rw [run_accepts_iff_consistent saying, finish_run, observations_eq_of_says saying]
  exact ⟨consistent, rfl⟩

end Batch
end LineMetrics
