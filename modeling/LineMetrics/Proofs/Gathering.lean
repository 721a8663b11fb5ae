import LineMetrics.Proofs.Groups
import LineMetrics.Proofs.Refusal
import Mathlib.Data.List.Induction

/-!
# Batches gather groups

A table holds groups if its rows stand in the order of the groups, have their keys, and
hold values that stand for their elements. A batch is three such tables inside each
other, and the series of an assembled metric are one more. `Gathers` says that a batch
holds the groups of a list of observations on every level. It is kept by recording one
observation more, and it leaves only one tree for the batch to finish as.
-/

namespace LineMetrics

namespace Table

variable {α κ ν ε : Type} [DecidableEq κ] [Ord κ]

/-- The rows of a table are the groups of some elements: they have the same keys in the
same order, and values that stand for the members. -/
def HoldsGroups
    (standsFor : ν -> List α -> Prop)
    (key : α -> κ)
    (table : Table κ ν)
    (elements : List α) : Prop :=
  List.Forall₂ (fun row group => row.1 = group.1 ∧ standsFor row.2 group.2)
    table.toList (groups key elements)

variable {standsFor : ν -> List α -> Prop} {key : α -> κ} {table : Table κ ν}
  {elements : List α}

theorem holdsGroups_empty : (∅ : Table κ ν).HoldsGroups standsFor key [] := .nil

/-- The keys of a table that holds groups are those of the groups. -/
theorem HoldsGroups.keys_eq (holds : table.HoldsGroups standsFor key elements) :
    table.toList.map Prod.fst = (elements.map key).eraseDups := by
  rw [<- keys_groups, <- List.forall₂_eq_eq_eq, List.forall₂_map_left_iff,
    List.forall₂_map_right_iff]
  exact holds.imp fun _ _ corresponds => corresponds.1

/-- The value of a key stands for the elements with that key. -/
theorem HoldsGroups.standsFor_of_find?
    {group : κ}
    {value : ν}
    (holds : table.HoldsGroups standsFor key elements)
    (found : table.find? group = some value) :
    standsFor value (elements.filter fun element => key element = group) ∧
      (elements.filter fun element => key element = group) ≠ [] := by
  obtain ⟨position, inside, row⟩ := List.getElem_of_mem (find?_eq_some_iff.mp found)
  have otherInside : position < (groups key elements).length := by
    rw [<- holds.length_eq]
    exact inside
  obtain ⟨sameKey, stands⟩ := holds.get inside otherInside
  rw [List.get_eq_getElem, List.get_eq_getElem, row] at sameKey stands
  have member : (groups key elements)[position] ∈ groups key elements :=
    List.getElem_mem otherInside
  have members := (mem_groups_iff.mp member).2
  have someMember := ne_nil_of_mem_groups member
  rw [<- sameKey] at members
  rw [members] at stands someMember
  exact ⟨stands, someMember⟩

/-- A key without a row has no elements. -/
theorem HoldsGroups.filter_eq_nil_of_find?
    {group : κ}
    (holds : table.HoldsGroups standsFor key elements)
    (absent : table.find? group = none) :
    (elements.filter fun element => key element = group) = [] := by
  apply filter_eq_nil_of_not_mem
  rw [find?_eq_none_iff, holds.keys_eq, List.mem_eraseDups] at absent
  exact absent

variable [Std.TransOrd κ] [Std.LawfulEqOrd κ]

/-- A visit answers what the value for the elements of its key answers. -/
theorem HoldsGroups.visit_answer
    {group : κ}
    {fresh : ν}
    {change : ν -> ν × ε}
    {answer : ε}
    (holds : table.HoldsGroups standsFor key elements)
    (present : ∀ value,
      standsFor value (elements.filter fun element => key element = group) ->
      (elements.filter fun element => key element = group) ≠ [] ->
        (change value).2 = answer)
    (created : (elements.filter fun element => key element = group) = [] ->
      (change fresh).2 = answer) :
    (table.visit group fresh change).2 = answer := by
  rw [Table.visit_answer]
  cases found : table.find? group with
  | none => exact created (holds.filter_eq_nil_of_find? found)
  | some value =>
      obtain ⟨stands, someMember⟩ := holds.standsFor_of_find? found
      exact present value stands someMember

/-- A visit that adds an element to the value of its key adds it to the table. -/
theorem HoldsGroups.visit
    {element : α}
    {fresh : ν}
    {change : ν -> ν × ε}
    (holds : table.HoldsGroups standsFor key elements)
    (present : ∀ value members,
      members = (elements.filter fun other => key other = key element) ->
      members ≠ [] -> standsFor value members ->
        standsFor (change value).1 (members ++ [element]))
    (created : (elements.filter fun other => key other = key element) = [] ->
      standsFor (change fresh).1 [element]) :
    (table.visit (key element) fresh change).1.HoldsGroups standsFor key
      (elements ++ [element]) := by
  unfold HoldsGroups
  rw [toList_visit, groups_append_singleton]
  refine forall₂_changeRow holds ?_ ?_
  · intro value members member stands
    exact present value members (mem_groups_iff.mp member).2
      (ne_nil_of_mem_groups member) stands
  · intro absent
    apply created
    apply filter_eq_nil_of_not_mem
    rw [keys_groups, List.mem_eraseDups] at absent
    exact absent

end Table

namespace Collected

open Grouping

/-- What has been gathered for a metric are some readings, in their order. Slices are
assembled by series, and ask for a summary if one of them does. -/
def Gathers : Collected -> List Reading -> Prop
  | .gauge points, readings => readings = points.toList.map .gauge
  | .sum temporality points, readings => readings = points.toList.map (.sum temporality)
  | .histogram points, readings => readings = points.toList.map .histogram
  | .summary points, readings => readings = points.toList.map .summary
  | .assembled preferSummary series, readings =>
      ∃ parts : List SeriesSlice,
        readings = parts.map SeriesSlice.toReading ∧
          preferSummary = parts.any SeriesSlice.preferSummary ∧
          series.toList = (groups SeriesSlice.series parts).map (Prod.map id assemble)

/-- Nothing is gathered at the start. -/
theorem gathers_startingWith (reading : Reading) : (startingWith reading).Gathers [] := by
  cases reading with
  | slice preferSummary series part => exact ⟨[], rfl, rfl, rfl⟩
  | _ => rfl

/-- All readings gathered for a metric are of its kind. -/
theorem Gathers.kind_eq
    {collected : Collected}
    {readings : List Reading}
    {reading : Reading}
    (gathers : collected.Gathers readings)
    (member : reading ∈ readings) :
    reading.kind = collected.kind := by
  cases collected with
  | assembled preferSummary series =>
      obtain ⟨parts, rfl, -, -⟩ := gathers
      obtain ⟨part, -, rfl⟩ := List.mem_map.mp member
      rfl
  | _ =>
      rw [gathers] at member
      obtain ⟨point, -, rfl⟩ := List.mem_map.mp member
      rfl

/-- A reading that a metric takes is gathered behind those before it. -/
theorem Gathers.add
    {collected : Collected}
    {readings : List Reading}
    {reading : Reading}
    (metric : String)
    (gathers : collected.Gathers readings)
    (same : collected.kind = reading.kind) :
    (collected.add metric reading).1.Gathers (readings ++ [reading]) := by
  rw [add_of_kind_eq metric same]
  cases collected with
  | assembled preferSummary series =>
      cases reading with
      | slice alsoPreferSummary key part =>
          obtain ⟨parts, rfl, rfl, rows⟩ := gathers
          refine ⟨parts ++ [⟨alsoPreferSummary, key, part⟩], ?_, ?_, ?_⟩
          · rw [List.map_append]
            rfl
          · rw [List.any_append, List.any_cons, List.any_nil, Bool.or_false]
          · rw [Table.toList_change, rows, groups_append_singleton]
            exact (Table.map_changeRow key [] _ _ assemble
              (fun members => assemble_append_singleton members
                ⟨alsoPreferSummary, key, part⟩) _).symm
      | _ => cases same
  | gauge points =>
      cases reading with
      | gauge point =>
          rw [gathers]
          simp [Gathers, prefer, put]
      | _ => cases same
  | sum temporality points =>
      cases reading with
      | sum requested point =>
          cases same
          rw [gathers]
          simp [Gathers, prefer, put]
      | _ => cases same
  | histogram points =>
      cases reading with
      | histogram point =>
          rw [gathers]
          simp [Gathers, prefer, put]
      | _ => cases same
  | summary points =>
      cases reading with
      | summary point =>
          rw [gathers]
          simp [Gathers, prefer, put]
      | _ => cases same

/-- An assembly has a quantile exactly if one of its slices is one. -/
theorem isEmpty_quantiles_assemble (parts : List SeriesSlice) :
    (!(assemble parts).quantiles.isEmpty) =
      parts.any fun part => part.slice.isQuantile := by
  induction parts using List.reverseRecOn with
  | nil => rfl
  | append_singleton parts part inductionHypothesis =>
      rw [assemble_append_singleton, List.any_append, List.any_cons, List.any_nil,
        Bool.or_false, <- inductionHypothesis]
      cases part.slice with
      | quantile quantile value =>
          have someQuantile (entries : List (Binary64 × Binary64)) :
              Assembly.setAt quantile value entries ≠ [] := by
            cases entries with
            | nil => exact List.cons_ne_nil _ _
            | cons entry entries =>
                rw [Assembly.setAt]
                split <;> exact List.cons_ne_nil _ _
          simp [Assembly.add, Slice.isQuantile, someQuantile]
      | _ => simp [Assembly.add, Slice.isQuantile]

/-- What is gathered for a metric are the data of its readings. -/
theorem Gathers.toData_eq
    {collected : Collected}
    {readings : List Reading}
    (gathers : collected.Gathers readings) :
    collected.toData = dataOf collected.kind readings := by
  cases collected with
  | assembled preferSummary series =>
      obtain ⟨parts, rfl, rfl, rows⟩ := gathers
      have quantiles :
          (series.values.any fun assembly => !assembly.quantiles.isEmpty) =
            parts.any fun part => part.slice.isQuantile := by
        rw [Table.values, rows, List.map_map, List.any_map,
          <- any_groups SeriesSlice.series]
        congr 1
        funext group
        exact isEmpty_quantiles_assemble group.2
      have summary :
          (parts.any fun part => part.preferSummary || part.slice.isQuantile) =
            (parts.any SeriesSlice.preferSummary ||
              parts.any fun part => part.slice.isQuantile) := by
        rw [Bool.eq_iff_iff]
        simp [exists_or, and_or_left]
      rw [toData, kind, dataOf, Reading.filterMap_slice?_toReading, assembledData, quantiles,
        summary, rows, List.map_map, List.map_map]
      rfl
  | _ =>
      rw [gathers]
      simp [toData, kind, dataOf, List.filterMap_map, Function.comp_def, Reading.number?,
        Reading.histogram?, Reading.summary?]

end Collected

namespace Grouping

/-- Why an observation is refused by those of its metric. -/
def refusalBehind (members : List Observation) (observation : Observation) : Option Error :=
  members.head?.bind fun first =>
    if first.reading.kind = observation.reading.kind then none
    else some <|
      .kindConflict observation.metric first.reading.kind observation.reading.kind

/-- The observations of a metric are found level by level. -/
theorem filter_sameMetric (observations : List Observation) (observation : Observation) :
    (((observations.filter fun other => other.resource = observation.resource).filter
        fun other => other.scope = observation.scope).filter
        fun other => other.metric = observation.metric) =
      observations.filter (sameMetric observation) := by
  rw [List.filter_filter, List.filter_filter]
  apply List.filter_congr
  intro other _
  rw [Bool.eq_iff_iff]
  simp only [sameMetric, Bool.and_eq_true, decide_eq_true_eq]
  constructor
  · rintro ⟨⟨metric, scope⟩, resource⟩
    exact ⟨⟨resource.symm, scope.symm⟩, metric.symm⟩
  · rintro ⟨⟨resource, scope⟩, metric⟩
    exact ⟨⟨metric.symm, scope.symm⟩, resource.symm⟩

theorem refusal_eq_refusalBehind
    (earlier : List Observation)
    (observation : Observation) :
    refusal earlier observation =
      refusalBehind (earlier.filter (sameMetric observation)) observation := by
  rw [refusal, refusalBehind, List.head?_filter]

end Grouping

namespace Collected

open Grouping

/-- A metric refuses an observation as the first one gathered for it requires. -/
theorem Gathers.add_answer
    {collected : Collected}
    {members : List Observation}
    (gathers : collected.Gathers (members.map Observation.reading))
    (someMember : members ≠ [])
    (observation : Observation) :
    (collected.add observation.metric observation.reading).2 =
      refusalBehind members observation := by
  cases members with
  | nil => exact absurd rfl someMember
  | cons first others =>
      have kind := gathers.kind_eq List.mem_cons_self
      rw [refusalBehind, List.head?_cons, Option.bind_some, kind]
      by_cases same : collected.kind = observation.reading.kind
      · rw [add_of_kind_eq _ same, if_pos same]
      · rw [add_of_kind_ne _ same, if_neg same]

/-- An observation that is not refused is of the kind of its metric. -/
theorem Gathers.kind_eq_of_refusalBehind_eq_none
    {collected : Collected}
    {members : List Observation}
    {observation : Observation}
    (gathers : collected.Gathers (members.map Observation.reading))
    (someMember : members ≠ [])
    (fits : refusalBehind members observation = none) :
    collected.kind = observation.reading.kind := by
  rw [<- gathers.add_answer someMember observation] at fits
  by_contra different
  rw [add_of_kind_ne _ different] at fits
  cases fits

end Collected

namespace Batch

open Grouping

/-- What has been gathered for a scope are some observations. -/
def ScopeGathers (metrics : CollectedScope) (observations : List Observation) : Prop :=
  metrics.HoldsGroups
    (fun collected members => collected.Gathers (members.map Observation.reading))
    Observation.metric observations

/-- What has been gathered for a resource are some observations. -/
def ResourceGathers (scopes : CollectedResource) (observations : List Observation) : Prop :=
  scopes.HoldsGroups ScopeGathers Observation.scope observations

/-- What has been gathered in a batch are some observations: the batch holds their groups
on every level. -/
def Gathers (batch : Batch) (observations : List Observation) : Prop :=
  batch.resources.HoldsGroups ResourceGathers Observation.resource observations

/-- Add the reading of an observation to the metrics of its scope. -/
def visitMetric (observation : Observation) (metrics : CollectedScope) :
    CollectedScope × Option Error :=
  metrics.visit observation.metric (.startingWith observation.reading) fun collected =>
    collected.add observation.metric observation.reading

/-- Add the reading of an observation to the scopes of its resource. -/
def visitScope (observation : Observation) (scopes : CollectedResource) :
    CollectedResource × Option Error :=
  scopes.visit observation.scope ∅ (visitMetric observation)

theorem record_eq (batch : Batch) (observation : Observation) :
    batch.record observation =
      ({ batch with
          resources :=
            (batch.resources.visit observation.resource ∅ (visitScope observation)).1 },
        (batch.resources.visit observation.resource ∅ (visitScope observation)).2) := rfl

theorem ScopeGathers.visitMetric_answer
    {metrics : CollectedScope}
    {observations : List Observation}
    (gathers : ScopeGathers metrics observations)
    (observation : Observation) :
    (visitMetric observation metrics).2 =
      refusalBehind
        (observations.filter fun other => other.metric = observation.metric)
        observation := by
  refine Table.HoldsGroups.visit_answer gathers ?_ ?_
  · intro collected stands someMember
    exact stands.add_answer someMember observation
  · intro noMember
    rw [noMember, Collected.add_startingWith_answer]
    rfl

theorem ResourceGathers.visitScope_answer
    {scopes : CollectedResource}
    {observations : List Observation}
    (gathers : ResourceGathers scopes observations)
    (observation : Observation) :
    (visitScope observation scopes).2 =
      refusalBehind
        ((observations.filter fun other => other.scope = observation.scope).filter
          fun other => other.metric = observation.metric)
        observation := by
  refine Table.HoldsGroups.visit_answer gathers ?_ ?_
  · intro metrics stands _
    exact stands.visitMetric_answer observation
  · intro noMember
    rw [noMember]
    exact ScopeGathers.visitMetric_answer Table.holdsGroups_empty observation

/-- A batch refuses an observation exactly as the observations gathered in it require. -/
theorem Gathers.record_answer
    {batch : Batch}
    {observations : List Observation}
    (gathers : batch.Gathers observations)
    (observation : Observation) :
    (batch.record observation).2 = refusal observations observation := by
  rw [record_eq, refusal_eq_refusalBehind, <- filter_sameMetric]
  refine Table.HoldsGroups.visit_answer gathers ?_ ?_
  · intro scopes stands _
    exact stands.visitScope_answer observation
  · intro noMember
    rw [noMember]
    exact ResourceGathers.visitScope_answer Table.holdsGroups_empty observation

theorem ScopeGathers.visitMetric
    {metrics : CollectedScope}
    {observations : List Observation}
    {observation : Observation}
    (gathers : ScopeGathers metrics observations)
    (fits :
      refusalBehind
        (observations.filter fun other => other.metric = observation.metric)
        observation = none) :
    ScopeGathers (visitMetric observation metrics).1 (observations ++ [observation]) := by
  refine Table.HoldsGroups.visit gathers ?_ ?_
  · intro collected members membersAre someMember stands
    rw [<- membersAre] at fits
    rw [List.map_append]
    exact stands.add _ (stands.kind_eq_of_refusalBehind_eq_none someMember fits)
  · intro _
    exact (Collected.gathers_startingWith observation.reading).add _
      (Collected.kind_startingWith observation.reading)

theorem ResourceGathers.visitScope
    {scopes : CollectedResource}
    {observations : List Observation}
    {observation : Observation}
    (gathers : ResourceGathers scopes observations)
    (fits :
      refusalBehind
        ((observations.filter fun other => other.scope = observation.scope).filter
          fun other => other.metric = observation.metric)
        observation = none) :
    ResourceGathers (visitScope observation scopes).1 (observations ++ [observation]) := by
  refine Table.HoldsGroups.visit gathers ?_ ?_
  · intro metrics members membersAre _ stands
    rw [<- membersAre] at fits
    exact stands.visitMetric fits
  · intro noMember
    rw [noMember] at fits
    exact ScopeGathers.visitMetric Table.holdsGroups_empty fits

/-- An observation that is not refused is gathered behind those before it. -/
theorem Gathers.record
    {batch : Batch}
    {observations : List Observation}
    {observation : Observation}
    (gathers : batch.Gathers observations)
    (fits : refusal observations observation = none) :
    (batch.record observation).1.Gathers (observations ++ [observation]) := by
  rw [refusal_eq_refusalBehind, <- filter_sameMetric] at fits
  have inResources :
      batch.resources.HoldsGroups ResourceGathers Observation.resource observations :=
    gathers
  rw [record_eq]
  refine inResources.visit ?_ ?_
  · intro scopes members membersAre _ stands
    rw [<- membersAre] at fits
    exact stands.visitScope fits
  · intro noMember
    rw [noMember] at fits
    exact ResourceGathers.visitScope Table.holdsGroups_empty fits

end Batch
end LineMetrics
