import LineMetrics.Export
import LineMetrics.Proofs.Acceptance
import LineMetrics.Proofs.SlicedPoints

/-!
# The metrics of a tree and their observations

The metrics of the tree of some observations, listed with their places, are the groups
of observations of one metric, in the order of the tree. Nothing but the grouping on
three levels is behind this, so a fact about the groups is one about the whole tree.
-/

namespace LineMetrics

/-- The observations of one metric, with its name and its place. -/
structure MetricGroup where
  resource : Tags
  scope : Scope
  name : String
  members : List Observation

namespace MetricGroup

/-- The place of the metric in the tree. -/
def placement (group : MetricGroup) : Placement := .of group.resource group.scope

/-- The metric that the observations make. -/
def metric (group : MetricGroup) : Metric := Grouping.metricOf group.name group.members

/-- The observation is of this metric. -/
def covers (group : MetricGroup) (observation : Observation) : Bool :=
  observation.resource = group.resource && observation.scope = group.scope &&
    observation.metric = group.name

end MetricGroup

namespace Grouping

/-- The observations by metric, in the order of the tree. -/
def metricGroups (observations : List Observation) : List MetricGroup :=
  (groups Observation.resource observations).flatMap fun (resource, observations) =>
    (groups Observation.scope observations).flatMap fun (scope, observations) =>
      (groups Observation.metric observations).map fun (name, observations) =>
        ⟨resource, scope, name, observations⟩

/-- The metrics of a tree are those of the groups of accepted observations. -/
theorem placedMetrics_tree (observations : List Observation) :
    (tree observations).placedMetrics =
      (metricGroups (accepted observations)).map fun group =>
        (group.placement, group.metric) := by
  rw [tree, MetricTree.placedMetrics, metricGroups, List.flatMap_map, List.map_flatMap]
  apply List.flatMap_congr
  rintro ⟨resource, observations⟩ _
  dsimp only
  rw [resourceOf, List.flatMap_map, List.map_flatMap]
  apply List.flatMap_congr
  rintro ⟨scope, observations⟩ _
  dsimp only
  rw [scopeOf, List.map_map, List.map_map]
  rfl

/-- The observations of one metric are a group. -/
theorem mem_metricGroups
    {observations : List Observation}
    {resource : Tags × List Observation}
    {scope : Scope × List Observation}
    {metric : String × List Observation}
    (resourceMember : resource ∈ groups Observation.resource observations)
    (scopeMember : scope ∈ groups Observation.scope resource.2)
    (metricMember : metric ∈ groups Observation.metric scope.2) :
    ⟨resource.1, scope.1, metric.1, metric.2⟩ ∈ metricGroups observations :=
  List.mem_flatMap.mpr ⟨resource, resourceMember,
    List.mem_flatMap.mpr ⟨scope, scopeMember, List.mem_map_of_mem metricMember⟩⟩

/-- Every observation is in the group of its metric. -/
theorem exists_mem_metricGroups
    {observations : List Observation}
    {observation : Observation}
    (member : observation ∈ observations) :
    ∃ group ∈ metricGroups observations, observation ∈ group.members := by
  obtain ⟨resource, resourceMember, inResource⟩ :=
    exists_mem_groups Observation.resource member
  obtain ⟨scope, scopeMember, inScope⟩ := exists_mem_groups Observation.scope inResource
  obtain ⟨metric, metricMember, inMetric⟩ := exists_mem_groups Observation.metric inScope
  exact ⟨_, mem_metricGroups resourceMember scopeMember metricMember, inMetric⟩

/-- A group has all observations of its metric, in their order, and at least one. -/
theorem of_mem_metricGroups
    {observations : List Observation}
    {group : MetricGroup}
    (member : group ∈ metricGroups observations) :
    group.members = observations.filter group.covers ∧ group.members ≠ [] := by
  obtain ⟨resource, resourceMember, inResource⟩ := List.mem_flatMap.mp member
  obtain ⟨scope, scopeMember, inScope⟩ := List.mem_flatMap.mp inResource
  obtain ⟨metric, metricMember, rfl⟩ := List.mem_map.mp inScope
  refine ⟨?_, ne_nil_of_mem_groups metricMember⟩
  have metricIs := (mem_groups_iff.mp metricMember).2
  rw [(mem_groups_iff.mp scopeMember).2, (mem_groups_iff.mp resourceMember).2] at metricIs
  dsimp only
  rw [metricIs, List.filter_filter, List.filter_filter]
  apply List.filter_congr
  intro observation _
  rw [MetricGroup.covers, Bool.and_comm, Bool.and_comm (decide (observation.metric = _)),
    Bool.and_assoc]

/-- The observations of a group are of its metric. -/
theorem ofMetric_of_mem_metricGroups
    {observations : List Observation}
    {group : MetricGroup}
    (member : group ∈ metricGroups observations) :
    OfMetric group.resource group.scope group.name group.members := by
  intro observation inGroup
  rw [(of_mem_metricGroups member).1] at inGroup
  have covered := (List.mem_filter.mp inGroup).2
  simpa [MetricGroup.covers, and_assoc] using covered

/-- An observation of a group is one of those that were grouped. -/
theorem mem_of_mem_metricGroups
    {observations : List Observation}
    {group : MetricGroup}
    {observation : Observation}
    (member : group ∈ metricGroups observations)
    (inGroup : observation ∈ group.members) :
    observation ∈ observations := by
  rw [(of_mem_metricGroups member).1] at inGroup
  exact (List.mem_filter.mp inGroup).1

/-- The resource of a group has the keys of a resource if those of all observations do. -/
theorem isResourceLevel_of_mem_metricGroups
    {observations : List Observation}
    {group : MetricGroup}
    (each : ∀ observation ∈ observations, ∀ key,
      observation.resource.contains key -> TagLevels.isResourceLevel key)
    (member : group ∈ metricGroups observations) :
    ∀ key, group.resource.contains key -> TagLevels.isResourceLevel key := by
  obtain ⟨observation, inGroup⟩ :=
    List.exists_mem_of_ne_nil _ (of_mem_metricGroups member).2
  have sameResource := (ofMetric_of_mem_metricGroups member observation inGroup).1
  rw [<- sameResource]
  exact each observation (mem_of_mem_metricGroups member inGroup)

/-- The metric of a group of consistent observations stands at its place in the tree. -/
theorem mem_placedMetrics_of_mem_metricGroups
    {observations : List Observation}
    {group : MetricGroup}
    (consistent : Consistent observations)
    (member : group ∈ metricGroups observations) :
    (group.placement, group.metric) ∈ (tree observations).placedMetrics := by
  rw [placedMetrics_tree, consistent.accepted_eq]
  exact List.mem_map_of_mem member

/-- Consistent observations of a group are of one kind, and make the data of that kind. -/
theorem exists_kind_of_mem_metricGroups
    {observations : List Observation}
    {group : MetricGroup}
    (consistent : Consistent observations)
    (member : group ∈ metricGroups observations) :
    ∃ kind,
      (∀ observation ∈ group.members, observation.reading.kind = kind) ∧
        group.metric.data =
          some (dataOf kind (group.members.map Observation.reading)) := by
  have inObservations : group.members ⊆ observations :=
    fun _ inGroup => mem_of_mem_metricGroups member inGroup
  have oneKind := (ofMetric_of_mem_metricGroups member).kind_eq
    (consistent.subset inObservations)
  rw [MetricGroup.metric, metricOf]
  cases members : group.members with
  | nil => exact absurd members (of_mem_metricGroups member).2
  | cons first rest =>
      rw [members] at oneKind
      exact ⟨first.reading.kind,
        fun observation inGroup => oneKind observation inGroup first List.mem_cons_self, rfl⟩

end Grouping
end LineMetrics
