import LineMetrics.Proofs.LastSlices

/-!
# Assembled metrics

A batch of sliced points turns each metric that has accepted slices into a distribution,
and these slices alone decide what it is. Whatever else comes in between, for other
series, for other metrics or without being accepted, leaves no trace in it.
-/

namespace LineMetrics

namespace Batch

open Grouping

/-- The observations of accepted points are the accepted observations, if each point has
one observation. -/
theorem observations_acceptedArrivals
    {batch : Batch}
    {schema : Schema}
    {earlier : List Observation}
    {arrivals : List Arrival}
    (hasSchema : batch.schema = schema)
    (gathers : batch.Gathers (accepted earlier))
    (single : ∀ arrival ∈ arrivals, ∀ result,
      observations schema arrival.now arrival.point = .ok result ->
        ∃ observation, result = [observation]) :
    Grouping.observations schema (batch.acceptedArrivals arrivals) =
      (Grouping.observations schema arrivals).filter fun observation =>
        (refusal (earlier ++ Grouping.observations schema arrivals) observation).isNone := by
  induction arrivals generalizing batch earlier with
  | nil => rfl
  | cons arrival arrivals inductionHypothesis =>
      obtain ⟨singleHere, singleBehind⟩ := List.forall_mem_cons.mp single
      have observationsHere (arrivals : List Arrival) :
          Grouping.observations schema (arrival :: arrivals) =
            (observations schema arrival.now arrival.point).toOption.getD [] ++
              Grouping.observations schema arrivals :=
        observations_cons schema arrival arrivals
      rw [acceptedArrivals_cons]
      cases read : observations schema arrival.now arrival.point with
      | error error =>
          rw [add_of_unreadable hasSchema read, observationsHere, read]
          exact inductionHypothesis hasSchema gathers singleBehind
      | ok result =>
          obtain ⟨observation, rfl⟩ := singleHere result read
          obtain ⟨answer, nextSchema, nextGathers⟩ := add_of_single hasSchema gathers read
          have others := inductionHypothesis nextSchema nextGathers singleBehind
          rw [observationsHere, read, answer]
          dsimp only [Except.toOption, Option.getD_some, List.singleton_append]
          rw [List.filter_cons, refusal_append_cons_self, List.append_cons, <- others]
          split
          · rw [List.singleton_append, observationsHere, read]
            rfl
          · rfl

/-- The observations of accepted sliced points are the accepted observations. -/
theorem observations_acceptedArrivals_sliced (arrivals : List Arrival) :
    Grouping.observations .sliced ((empty .sliced).acceptedArrivals arrivals) =
      accepted (Grouping.observations .sliced arrivals) := by
  have gathers : (empty .sliced).Gathers (accepted []) := gathers_empty .sliced
  exact observations_acceptedArrivals rfl gathers fun _ _ _ read =>
    Sliced.exists_observation read

end Batch

namespace MetricData

/-- The data points are histograms or summaries. -/
def isDistribution : MetricData -> Bool
  | .gauge _ => false
  | .sum .. => false
  | .histogram .. => true
  | .exponentialHistogram => true
  | .summary _ => true

end MetricData

namespace Grouping

/-- The slice that an observation states for a metric. -/
def partOf?
    (resource : Tags)
    (scope : Scope)
    (metric : String)
    (observation : Observation) : Option SeriesSlice :=
  if observation.resource = resource ∧ observation.scope = scope ∧
      observation.metric = metric then
    observation.reading.slice?
  else none

/-- The slices that accepted points state for a metric, in the order in which they
arrive. -/
def acceptedParts
    (arrivals : List Arrival)
    (resource : Tags)
    (scope : Scope)
    (metric : String) : List SeriesSlice :=
  (observations .sliced ((Batch.empty .sliced).acceptedArrivals arrivals)).filterMap
    (partOf? resource scope metric)

/-- The slices that points state are those from before and the one of a point that is accepted
behind them. -/
theorem acceptedParts_append_singleton
    (arrivals : List Arrival)
    (arrival : Arrival)
    {observation : Observation}
    {part : SeriesSlice}
    (accepted :
      (((Batch.empty .sliced).run arrivals).1.add arrival.now arrival.point).2 = none)
    (said : Sliced.observations arrival.now arrival.point = .ok [observation])
    (sliced : observation.reading.slice? = some part) :
    acceptedParts (arrivals ++ [arrival]) observation.resource observation.scope
        observation.metric =
      acceptedParts arrivals observation.resource observation.scope observation.metric ++
        [part] := by
  have read : Batch.observations .sliced arrival.now arrival.point = .ok [observation] := said
  have last : ((Batch.empty .sliced).run arrivals).1.acceptedArrivals [arrival] =
      [arrival] := by
    rw [Batch.acceptedArrivals_cons, accepted]
    rfl
  have stated :
      partOf? observation.resource observation.scope observation.metric observation =
        some part := by
    rw [partOf?, if_pos ⟨rfl, rfl, rfl⟩, sliced]
  rw [acceptedParts, acceptedParts, Batch.acceptedArrivals_append, last, observations,
    List.flatMap_append, List.flatMap_singleton, read, List.filterMap_append]
  exact congrArg _ (List.filterMap_cons_some stated)

/-- The slices of a group are those that are stated for its metric. -/
theorem filterMap_partOf?
    {observations : List Observation}
    {group : MetricGroup}
    (member : group ∈ metricGroups observations) :
    (group.members.map Observation.reading).filterMap Reading.slice? =
      observations.filterMap (partOf? group.resource group.scope group.name) := by
  rw [(of_mem_metricGroups member).1, List.filterMap_map, List.filterMap_filter]
  apply List.filterMap_congr
  intro observation _
  rw [partOf?]
  by_cases covered : group.covers observation = true
  · rw [if_pos covered, if_pos (by simpa [MetricGroup.covers, and_assoc] using covered)]
    rfl
  · rw [if_neg covered, if_neg (by simpa [MetricGroup.covers] using covered)]

/-- A reading in which a slice is found is one. -/
theorem kind_of_slice?
    {reading : Reading}
    {part : SeriesSlice}
    (found : reading.slice? = some part) :
    reading.kind = .assembled := by
  cases reading <;> cases found
  rfl

/-- Data of a distribution are whole ones or assembled. -/
theorem kind_of_isDistribution
    {kind : MetricKind}
    {readings : List Reading}
    (distribution : (dataOf kind readings).isDistribution = true) :
    kind = .assembled ∨ ∃ whole, kind = .whole whole := by
  cases kind with
  | gauge => cases distribution
  | sum => cases distribution
  | whole whole => exact .inr ⟨whole, rfl⟩
  | assembled => exact .inl rfl

/-- The data of slices are a distribution. -/
theorem isDistribution_data (parts : List SeriesSlice) :
    (LastSlices.data parts).isDistribution = true := by
  rw [LastSlices.data]
  dsimp only
  split <;> rfl

variable {arrivals : List Arrival}

/-- The slices of a metric are readable. -/
theorem isReadable_of_mem_parts
    {resource : Tags}
    {scope : Scope}
    {metric : String}
    {part : SeriesSlice}
    (member : part ∈
      (accepted (observations .sliced arrivals)).filterMap (partOf? resource scope metric)) :
    part.slice.IsReadable metric := by
  obtain ⟨observation, observationMember, stated⟩ := List.mem_filterMap.mp member
  obtain ⟨arrival, -, read⟩ :=
    Sliced.exists_of_mem_observations (List.mem_filter.mp observationMember).1
  rw [partOf?] at stated
  split at stated
  · rename_i ofMetric
    rw [<- ofMetric.2.2]
    exact (Sliced.slices_of_observations read).2 part stated
  · cases stated

/-- A group of accepted slices makes the data of the last ones. -/
theorem data_of_assembled
    {group : MetricGroup}
    (member : group ∈ metricGroups (accepted (observations .sliced arrivals))) :
    dataOf .assembled (group.members.map Observation.reading) =
      LastSlices.data (acceptedParts arrivals group.resource group.scope group.name) := by
  rw [dataOf, acceptedParts, Batch.observations_acceptedArrivals_sliced,
    filterMap_partOf? member]
  exact assembledData_eq_lastSlices fun part inParts => isReadable_of_mem_parts inParts

/-- A group of accepted observations of sliced points makes a distribution only if slices
are assembled for it, and it has one. -/
theorem assembled_of_isDistribution
    {group : MetricGroup}
    {kind : MetricKind}
    (member : group ∈ metricGroups (accepted (observations .sliced arrivals)))
    (ofKind : ∀ observation ∈ group.members, observation.reading.kind = kind)
    (distribution :
      (dataOf kind (group.members.map Observation.reading)).isDistribution = true) :
    kind = .assembled ∧
      ∃ observation ∈ group.members, observation.reading.kind = .assembled := by
  obtain ⟨observation, inGroup⟩ :=
    List.exists_mem_of_ne_nil _ (of_mem_metricGroups member).2
  have sameKind := ofKind observation inGroup
  obtain ⟨arrival, -, read⟩ := Sliced.exists_of_mem_observations
    (List.mem_filter.mp (mem_of_mem_metricGroups member inGroup)).1
  rcases kind_of_isDistribution distribution with assembled | ⟨whole, isWhole⟩
  · exact ⟨assembled, observation, inGroup, sameKind.trans assembled⟩
  · exact absurd (sameKind.trans isWhole) (Sliced.kind_of_observations whole read)

/-- A metric has accepted slices exactly if it has a group with one of them. -/
theorem acceptedParts_ne_nil_iff
    {resource : Tags}
    {scope : Scope}
    {metric : String} :
    acceptedParts arrivals resource scope metric ≠ [] ↔
      ∃ members,
        ⟨resource, scope, metric, members⟩ ∈
            metricGroups (accepted (observations .sliced arrivals)) ∧
          ∃ observation ∈ members, observation.reading.kind = .assembled := by
  rw [acceptedParts, Batch.observations_acceptedArrivals_sliced]
  constructor
  · intro nonempty
    obtain ⟨part, partMember⟩ := List.exists_mem_of_ne_nil _ nonempty
    obtain ⟨observation, observationMember, stated⟩ := List.mem_filterMap.mp partMember
    obtain ⟨group, groupMember, inGroup⟩ := exists_mem_metricGroups observationMember
    obtain ⟨sameResource, sameScope, sameName⟩ :=
      ofMetric_of_mem_metricGroups groupMember observation inGroup
    rw [partOf?] at stated
    split at stated
    · rename_i ofMetric
      obtain ⟨rfl, rfl, rfl⟩ := ofMetric
      refine ⟨group.members, ?_, observation, inGroup, kind_of_slice? stated⟩
      rw [sameResource, sameScope, sameName]
      exact groupMember
    · cases stated
  · rintro ⟨members, groupMember, observation, inGroup, assembled⟩
    obtain ⟨part, found⟩ := exists_slice?_of_kind assembled
    rw [<- filterMap_partOf? groupMember]
    exact List.ne_nil_of_mem <|
      List.mem_filterMap.mpr ⟨observation.reading, List.mem_map_of_mem inGroup, found⟩

end Grouping

namespace Batch

open Grouping

/-- A distribution in the tree of sliced points is made of the last accepted slices of its
metric. -/
theorem exists_acceptedParts_of_mem
    {arrivals : List Arrival}
    {placement : Placement}
    {metric : String}
    {data : MetricData}
    (member : (placement, ⟨metric, some data⟩) ∈
      ((empty .sliced).run arrivals).1.finish.placedMetrics)
    (distribution : data.isDistribution = true) :
    ∃ resource scope,
      placement = .of resource scope ∧
        acceptedParts arrivals resource scope metric ≠ [] ∧
          data = LastSlices.data (acceptedParts arrivals resource scope metric) := by
  rw [finish_run, placedMetrics_tree] at member
  obtain ⟨group, groupMember, same⟩ := List.mem_map.mp member
  obtain ⟨rfl, isMetric⟩ := Prod.mk.inj same
  have named : group.name = metric := congrArg Metric.name isMetric
  obtain ⟨kind, ofKind, groupData⟩ :=
    exists_kind_of_mem_metricGroups (consistent_accepted _) groupMember
  rw [isMetric] at groupData
  obtain rfl := Option.some.inj groupData
  obtain ⟨rfl, hasSlice⟩ := assembled_of_isDistribution groupMember ofKind distribution
  subst named
  exact ⟨group.resource, group.scope, rfl,
    acceptedParts_ne_nil_iff.mpr ⟨group.members, groupMember, hasSlice⟩,
    data_of_assembled groupMember⟩

/-- A metric with accepted slices stands in the tree of sliced points, with the data that
the last ones make. -/
theorem mem_of_acceptedParts_ne_nil
    {arrivals : List Arrival}
    {resource : Tags}
    {scope : Scope}
    {metric : String}
    (nonempty : acceptedParts arrivals resource scope metric ≠ []) :
    (.of resource scope,
        ⟨metric, some (LastSlices.data (acceptedParts arrivals resource scope metric))⟩) ∈
      ((empty .sliced).run arrivals).1.finish.placedMetrics := by
  rw [finish_run, placedMetrics_tree]
  obtain ⟨members, groupMember, observation, inGroup, assembled⟩ :=
    acceptedParts_ne_nil_iff.mp nonempty
  obtain ⟨kind, ofKind, groupData⟩ :=
    exists_kind_of_mem_metricGroups (consistent_accepted _) groupMember
  have isAssembled : kind = .assembled := (ofKind observation inGroup).symm.trans assembled
  rw [isAssembled, data_of_assembled groupMember] at groupData
  refine List.mem_map.mpr ⟨_, groupMember, ?_⟩
  rw [<- groupData]
  rfl

end Batch
end LineMetrics
