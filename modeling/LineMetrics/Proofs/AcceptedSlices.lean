import LineMetrics.Proofs.Contributions

/-!
# Distributions from accepted lines

A line of a sliced distribution states one slice, by its tags and fields alone. It is
accepted unless its metric is a gauge or a counter already. The slices of the accepted lines
are all that the distribution is made of.
-/

namespace LineMetrics

namespace Grouping

/-- The slices that points state for a metric, in the order in which they arrive. -/
def StatedParts
    (resource : Tags)
    (scope : Scope)
    (metric : String) : List Arrival -> List SeriesSlice -> Prop :=
  YieldInOrder fun arrival parts =>
    ∃ part, parts = [part] ∧
      Sliced.StatesPart arrival.now arrival.point resource scope metric part

variable {resource : Tags} {scope : Scope} {metric : String} {part : SeriesSlice}

/-- A slice of the metric is found in what is read from a point exactly if the point states
it. -/
theorem partOf?_eq_some_iff {now : UInt64} {point : Point} {observation : Observation}
    (read : Sliced.observations now point = .ok [observation]) :
    partOf? resource scope metric observation = some part ↔
      Sliced.StatesPart now point resource scope metric part := by
  constructor
  · intro found
    rw [partOf?] at found
    split at found
    · rename_i ofMetric
      obtain ⟨rfl, rfl, rfl⟩ := ofMetric
      cases Sliced.observations_eq_ok_iff_contributes.mp read with
      | gauge => cases found
      | sum => cases found
      | slice states =>
          cases found
          exact states
    · cases found
  · intro states
    cases read.symm.trans states.observations_eq
    exact if_pos ⟨rfl, rfl, rfl⟩

/-- A point that states a slice has nothing else to say of the metric. -/
theorem filterMap_partOf?_of_states {now : UInt64} {point : Point}
    (states : Sliced.StatesPart now point resource scope metric part) :
    ((Batch.observations .sliced now point).toOption.getD []).filterMap
        (partOf? resource scope metric) =
      [part] := by
  have read : Batch.observations .sliced now point = _ := states.observations_eq
  rw [read]
  exact List.filterMap_cons_some ((partOf?_eq_some_iff states.observations_eq).mpr states)

/-- A point that states no slice has nothing to say of the metric. -/
theorem filterMap_partOf?_of_silent {now : UInt64} {point : Point}
    (silent : ∀ part, ¬Sliced.StatesPart now point resource scope metric part) :
    ((Batch.observations .sliced now point).toOption.getD []).filterMap
        (partOf? resource scope metric) =
      [] := by
  cases read : Batch.observations .sliced now point with
  | error error => rfl
  | ok result =>
      obtain ⟨observation, rfl⟩ := Sliced.exists_observation read
      refine List.filterMap_cons_none (Option.eq_none_iff_forall_not_mem.mpr ?_)
      exact fun part found => silent part ((partOf?_eq_some_iff read).mp found)

/-- The slices that points state for a metric are those that are found in their
observations. -/
theorem statedParts_iff {arrivals : List Arrival} {parts : List SeriesSlice} :
    StatedParts resource scope metric arrivals parts ↔
      parts = (observations .sliced arrivals).filterMap (partOf? resource scope metric) := by
  rw [observations, List.filterMap_flatMap]
  refine yieldInOrder_iff ?_ fun arrival silent => ?_
  · rintro arrival _ ⟨part, rfl, states⟩
    exact filterMap_partOf?_of_states states
  · exact filterMap_partOf?_of_silent fun part states => silent [part] ⟨part, rfl, states⟩

/-! ## Acceptance -/

/-- An observation is let in behind others exactly if all accepted ones of its metric are of
its kind. -/
theorem refusal_eq_none_iff_forall {earlier : List Observation} {observation : Observation} :
    refusal earlier observation = none ↔
      ∀ other ∈ accepted earlier, sameMetric observation other = true ->
        other.reading.kind = observation.reading.kind := by
  rw [<- refusal_accepted, refusal_eq_none_iff]
  constructor
  · intro letIn other member same
    cases found : (accepted earlier).find? (sameMetric observation) with
    | none => exact absurd same (List.find?_eq_none.mp found other member)
    | some first =>
        have alike : sameMetric other first = true := by
          rw [<- sameMetric_congr same]
          exact List.find?_some found
        have sameKind := consistent_accepted earlier other member first
          (List.mem_of_find?_eq_some found) alike
        exact sameKind.trans (letIn first found)
  · intro each first found
    exact each first (List.mem_of_find?_eq_some found) (List.find?_some found)

/-- Observations of one metric have its resource, its scope and its name. -/
theorem sameMetric_iff {left right : Observation} :
    sameMetric left right = true ↔
      left.resource = right.resource ∧ left.scope = right.scope ∧
        left.metric = right.metric := by
  simp only [sameMetric, Bool.and_eq_true, decide_eq_true_eq, and_assoc]

/-- All accepted observations of a metric of sliced points are slices exactly if it is a
distribution in their tree, or is not there at all. -/
theorem forall_assembled_iff {arrivals : List Arrival} :
    (∀ other ∈ accepted (observations .sliced arrivals),
        resource = other.resource ∧ scope = other.scope ∧ metric = other.metric ->
          other.reading.kind = .assembled) ↔
      ∀ data,
        (.of resource scope, ⟨metric, some data⟩) ∈
            (tree (observations .sliced arrivals)).placedMetrics ->
          data.isDistribution = true := by
  rw [placedMetrics_tree]
  constructor
  · intro each data member
    obtain ⟨group, groupMember, same⟩ := List.mem_map.mp member
    obtain ⟨placed, isMetric⟩ := Prod.mk.inj same
    obtain ⟨sameResource, sameScope⟩ := Placement.eq_of_of placed
    obtain ⟨other, inGroup⟩ := List.exists_mem_of_ne_nil _ (of_mem_metricGroups groupMember).2
    obtain ⟨otherResource, otherScope, otherName⟩ :=
      ofMetric_of_mem_metricGroups groupMember other inGroup
    have named : group.name = metric := congrArg Metric.name isMetric
    have assembled := each other (mem_of_mem_metricGroups groupMember inGroup)
      ⟨sameResource.symm.trans otherResource.symm, sameScope.symm.trans otherScope.symm,
        named.symm.trans otherName.symm⟩
    obtain ⟨kind, ofKind, groupData⟩ :=
      exists_kind_of_mem_metricGroups (consistent_accepted _) groupMember
    rw [<- ofKind other inGroup, assembled, data_of_assembled groupMember, isMetric]
      at groupData
    rw [Option.some.inj groupData]
    exact isDistribution_data _
  · rintro each other member ⟨rfl, rfl, rfl⟩
    obtain ⟨group, groupMember, inGroup⟩ := exists_mem_metricGroups member
    obtain ⟨sameResource, sameScope, sameName⟩ :=
      ofMetric_of_mem_metricGroups groupMember other inGroup
    obtain ⟨kind, ofKind, groupData⟩ :=
      exists_kind_of_mem_metricGroups (consistent_accepted _) groupMember
    have distribution := each _ <| List.mem_map.mpr ⟨group, groupMember, by
      rw [MetricGroup.placement, sameResource, sameScope, sameName, <- groupData]
      rfl⟩
    rw [ofKind other inGroup]
    exact (assembled_of_isDistribution groupMember ofKind distribution).1

end Grouping

namespace Batch

open Grouping

/-- A line that states a slice is accepted behind a run exactly if its metric is a
distribution in the tree of the run, or is not there yet. -/
theorem add_statesPart_iff
    {resource : Tags}
    {scope : Scope}
    {metric : String}
    {part : SeriesSlice}
    {now : UInt64}
    {point : Point}
    (arrivals : List Arrival)
    (states : Sliced.StatesPart now point resource scope metric part) :
    (((empty .sliced).run arrivals).1.add now point).2 = none ↔
      ∀ data,
        (.of resource scope, ⟨metric, some data⟩) ∈
            ((empty .sliced).run arrivals).1.finish.placedMetrics ->
          data.isDistribution = true := by
  have read : observations .sliced now point = _ := states.observations_eq
  have schema : ((empty .sliced).run arrivals).1.schema = .sliced := by
    rw [run_fst, schema_recordAll]
    rfl
  rw [(add_of_single schema (run_gathers .sliced arrivals) read).1, finish_run,
    <- forall_assembled_iff, refusal_eq_none_iff_forall]
  simp only [sameMetric_iff]
  rfl

/-- The histograms and summaries of a batch of sliced points are those of the metrics for
which accepted lines state slices. Each of them is made of the last ones of these slices,
whatever else the batch received before, after or between them. A line with a slice is
accepted unless its metric has already been taken for something else. -/
theorem run_finish_distribution_iff (arrivals : List Arrival) :
    let batch := ((empty .sliced).run arrivals).1
    let accepted := (empty .sliced).acceptedArrivals arrivals
    (∀ placement metric data,
      (placement, ⟨metric, some data⟩) ∈ batch.finish.placedMetrics ∧
          data.isDistribution = true ↔
        ∃ resource scope parts,
          placement = .of resource scope ∧
            StatedParts resource scope metric accepted parts ∧
            parts ≠ [] ∧
            data = LastSlices.data parts) ∧
    ∀ now point resource scope metric part,
      Sliced.StatesPart now point resource scope metric part ->
        ((batch.add now point).2 = none ↔
          ∀ data, (.of resource scope, ⟨metric, some data⟩) ∈ batch.finish.placedMetrics ->
            data.isDistribution = true) := by
  refine ⟨fun placement metric data => ⟨?_, ?_⟩, fun _ _ _ _ _ _ => add_statesPart_iff arrivals⟩
  · rintro ⟨member, distribution⟩
    obtain ⟨resource, scope, placed, nonempty, made⟩ :=
      exists_acceptedParts_of_mem member distribution
    exact ⟨resource, scope, _, placed, statedParts_iff.mpr rfl, nonempty, made⟩
  · rintro ⟨resource, scope, parts, rfl, stated, nonempty, rfl⟩
    obtain rfl : parts = acceptedParts arrivals resource scope metric := statedParts_iff.mp stated
    exact ⟨mem_of_acceptedParts_ne_nil nonempty, isDistribution_data _⟩

/-- A bucket that is stated twice and a total make one data point. A gauge and a quantile in
between are other metrics, and the gauge refuses a bucket. -/
theorem run_finish_distribution_repeated_bucket :
    let line (tags : List (String × String)) (fields : List (String × FieldValue)) : Point := {
      measurement := "prometheus"
      tags := .ofList tags
      fields := .ofList fields
      time := 5 }
    let refused := line [("le", "2")] [("other_bucket", .int 8)]
    let arrivals : List Arrival := [
      ⟨9, line [("le", "1"), ("zone", "east")] [("lag_bucket", .int 3)]⟩,
      ⟨9, line [] [("other", .int 2)]⟩,
      ⟨9, line [("le", "1.0"), ("zone", "east")] [("lag_bucket", .uint 4)]⟩,
      ⟨9, refused⟩,
      ⟨9, line [("zone", "east")] [("lag_count", .int 9), ("lag_sum", .int 7)]⟩,
      ⟨9, line [("quantile", "0.5")] [("temp", .int 2)]⟩]
    let batch := ((empty .sliced).run arrivals).1
    let accepted := (empty .sliced).acceptedArrivals arrivals
    let one : Binary64 := ⟨0x3FF0000000000000⟩
    let seven : Binary64 := ⟨0x401C000000000000⟩
    let slice (slice : Slice) : SeriesSlice := ⟨false, ⟨5, .ofList [("zone", "east")]⟩, slice⟩
    let lag : HistogramPoint := {
      attributes := [.ofText "zone" "east"]
      time := 5
      count := 9
      sum := some seven
      counts := [4, 5]
      bounds := [one] }
    let temp : SummaryPoint := {
      time := 5
      quantiles := [⟨⟨0x3FE0000000000000⟩, ⟨0x4000000000000000⟩⟩] }
    StatedParts ∅ ⟨"", ""⟩ "lag" accepted
        [slice (.bucket one 3), slice (.bucket one 4), slice (.total 9 seven)] ∧
      (.of ∅ ⟨"", ""⟩, ⟨"lag", some (.histogram [lag] Temporality.cumulative.code)⟩) ∈
        batch.finish.placedMetrics ∧
      (∃ part, Sliced.StatesPart 9 refused ∅ ⟨"", ""⟩ "other" part) ∧
      (batch.add 9 refused).2 ≠ none ∧
      batch.finish = [⟨some [], [⟨some ⟨"", ""⟩, [
        ⟨"lag", some <| .histogram [lag] Temporality.cumulative.code⟩,
        ⟨"other", some <| .gauge [{ time := 5, value := some (.int 2) }]⟩,
        ⟨"temp", some <| .summary [temp]⟩]⟩]⟩] := by
  intro line refused arrivals batch accepted one seven slice lag temp
  obtain ⟨distributions, letsIn⟩ := run_finish_distribution_iff arrivals
  have stated : StatedParts ∅ ⟨"", ""⟩ "lag" accepted
      [slice (.bucket one 3), slice (.bucket one 4), slice (.total 9 seven)] :=
    statedParts_iff.mpr (by decide +kernel)
  have made : MetricData.histogram [lag] Temporality.cumulative.code =
      LastSlices.data [slice (.bucket one 3), slice (.bucket one 4), slice (.total 9 seven)] := by
    decide +kernel
  have member := ((distributions _ "lag" _).mpr
    ⟨∅, ⟨"", ""⟩, _, rfl, stated, List.cons_ne_nil _ _, made⟩).1
  have read : Sliced.observations 9 refused =
      .ok [⟨∅, ⟨"", ""⟩, "other", .slice false ⟨5, ∅⟩ (.bucket ⟨0x4000000000000000⟩ 8)⟩] :=
    eq_ok_of_toOption (by decide +kernel)
  have states : Sliced.StatesPart 9 refused ∅ ⟨"", ""⟩ "other"
      ⟨false, ⟨5, ∅⟩, .bucket ⟨0x4000000000000000⟩ 8⟩ :=
    (partOf?_eq_some_iff read).mp (by decide)
  refine ⟨stated, member, ⟨_, states⟩, fun letIn => ?_, by decide +kernel⟩
  have gauge := (letsIn 9 refused _ _ _ _ states).mp letIn
    (.gauge [{ time := 5, value := some (.int 2) }]) (by decide +kernel)
  cases gauge

end Batch
end LineMetrics
