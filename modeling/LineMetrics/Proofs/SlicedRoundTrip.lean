import LineMetrics.Proofs.WrittenMetrics
import LineMetrics.Proofs.WrittenTrees

/-!
# There and back with sliced points

The points that a tree is written as say observations that make the same tree. So a
batch that takes these points accepts all of them and finishes as the tree that was
written.
-/

namespace LineMetrics

/-- A tree whose metrics do not change does not change. -/
theorem MetricTree.mapMetrics_eq_self
    {change : Metric -> Metric}
    {tree : MetricTree}
    (unchanged : ∀ placed ∈ tree.placedMetrics, change placed.2 = placed.2) :
    tree.mapMetrics change = tree := by
  refine (List.map_congr_left fun resource resourceMember => ?_).trans (List.map_id _)
  have scopes : (resource.scopes.map fun scope =>
      { scope with metrics := scope.metrics.map change }) = resource.scopes := by
    refine (List.map_congr_left fun scope scopeMember => ?_).trans (List.map_id _)
    have metrics : scope.metrics.map change = scope.metrics := by
      refine (List.map_congr_left fun metric metricMember => ?_).trans (List.map_id _)
      exact unchanged (⟨resource.resource.getD [], scope.scope⟩, metric) <|
        List.mem_flatMap.mpr ⟨resource, resourceMember,
          List.mem_flatMap.mpr ⟨scope, scopeMember, List.mem_map_of_mem metricMember⟩⟩
    rw [metrics]
    rfl
  rw [scopes]
  rfl

namespace HistogramPoint

/-- The counts in the slices of a data point that can be restored are binary64 numbers. -/
theorem exact_slices
    {point : HistogramPoint}
    (restorable : point.isRestorable = true) :
    ∀ slice ∈ point.slices, slice.IsExact := by
  obtain ⟨-, sumsUp, small⟩ := of_isRestorable restorable
  intro slice member
  rcases mem_slices_iff.mp member with rfl | ⟨someBuckets, ⟨bucket, bucketMember, rfl⟩ | rfl⟩
  · exact small
  · exact Nat.le_trans (toNat_le_of_mem_runningTotals (sumsUp someBuckets) bucketMember) small
  · exact small

end HistogramPoint

/-- The count in the slices of a data point that can be restored is a binary64 number. -/
theorem SummaryPoint.exact_slices
    {point : SummaryPoint}
    (restorable : point.isRestorable = true) :
    ∀ slice ∈ point.slices, slice.IsExact := by
  have small : point.count.toNat ≤ 2 ^ 53 := of_decide_eq_true restorable
  refine List.forall_mem_cons.mpr ⟨small, fun slice member => ?_⟩
  obtain ⟨quantile, -, rfl⟩ := List.mem_map.mp member
  exact trivial

namespace Grouping

/-- The slices that data points which can be restored are cut into are read again as they
were. -/
theorem restated_rewrittenParts
    {parts : List SeriesSlice}
    (restorable : (assembledData parts).isRestorable = true) :
    (rewrittenParts parts).map SeriesSlice.restated = rewrittenParts parts := by
  refine (List.map_congr_left fun part member => ?_).trans (List.map_id _)
  obtain ⟨group, groupMember, inGroup⟩ := List.mem_flatMap.mp member
  obtain ⟨slice, sliceMember, rfl⟩ := List.mem_map.mp inGroup
  suffices exactCount : slice.IsExact by
    rw [SeriesSlice.restated, Slice.restated_of_isExact exactCount]
    rfl
  rw [assembledData_eq] at restorable
  cases summary : makesSummary parts with
  | true =>
      rw [summary, if_pos rfl] at restorable sliceMember
      rw [MetricData.isRestorable, List.all_map, List.all_eq_true] at restorable
      exact SummaryPoint.exact_slices (restorable group groupMember) slice sliceMember
  | false =>
      rw [summary, if_neg Bool.false_ne_true] at restorable sliceMember
      rw [MetricData.isRestorable, List.all_map, List.all_eq_true] at restorable
      exact HistogramPoint.exact_slices (restorable group groupMember) slice sliceMember

/-- Data of readable slices that can be restored are read again as they were. -/
theorem restated_assembledData
    {metric : String}
    {parts : List SeriesSlice}
    (readable : ∀ part ∈ parts, part.slice.IsReadable metric)
    (restorable : (assembledData parts).isRestorable = true) :
    (assembledData parts).restated = assembledData parts := by
  rw [assembledData_eq] at restorable ⊢
  cases summary : makesSummary parts with
  | true =>
      rw [summary, if_pos rfl, MetricData.isRestorable, List.all_map, List.all_eq_true]
        at restorable
      rw [if_pos rfl, MetricData.restated, List.map_map]
      congr 1
      apply List.map_congr_left
      intro group member
      exact SummaryPoint.restated_eq (restorable group member)
  | false =>
      rw [summary, if_neg Bool.false_ne_true, MetricData.isRestorable, List.all_map,
        List.all_eq_true] at restorable
      rw [if_neg Bool.false_ne_true, MetricData.restated, List.map_map]
      congr 1
      apply List.map_congr_left
      intro group member
      have placed : (assemble group.2).Placed metric :=
        placed_assemble fun part inGroup =>
          readable part (of_mem_of_mem_groups member inGroup).1
      exact (placed.wellFormed group.1).restated_eq (restorable group member)

/-- Data of readings that sliced points can hold, if they can be restored, are read again
as they were, and so is what they are written as. -/
theorem restated_dataOf
    {metric : String}
    {kind : MetricKind}
    {readings : List Reading}
    (sameKind : ∀ reading ∈ readings, reading.kind = kind)
    (reads : ∀ reading ∈ readings, Sliced.Reads metric reading)
    (restorable : (dataOf kind readings).isRestorable = true) :
    (dataOf kind readings).restated = dataOf kind readings ∧
      (rewritten kind readings).map Reading.restated = rewritten kind readings := by
  obtain ⟨noHistogram, noSummary, readable⟩ := of_reads reads
  have numbers (notAssembled : kind ≠ .assembled) :
      readings.map Reading.restated = readings := by
    refine (List.map_congr_left fun reading member => ?_).trans (List.map_id _)
    have ofKind := sameKind reading member
    cases reading with
    | slice preferSummary series slice => exact absurd ofKind.symm notAssembled
    | gauge => rfl
    | sum => rfl
    | histogram => rfl
    | summary => rfl
  cases kind with
  | assembled =>
      refine ⟨restated_assembledData readable restorable, ?_⟩
      have exactParts := restated_rewrittenParts restorable
      rw [rewritten]
      conv_rhs => rw [<- exactParts]
      rw [List.map_map, List.map_map]
      rfl
  | gauge => exact ⟨rfl, numbers fun same => by cases same⟩
  | sum temporality => exact ⟨rfl, numbers fun same => by cases same⟩
  | whole distribution =>
      refine ⟨?_, numbers fun same => by cases same⟩
      cases distribution with
      | histogram => rw [dataOf, noHistogram, MetricData.restated, List.map_nil]
      | summary => rw [dataOf, noSummary, MetricData.restated, List.map_nil]

/-- A metric that can be restored is read again as it was, and so is what it is written
as. -/
theorem Rewritable.restated_metricOf
    {resource : Tags}
    {scope : Scope}
    {name : String}
    {members : List Observation}
    (rewritable : Rewritable members)
    (ofMetric : OfMetric resource scope name members)
    (restorable : (metricOf name members).isRestorable = true) :
    (metricOf name members).restated = metricOf name members ∧
      (rewrittenMetric resource scope (name, members)).map Observation.restated =
        rewrittenMetric resource scope (name, members) := by
  cases members with
  | nil => exact ⟨rfl, rfl⟩
  | cons first rest =>
      have reads : ∀ reading ∈ (first :: rest).map Observation.reading,
          Sliced.Reads name reading :=
        List.forall_mem_map.mpr fun original member =>
          (ofMetric original member).2.2 ▸ (rewritable.admissible original member).reading
      have sameKind : ∀ reading ∈ (first :: rest).map Observation.reading,
          reading.kind = first.reading.kind :=
        List.forall_mem_map.mpr fun original member =>
          ofMetric.kind_eq rewritable.consistent original member first List.mem_cons_self
      have restated := restated_dataOf sameKind reads restorable
      constructor
      · rw [metricOf, List.head?_cons, Option.map_some, Metric.restated, Option.map_some,
          restated.1]
      · rw [rewrittenMetric]
        dsimp only
        conv_rhs => rw [<- restated.2]
        rw [List.map_map, List.map_map]
        rfl

/-- A tree that can be restored is written as observations that are read again as they
were. -/
theorem Rewritable.restated_rewrittenTree
    {observations : List Observation}
    (rewritable : Rewritable observations)
    (restorable : (tree observations).isRestorable = true) :
    (rewrittenTree observations).map Observation.restated = rewrittenTree observations := by
  rw [restated_rewrittenTree_eq, rewrittenTree_eq]
  apply List.flatMap_congr
  intro group member
  exact ((rewritable.metricGroup member).restated_metricOf
    (ofMetric_of_mem_metricGroups member)
    (isRestorable_of_mem_metricGroups rewritable.consistent restorable member)).2

/-- The observations that a tree which can be restored is written as make the same
tree. -/
theorem Rewritable.tree_rewritten
    {observations : List Observation}
    (rewritable : Rewritable observations)
    (restorable : (tree observations).isRestorable = true) :
    tree (rewrittenTree observations) = tree observations := by
  rw [<- rewritable.restated_rewrittenTree restorable, rewritable.tree_restated]
  apply MetricTree.mapMetrics_eq_self
  intro placed placedMember
  rw [placedMetrics_tree, rewritable.consistent.accepted_eq] at placedMember
  obtain ⟨group, member, rfl⟩ := List.mem_map.mp placedMember
  exact ((rewritable.metricGroup member).restated_metricOf
    (ofMetric_of_mem_metricGroups member)
    (isRestorable_of_mem_metricGroups rewritable.consistent restorable member)).1

/-- The metrics of a tree are written as observations that make, as they are read again,
the tree as it is read again. -/
theorem Rewritable.writes_restated
    {observations : List Observation}
    (rewritable : Rewritable observations) :
    Export.Writes .sliced (MetricTree.placedMetrics (tree observations))
      ((rewrittenTree observations).map Observation.restated) := by
  rw [restated_rewrittenTree_eq]
  refine Export.writes_tree rewritable.consistent fun group member => ?_
  obtain ⟨points, converted, said⟩ :=
    (rewritable.metricGroup member).exists_points_metricOf
      (ofMetric_of_mem_metricGroups member) (rewritable.separated member)
      (of_mem_metricGroups member).2
  exact ⟨points, converted, said.imp fun _ _ => And.right⟩

/-- The metrics of a tree that sliced points can restore are written as observations that
make the same tree. -/
theorem Rewritable.writes_tree
    {observations : List Observation}
    (rewritable : Rewritable observations)
    (restorable : (tree observations).isRestorable = true) :
    Export.Writes .sliced (MetricTree.placedMetrics (tree observations))
      (rewrittenTree observations) :=
  rewritable.restated_rewrittenTree restorable ▸ rewritable.writes_restated

end Grouping

namespace Batch

open Grouping

/-- The tree of sliced points with a time, if they can restore it, is written without
dropping a metric. A batch accepts all points written, whenever they arrive, and finishes
as the same tree. -/
theorem run_finish_writeTree_run
    (arrivals : List Arrival)
    (timed : ∀ arrival ∈ arrivals, arrival.point.time ≠ 0)
    (restorable :
      MetricTree.isRestorable ((empty .sliced).run arrivals).1.finish = true) :
    ∃ written : List Point,
      Export.writeTree .sliced PointWriter.collecting
          ((empty .sliced).run arrivals).1.finish [] =
        (written.reverse, .ok ⟨written.length, 0⟩) ∧
      ∀ returning : List Arrival, returning.map Arrival.point = written ->
        (∀ answer ∈ ((empty .sliced).run returning).2, answer = none) ∧
          ((empty .sliced).run returning).1.finish =
            ((empty .sliced).run arrivals).1.finish := by
  rw [finish_run, <- tree_accepted] at restorable ⊢
  have rewritable : Rewritable (accepted (Grouping.observations .sliced arrivals)) := by
    refine ⟨consistent_accepted _, fun observation member => ?_⟩
    exact Sliced.admissible_of_mem_observations timed (List.mem_filter.mp member).1
  obtain ⟨written, said, success⟩ := rewritable.writes_tree restorable
  refine ⟨written, ?_, fun returning same => ?_⟩
  · rw [Export.writeTree, success, List.append_nil, Nat.zero_add]
  · rw [<- same] at said
    rw [<- rewritable.tree_rewritten restorable]
    exact run_of_says said rewritable.consistent_rewrittenTree

/-- A histogram and a gauge with names that end as the fields of a total do, and a
summary, come back from their points. -/
theorem run_finish_writeTree_run_three_metrics :
    let arrival (hint : TypeHint) (tags : List (String × String))
        (fields : List (String × FieldValue)) : Arrival :=
      ⟨9, {
        measurement := "prometheus"
        tags := .ofList tags
        fields := .ofList fields
        time := 5
        hint }⟩
    let arrivals := [
      arrival .untyped [("le", "1"), ("host.name", "a")] [("rpc_count_bucket", .int 2)],
      arrival .gauge [("zone", "b")] [("load_sum", .int 7)],
      arrival .untyped [("host.name", "a")]
        [("rpc_count_count", .int 3), ("rpc_count_sum", .int 8)],
      arrival .summary [] [("lag_count", .int 4), ("lag_sum", .int 6)],
      arrival .summary [("quantile", "0.5")] [("lag", .int 2)]]
    let calls : HistogramPoint := {
      time := 5
      count := 3
      sum := some ⟨0x4020000000000000⟩
      counts := [2, 1]
      bounds := [⟨0x3FF0000000000000⟩] }
    let lag : SummaryPoint := {
      time := 5
      count := 4
      sum := ⟨0x4018000000000000⟩
      quantiles := [⟨⟨0x3FE0000000000000⟩, ⟨0x4000000000000000⟩⟩] }
    let tree : MetricTree := [
      ⟨some [.ofText "host.name" "a"], [⟨some ⟨"", ""⟩, [
        ⟨"rpc_count", some <| .histogram [calls] Temporality.cumulative.code⟩]⟩]⟩,
      ⟨some [], [⟨some ⟨"", ""⟩, [
        ⟨"load_sum", some <| .gauge [⟨[.ofText "zone" "b"], 0, 5, some (.int 7)⟩]⟩,
        ⟨"lag", some <| .summary [lag]⟩]⟩]⟩]
    (∀ arrival ∈ arrivals, arrival.point.time ≠ 0) ∧
      MetricTree.isRestorable ((empty .sliced).run arrivals).1.finish = true ∧
      ((empty .sliced).run arrivals).1.finish = tree ∧
      ∃ written : List Point,
        Export.writeTree .sliced PointWriter.collecting tree [] =
          (written.reverse, .ok ⟨written.length, 0⟩) ∧
        ∀ returning : List Arrival, returning.map Arrival.point = written ->
          (∀ answer ∈ ((empty .sliced).run returning).2, answer = none) ∧
            ((empty .sliced).run returning).1.finish = tree := by
  intro arrival arrivals calls lag tree
  have timed : ∀ arrival ∈ arrivals, arrival.point.time ≠ 0 := by decide +kernel
  have restorable :
      MetricTree.isRestorable ((empty .sliced).run arrivals).1.finish = true := by
    decide +kernel
  have finished : ((empty .sliced).run arrivals).1.finish = tree := by decide +kernel
  have returned := run_finish_writeTree_run arrivals timed restorable
  rw [finished] at returned
  exact ⟨timed, restorable, finished, returned⟩

end Batch
end LineMetrics
