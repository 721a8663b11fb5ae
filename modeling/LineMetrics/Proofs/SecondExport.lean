import LineMetrics.Proofs.WritingAgain

/-!
# The second export of sliced points

The points that a tree of sliced points is written as are all accepted again. The tree
that they make is written as the same points exactly if the histograms of the first tree
are stable.
-/

namespace LineMetrics

namespace Export

/-- The points of a tree that is written say the observations that it is written as. -/
theorem Writes.says_points
    {schema : Schema}
    {tree : MetricTree}
    {observations : List Observation}
    (writes : Writes schema (MetricTree.placedMetrics tree) observations) :
    List.Forall₂ (Batch.Says schema) (MetricTree.points schema tree) observations := by
  obtain ⟨points, said, success⟩ := writes
  have collected := writeTree_collecting schema tree
  rw [writeTree, success, List.append_nil] at collected
  rw [<- List.reverse_injective (congrArg Prod.fst collected)]
  exact said

end Export

namespace MetricTree

/-- No metric is left out if each can be turned into points. -/
theorem unwritableOf_eq_zero
    {schema : Schema}
    {placed : List (Placement × Metric)}
    (each : ∀ entry ∈ placed, ∃ points, entry.2.points schema entry.1 = .ok points) :
    unwritableOf schema placed = 0 := by
  rw [unwritableOf, List.countP_eq_zero]
  intro entry member
  obtain ⟨points, converted⟩ := each entry member
  dsimp only
  rw [converted]
  exact Bool.false_ne_true

end MetricTree

/-- A metric without a histogram is stable. -/
theorem Metric.isStable_of_no_histogram
    {metric : Metric}
    (noHistogram : ∀ points temporality, metric.data ≠ some (.histogram points temporality)) :
    metric.isStable = true := by
  rw [isStable]
  cases hasData : metric.data with
  | none => rfl
  | some data =>
      cases data with
      | histogram points temporality => exact absurd hasData (noHistogram points temporality)
      | gauge | sum | exponentialHistogram | summary => rfl

namespace MetricTree

/-- A metric and the one that stands for it in another tree, which has its place and its
name. Both are written, and as the same points exactly if the first one is stable, as it is
without a histogram. -/
structure WrittenAgain (first second : Placement × Metric) : Prop where
  place : second.1 = first.1
  name : second.2.name = first.2.name
  points : ∃ points again,
    first.2.points .sliced first.1 = .ok points ∧
      second.2.points .sliced second.1 = .ok again ∧
      (again = points ↔ first.2.isStable = true) ∧
      ((∀ histograms temporality, first.2.data ≠ some (.histogram histograms temporality)) ->
        again = points)

end MetricTree

namespace Grouping

/-- Each metric of a tree is written, also once it is read again, and then as the same points
exactly if it is stable. -/
theorem Rewritable.points_placed_restated
    {observations : List Observation}
    {placed : Placement × Metric}
    (rewritable : Rewritable observations)
    (member : placed ∈ MetricTree.placedMetrics (tree observations)) :
    ∃ points again,
      placed.2.points .sliced placed.1 = .ok points ∧
        placed.2.restated.points .sliced placed.1 = .ok again ∧
          again.length = points.length ∧ (again = points ↔ placed.2.isStable = true) := by
  rw [placedMetrics_tree, rewritable.consistent.accepted_eq] at member
  obtain ⟨group, groupMember, rfl⟩ := List.mem_map.mp member
  exact rewritable.points_restated groupMember

/-- Each metric of a tree has its counterpart among those that are read again. -/
theorem Rewritable.forall₂_writtenAgain
    {observations : List Observation}
    (rewritable : Rewritable observations) :
    List.Forall₂ MetricTree.WrittenAgain (MetricTree.placedMetrics (tree observations))
      (MetricTree.placedMetrics ((tree observations).mapMetrics Metric.restated)) := by
  rw [MetricTree.placedMetrics_mapMetrics, List.forall₂_map_right_iff, List.forall₂_same]
  intro placed member
  obtain ⟨points, again, converted, restated, -, same⟩ :=
    rewritable.points_placed_restated member
  refine ⟨rfl, rfl, points, again, converted, restated, same, fun noHistogram => ?_⟩
  exact same.mpr (Metric.isStable_of_no_histogram noHistogram)

/-- All metrics of a tree are written, also once they are read again, and then as the same
points exactly if the tree is stable. -/
theorem Rewritable.points_tree_restated
    {observations : List Observation}
    (rewritable : Rewritable observations) :
    let restated := (tree observations).mapMetrics Metric.restated
    MetricTree.unwritable .sliced (tree observations) = 0 ∧
      MetricTree.unwritable .sliced restated = 0 ∧
        (MetricTree.points .sliced restated = MetricTree.points .sliced (tree observations) ↔
          (tree observations).isStable = true) := by
  intro restated
  have each {placed : Placement × Metric}
      (member : placed ∈ MetricTree.placedMetrics (tree observations)) :=
    rewritable.points_placed_restated member
  have placedRestated : MetricTree.placedMetrics restated =
      (MetricTree.placedMetrics (tree observations)).map fun placed =>
        (placed.1, placed.2.restated) :=
    MetricTree.placedMetrics_mapMetrics _ _
  refine ⟨MetricTree.unwritableOf_eq_zero fun placed member => ?_, ?_, ?_⟩
  · obtain ⟨points, again, converted, -⟩ := each member
    exact ⟨points, converted⟩
  · rw [MetricTree.unwritable, placedRestated]
    refine MetricTree.unwritableOf_eq_zero (List.forall_mem_map.mpr fun placed member => ?_)
    obtain ⟨points, again, -, converted, -⟩ := each member
    exact ⟨again, converted⟩
  · rw [MetricTree.points, MetricTree.points, placedRestated, MetricTree.pointsOf,
      MetricTree.pointsOf, List.flatMap_map, MetricTree.isStable_iff]
    have sameLength (placed : Placement × Metric)
        (member : placed ∈ MetricTree.placedMetrics (tree observations)) :
        ((placed.2.restated.points .sliced placed.1).toOption.getD []).length =
          ((placed.2.points .sliced placed.1).toOption.getD []).length := by
      obtain ⟨points, again, converted, restatedConverted, lengths, -⟩ := each member
      rw [converted, restatedConverted]
      exact lengths
    refine (flatMap_eq_iff sameLength).2.trans ?_
    refine forall_congr' fun placed => forall_congr' fun member => ?_
    obtain ⟨points, again, converted, restatedConverted, -, same⟩ := each member
    rw [converted, restatedConverted]
    exact same

end Grouping

namespace Batch

open Grouping

/-- The tree of sliced points with a time is written without dropping a metric. A batch
accepts all points written, whenever they arrive, and its tree is again written without
dropping a metric. It has the same metrics in the same places, and each of them is written
again as it was, unless it is a histogram in which a running total exceeds the count and
accumulating the totals once more changes a number that they are written as. The second
export is the first one exactly if there is no such histogram. -/
theorem run_writeTree_again_iff
    (arrivals : List Arrival)
    (timed : ∀ arrival ∈ arrivals, arrival.point.time ≠ 0) :
    ∃ written again : List Point,
      Export.writeTree .sliced PointWriter.collecting
          ((empty .sliced).run arrivals).1.finish [] =
        (written.reverse, .ok ⟨written.length, 0⟩) ∧
      (∀ returning : List Arrival, returning.map Arrival.point = written ->
        (∀ answer ∈ ((empty .sliced).run returning).2, answer = none) ∧
          Export.writeTree .sliced PointWriter.collecting
              ((empty .sliced).run returning).1.finish [] =
            (again.reverse, .ok ⟨again.length, 0⟩) ∧
          List.Forall₂ MetricTree.WrittenAgain
            ((empty .sliced).run arrivals).1.finish.placedMetrics
            ((empty .sliced).run returning).1.finish.placedMetrics) ∧
      (again = written ↔ ((empty .sliced).run arrivals).1.finish.isStable = true) := by
  have rewritable : Rewritable (accepted (Grouping.observations .sliced arrivals)) := by
    refine ⟨consistent_accepted _, fun observation member => ?_⟩
    exact Sliced.admissible_of_mem_observations timed (List.mem_filter.mp member).1
  obtain ⟨noneDropped, noneDroppedAgain, same⟩ := rewritable.points_tree_restated
  have said := rewritable.writes_restated.says_points
  rw [finish_run, <- tree_accepted]
  refine ⟨_, _, ?_, fun returning returned => ?_, same⟩
  · rw [Export.writeTree_collecting, noneDropped]
  · rw [<- returned] at said
    obtain ⟨accepts, finishes⟩ := run_of_says said rewritable.consistent_restated
    rw [finishes, rewritable.tree_restated]
    refine ⟨accepts, ?_, rewritable.forall₂_writtenAgain⟩
    rw [Export.writeTree_collecting, noneDroppedAgain]

/-- A histogram whose counts decrease as they are stated is written twice as the same
points, if its count is large enough to close the running totals. -/
theorem run_writeTree_again_iff_decreasing_counts :
    let slice (tags : List (String × String)) (fields : List (String × FieldValue)) :
        Arrival :=
      ⟨9, {
        measurement := "prometheus"
        tags := .ofList tags
        fields := .ofList fields
        time := 5
        hint := .histogram }⟩
    let arrivals := [
      slice [("le", "1")] [("lag_bucket", .int 3)],
      slice [("le", "2")] [("lag_bucket", .int 2)],
      slice [] [("lag_count", .int 6), ("lag_sum", .int 7)]]
    let five : Binary64 := ⟨0x4014000000000000⟩
    let six : Binary64 := ⟨0x4018000000000000⟩
    let written := [
      slice [] [("lag_count", .float six), ("lag_sum", .float ⟨0x401C000000000000⟩)],
      slice [("le", "1")] [("lag_bucket", .float ⟨0x4008000000000000⟩)],
      slice [("le", "2")] [("lag_bucket", .float five)],
      slice [("le", "+Inf")] [("lag_bucket", .float six)]].map Arrival.point
    (∀ arrival ∈ arrivals, arrival.point.time ≠ 0) ∧
      ((empty .sliced).run arrivals).1.finish.isStable = true ∧
      Export.writeTree .sliced PointWriter.collecting
          ((empty .sliced).run arrivals).1.finish [] =
        (written.reverse, .ok ⟨4, 0⟩) ∧
      ∀ returning : List Arrival, returning.map Arrival.point = written ->
        (∀ answer ∈ ((empty .sliced).run returning).2, answer = none) ∧
          Export.writeTree .sliced PointWriter.collecting
              ((empty .sliced).run returning).1.finish [] =
            (written.reverse, .ok ⟨4, 0⟩) ∧
          List.Forall₂ MetricTree.WrittenAgain
            ((empty .sliced).run arrivals).1.finish.placedMetrics
            ((empty .sliced).run returning).1.finish.placedMetrics := by
  intro slice arrivals five six written
  have timed : ∀ arrival ∈ arrivals, arrival.point.time ≠ 0 := by decide +kernel
  have stable : ((empty .sliced).run arrivals).1.finish.isStable = true := by decide +kernel
  obtain ⟨first, again, firstExport, returned, same⟩ := run_writeTree_again_iff arrivals timed
  obtain rfl : again = first := same.mpr stable
  have isFirst : again = written := by
    have reversed := congrArg (List.reverse ∘ Prod.fst) firstExport
    dsimp only [Function.comp_apply] at reversed
    rw [List.reverse_reverse] at reversed
    rw [<- reversed]
    decide +kernel
  rw [isFirst] at firstExport returned
  exact ⟨timed, stable, firstExport, returned⟩

/-- The same counts, closed by a count below their running totals, are written as other
points the second time. -/
theorem run_writeTree_again_exceeded_count :
    let slice (tags : List (String × String)) (fields : List (String × FieldValue)) :
        Arrival :=
      ⟨9, {
        measurement := "prometheus"
        tags := .ofList tags
        fields := .ofList fields
        time := 5
        hint := .histogram }⟩
    let arrivals := [
      slice [("le", "1")] [("lag_bucket", .int 3)],
      slice [("le", "2")] [("lag_bucket", .int 2)],
      slice [] [("lag_count", .int 4), ("lag_sum", .int 7)]]
    let written := (Export.writeTree .sliced PointWriter.collecting
      ((empty .sliced).run arrivals).1.finish []).1.reverse
    let returning := written.map fun point => (⟨9, point⟩ : Arrival)
    (∀ arrival ∈ arrivals, arrival.point.time ≠ 0) ∧
      (Export.writeTree .sliced PointWriter.collecting
        ((empty .sliced).run returning).1.finish []).1.reverse ≠ written := by
  decide +kernel

end Batch
end LineMetrics
