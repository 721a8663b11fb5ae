import LineMetrics.Proofs.MetricGroups

/-!
# Trees written as observations

Metrics are written as observations if none of them is dropped and the points written
say these observations. Lists of metrics are written one after another, so a tree is
written metric by metric.
-/

namespace LineMetrics
namespace Export

/-- Writing the metrics drops none of them, and the points written say the
observations. -/
def Writes
    (schema : Schema)
    (placed : List (Placement × Metric))
    (observations : List Observation) : Prop :=
  ∃ points,
    List.Forall₂ (Batch.Says schema) points observations ∧
      ∀ state counts,
        writePlaced schema PointWriter.collecting state counts placed =
          (points.reverse ++ state,
            .ok { counts with written := counts.written + points.length })

variable {schema : Schema}

theorem writes_nil : Writes schema [] [] := ⟨[], .nil, fun _ _ => rfl⟩

/-- Metrics behind others are written behind them. -/
theorem Writes.append
    {first second : List (Placement × Metric)}
    {observations others : List Observation}
    (writesFirst : Writes schema first observations)
    (writesSecond : Writes schema second others) :
    Writes schema (first ++ second) (observations ++ others) := by
  obtain ⟨points, said, written⟩ := writesFirst
  obtain ⟨otherPoints, otherSaid, otherWritten⟩ := writesSecond
  refine ⟨points ++ otherPoints, List.rel_append said otherSaid, fun state counts => ?_⟩
  rw [writePlaced_append, written]
  dsimp only
  rw [otherWritten, List.reverse_append, List.append_assoc, List.length_append,
    Nat.add_assoc]

/-- Lists of metrics are written one after another. -/
theorem Writes.flatMap
    {α : Type}
    {placed : α -> List (Placement × Metric)}
    {observations : α -> List Observation}
    {elements : List α}
    (each : ∀ element ∈ elements, Writes schema (placed element) (observations element)) :
    Writes schema (elements.flatMap placed) (elements.flatMap observations) := by
  induction elements with
  | nil => exact writes_nil
  | cons element elements inductionHypothesis =>
      have ⟨first, others⟩ := List.forall_mem_cons.mp each
      exact first.append (inductionHypothesis others)

/-- A metric that can be turned into points is written as these points. -/
theorem writes_of_points
    {placement : Placement}
    {metric : Metric}
    {points : List Point}
    {observations : List Observation}
    (converted : metric.points schema placement = .ok points)
    (said : List.Forall₂ (Batch.Says schema) points observations) :
    Writes schema [(placement, metric)] observations := by
  refine ⟨points, said, fun state counts => ?_⟩
  rw [writePlaced, converted]
  dsimp only
  rw [PointWriter.writeAll_collecting]
  rfl

open Grouping

/-- A tree is written if each of its metrics can be turned into points, as what these
say. -/
theorem writes_tree
    {observations : List Observation}
    {rewrite : MetricGroup -> List Observation}
    (consistent : Consistent observations)
    (each : ∀ group ∈ metricGroups observations, ∃ points,
      group.metric.points schema group.placement = .ok points ∧
        List.Forall₂ (Batch.Says schema) points (rewrite group)) :
    Writes schema (MetricTree.placedMetrics (tree observations))
      ((metricGroups observations).flatMap rewrite) := by
  rw [placedMetrics_tree, consistent.accepted_eq, List.map_eq_flatMap]
  apply Writes.flatMap
  intro group member
  obtain ⟨points, converted, said⟩ := each group member
  exact writes_of_points converted said

end Export

namespace Grouping

/-- A tree is made of its accepted observations. -/
theorem tree_accepted (observations : List Observation) :
    tree (accepted observations) = tree observations := by
  rw [tree, tree, (consistent_accepted observations).accepted_eq]

end Grouping
end LineMetrics
