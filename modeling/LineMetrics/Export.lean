import LineMetrics.PointWriter
import LineMetrics.Schema
import LineMetrics.Sliced.Points
import LineMetrics.Whole.Points

/-!
# Export

A metric tree is written point by point. A metric is turned into points as a whole
before any of them is written, so a metric that cannot be turned into points leaves
none behind. It is counted and passed over, whereas a writer that refuses a point
ends the export.
-/

namespace LineMetrics

namespace Metric

/-- The points of a metric under a schema. -/
def points (schema : Schema) (placement : Placement) (metric : Metric) :
    Except Error (List Point) :=
  match metric.data with
  | none => .error (.malformed metric.name .noData)
  | some data =>
      match schema with
      | .whole => Whole.points placement metric.name data
      | .sliced => Sliced.points placement metric.name data

end Metric

/-- How many points were written and how many metrics were passed over. -/
structure ExportCounts where
  written : Nat := 0
  dropped : Nat := 0
  deriving DecidableEq, Inhabited

namespace MetricTree

/-- The metrics of a tree, each with its place. -/
def placedMetrics (tree : MetricTree) : List (Placement × Metric) :=
  tree.flatMap fun resource =>
    resource.scopes.flatMap fun scope =>
      scope.metrics.map fun metric => (⟨resource.resource.getD [], scope.scope⟩, metric)

end MetricTree

namespace Export

/-- Write the points of one metric, and count them. -/
def writeMetric
    (schema : Schema)
    (writer : PointWriter σ)
    (placement : Placement)
    (metric : Metric)
    (state : σ) : σ × Except Error Nat :=
  match metric.points schema placement with
  | .error error => (state, .error error)
  | .ok points =>
      let (state, result) := writer.writeAll state points
      (state, result.map fun _ => points.length)

/-- Write the points of several metrics on top of what has been counted. -/
def writePlaced
    (schema : Schema)
    (writer : PointWriter σ)
    (state : σ)
    (counts : ExportCounts) :
    List (Placement × Metric) -> σ × Except Error ExportCounts
  | [] => (state, .ok counts)
  | (placement, metric) :: rest =>
      match metric.points schema placement with
      | .error _ =>
          writePlaced schema writer state { counts with dropped := counts.dropped + 1 } rest
      | .ok points =>
          match writer.writeAll state points with
          | (state, .error error) => (state, .error error)
          | (state, .ok ()) =>
              writePlaced schema writer state
                { counts with written := counts.written + points.length } rest

/-- Write every metric of a tree that can be turned into points. -/
def writeTree
    (schema : Schema)
    (writer : PointWriter σ)
    (tree : MetricTree)
    (state : σ) : σ × Except Error ExportCounts :=
  writePlaced schema writer state {} (MetricTree.placedMetrics tree)

/-- Writing two lists of metrics is writing the second one if the first succeeds. -/
theorem writePlaced_append
    (schema : Schema)
    (writer : PointWriter σ)
    (state : σ)
    (counts : ExportCounts)
    (first second : List (Placement × Metric)) :
    writePlaced schema writer state counts (first ++ second) =
      match writePlaced schema writer state counts first with
      | (state, .ok counts) => writePlaced schema writer state counts second
      | (state, .error error) => (state, .error error) := by
  induction first generalizing state counts with
  | nil => rfl
  | cons placed rest inductionHypothesis =>
      obtain ⟨placement, metric⟩ := placed
      simp only [List.cons_append, writePlaced]
      cases metric.points schema placement with
      | error error => exact inductionHypothesis _ _
      | ok points =>
          dsimp only
          obtain ⟨next, result⟩ := writer.writeAll state points
          cases result with
          | error error => rfl
          | ok done => exact inductionHypothesis _ _

end Export
end LineMetrics
