import LineMetrics.Error
import LineMetrics.Point

/-!
# Point writers

A writer takes points one after another and may refuse one. Its state after a
refusal is the one before. A refusal ends the writing.
-/

namespace LineMetrics

/-- What a writer does with a point: it moves on, or refuses. -/
abbrev PointWriter (σ : Type) := σ -> Point -> Except Error σ

namespace PointWriter

/-- The writer that keeps every point, the last one first. -/
def collecting : PointWriter (List Point) := fun points point => .ok (point :: points)

/-- The writer that keeps points, the last one first, and refuses the next one when it
holds as many as the limit. -/
def limited (limit : Nat) (refusal : Point -> Error) : PointWriter (List Point) :=
  fun points point =>
    if points.length < limit then .ok (point :: points) else .error (refusal point)

/-- Write points in order. The state is that after the last point written. -/
def writeAll (writer : PointWriter σ) (state : σ) : List Point -> σ × Except Error Unit
  | [] => (state, .ok ())
  | point :: points =>
      match writer state point with
      | .ok state => writer.writeAll state points
      | .error error => (state, .error error.ofWriter)

@[simp] theorem writeAll_nil (writer : PointWriter σ) (state : σ) :
    writer.writeAll state [] = (state, .ok ()) := rfl

/-- Writing two lists of points is writing the second one if the first succeeds. -/
theorem writeAll_append
    (writer : PointWriter σ)
    (state : σ)
    (first second : List Point) :
    writer.writeAll state (first ++ second) =
      match writer.writeAll state first with
      | (state, .ok ()) => writer.writeAll state second
      | (state, .error error) => (state, .error error) := by
  induction first generalizing state with
  | nil => rfl
  | cons point points inductionHypothesis =>
      simp only [List.cons_append, writeAll]
      cases writer state point with
      | ok next => exact inductionHypothesis next
      | error error => rfl

/-- The collecting writer keeps all points. -/
@[simp] theorem writeAll_collecting (state points : List Point) :
    collecting.writeAll state points = (points.reverse ++ state, .ok ()) := by
  induction points generalizing state with
  | nil => rfl
  | cons point points inductionHypothesis =>
      rw [writeAll]
      change collecting.writeAll (point :: state) points = _
      rw [inductionHypothesis, List.reverse_cons, List.append_assoc, List.singleton_append]

end PointWriter
end LineMetrics
