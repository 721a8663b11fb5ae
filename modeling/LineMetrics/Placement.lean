import LineMetrics.Buckets
import LineMetrics.Error
import LineMetrics.MetricKind
import LineMetrics.TagLevels

/-!
# Data points on their way to points

What both schemas need in order to write a metric: the tags that a data point gets
from its place in the tree, and the conditions that its data must meet.
-/

namespace LineMetrics

/-- The place of a metric in the tree. -/
structure Placement where
  resource : List Attribute := []
  scope : Option Scope := none
  deriving DecidableEq

namespace Placement

/-- The tags of a data point with some attributes. -/
def tags (placement : Placement) (attributes : List Attribute) : Tags :=
  TagLevels.merge placement.resource placement.scope attributes

end Placement

namespace NumberPoint

/-- The value of a data point, which must have one. -/
def requireValue (metric : String) (point : NumberPoint) : Except Error Number :=
  match point.value with
  | some value => .ok value
  | none => .error (.malformed metric .noValue)

end NumberPoint

namespace Temporality

/-- Only running totals are accepted. -/
def requireCumulative (metric : String) (code : Int) : Except Error Unit :=
  if code = Temporality.cumulative.code then .ok ()
  else .error (.unsupportedTemporality metric code)

end Temporality

namespace HistogramPoint

/-- The running totals of the buckets with finite bounds. A data point has no counts,
one for each bound, or one more. -/
def totals (metric : String) (point : HistogramPoint) : Except Error (List UInt64) :=
  let counts := point.counts.length
  let bounds := point.bounds.length
  if counts = 0 then .ok []
  else if counts = bounds ∨ counts = bounds + 1 then
    .ok (Buckets.cumulative (point.counts.take bounds))
  else .error (.malformed metric (.bucketLayout counts bounds))

/-- With one more count than bounds, there is a running total for each bound. -/
theorem totals_eq
    {point : HistogramPoint}
    (metric : String)
    (length : point.counts.length = point.bounds.length + 1) :
    point.totals metric =
      .ok (Buckets.cumulative (point.counts.take point.bounds.length)) := by
  rw [totals, if_neg (by omega), if_pos (.inr length)]

end HistogramPoint
end LineMetrics
