import LineMetrics.Export

/-!
# Records of numbers

What a tree says about the numbers of its gauges and counters, wherever they stand in it:
each number with its time and with the tags that a point gets from its place. A tag with
an empty value says nothing.
-/

namespace LineMetrics

/-- The tags that have a value. -/
def nonemptyTags (tags : Tags) : Tags := tags.filter fun _ value => value ≠ ""

/-- A number with its time and its tags. -/
structure NumberRecord where
  tags : Tags
  time : UInt64
  value : Option Number
  deriving DecidableEq

/-- The record of a data point at a place. -/
def NumberPoint.record (placement : Placement) (point : NumberPoint) : NumberRecord :=
  ⟨nonemptyTags (placement.tags point.attributes), point.time, point.value⟩

/-- The data points of a gauge or a counter. -/
def MetricData.numbers : MetricData -> List NumberPoint
  | .gauge points => points
  | .sum points _ _ => points
  | _ => []

namespace MetricTree

/-- The records of all numbers in a tree. -/
def numberRecords (tree : MetricTree) : List NumberRecord :=
  tree.placedMetrics.flatMap fun (placement, metric) =>
    (metric.data.elim [] MetricData.numbers).map (NumberPoint.record placement)

/-- All metrics of the tree have this name and are counters with running totals, and the
data points of all of them have these records, in some order. -/
structure KeepsCounter
    (tree : MetricTree)
    (metric : String)
    (records : List NumberRecord) : Prop where
  metrics : ∀ placed ∈ tree.placedMetrics, ∃ points,
    placed.2 = ⟨metric, some (.sum points Temporality.cumulative.code true)⟩
  records : tree.numberRecords.Perm records

end MetricTree
end LineMetrics
