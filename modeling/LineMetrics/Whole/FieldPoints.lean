import LineMetrics.Grouping

/-!
# The points of single metrics

A whole gauge or counter without its value field holds one metric in each of its metric
fields. The same can be said by as many points, each with the value of one metric in its
value field.
-/

namespace LineMetrics
namespace Whole

/-- The point that holds nothing but the metric of one field of a gauge or a counter. A
counter keeps its start time. -/
def fieldPoint (point : Point) (key : String) (value : FieldValue) : Point :=
  let alone : Point := {
    measurement := point.measurement ++ "_" ++ key
    tags := point.tags
    time := point.time }
  match typeOf point with
  | .sum =>
      let counter := { alone with hint := .sum }.withField ReservedName.counter value
      match point.fields.find? ReservedName.startTime with
      | some start => counter.withField ReservedName.startTime start
      | none => counter
  | _ => { alone with hint := .gauge }.withField ReservedName.gauge value

/-- The points of the metrics of a gauge or a counter that lacks its value field, in the
order of their fields. -/
def fieldPoints (point : Point) : List Point :=
  (point.fields.filter fun key value =>
    value.isNumeric && key ≠ ReservedName.startTime && key ≠ "").entries.map
      fun (key, value) => fieldPoint point key value

end Whole
end LineMetrics
