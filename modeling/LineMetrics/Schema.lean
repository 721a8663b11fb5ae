import LineMetrics.Error

/-!
# Schemas

A schema is a way to lay out metrics as points. Under the first, one point holds a
whole observation; under the second, a histogram or a summary is sliced over
several points.
-/

namespace LineMetrics

/-- A way to lay out metrics as points. The first one is the default. -/
inductive Schema
  | whole
  | sliced
  deriving DecidableEq, Inhabited

namespace Schema

def name : Schema -> String
  | .whole => "telegraf-prometheus-v1"
  | .sliced => "telegraf-prometheus-v2"

/-- The schema with a name. -/
def ofName (name : String) : Except Error Schema :=
  if name = Schema.whole.name then .ok .whole
  else if name = Schema.sliced.name then .ok .sliced
  else .error (.unknownSchema name)

@[simp] theorem ofName_name (schema : Schema) : ofName schema.name = .ok schema := by
  cases schema <;> rfl

end Schema
end LineMetrics
