import LineMetrics.Dictionary
import LineMetrics.FieldValue

/-!
# Points

A point is one line of the line protocol: a measurement with tags, typed fields, a
time in nanoseconds since 1970, and a hint at the type of the metric. A time of zero
means that the point has none.
-/

namespace LineMetrics

/-- What a producer says about the type of a metric. -/
inductive TypeHint
  | untyped
  | gauge
  | sum
  | histogram
  | summary
  deriving DecidableEq, Inhabited

namespace TypeHint

def name : TypeHint -> String
  | .untyped => "untyped"
  | .gauge => "gauge"
  | .sum => "sum"
  | .histogram => "histogram"
  | .summary => "summary"

/-- All hints. -/
def all : List TypeHint := [.untyped, .gauge, .sum, .histogram, .summary]

/-- The hint with a name. -/
def ofName? (name : String) : Option TypeHint := all.find? fun hint => hint.name = name

@[simp] theorem ofName?_name (hint : TypeHint) : ofName? hint.name = some hint := by
  cases hint <;> decide

end TypeHint

/-- The tags of a point. -/
abbrev Tags := Dictionary String

/-- The fields of a point. -/
abbrev Fields := Dictionary FieldValue

/-- One line of the line protocol. -/
structure Point where
  measurement : String
  tags : Tags := ∅
  fields : Fields := ∅
  time : UInt64 := 0
  hint : TypeHint := .untyped
  deriving DecidableEq

namespace Point

/-- The point with one more tag. -/
def withTag (point : Point) (key value : String) : Point :=
  { point with tags := point.tags.insert key value }

/-- The point with one more field. -/
def withField (point : Point) (key : String) (value : FieldValue) : Point :=
  { point with fields := point.fields.insert key value }

/-- The point with a time; a point that has none takes the given one. -/
def timeOr (point : Point) (now : UInt64) : UInt64 :=
  if point.time = 0 then now else point.time

end Point
end LineMetrics
