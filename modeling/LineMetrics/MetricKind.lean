/-!
# Kinds of metrics

The first point of a metric fixes its kind, and later points must agree with it.
A sum keeps its temporality as part of its kind. A metric whose data points are
put together from several points is neither a histogram nor a summary until all
of them are known.
-/

namespace LineMetrics

/-- Whether a sum restarts with every report or runs on. -/
inductive Temporality
  | delta
  | cumulative
  deriving DecidableEq

namespace Temporality

/-- The number that stands for a temporality in a data point. -/
def code : Temporality -> Int
  | .delta => 1
  | .cumulative => 2

/-- The temporality that a number stands for. -/
def ofCode? (code : Int) : Option Temporality :=
  [Temporality.delta, .cumulative].find? fun temporality => temporality.code = code

@[simp] theorem ofCode?_code (temporality : Temporality) :
    ofCode? temporality.code = some temporality := by
  cases temporality <;> rfl

end Temporality

/-- The two kinds of data points that describe a distribution. -/
inductive Distribution
  | histogram
  | summary
  deriving DecidableEq

namespace Distribution

def name : Distribution -> String
  | .histogram => "histogram"
  | .summary => "summary"

end Distribution

/-- The kind of a metric while points are gathered. -/
inductive MetricKind
  | gauge
  | sum (temporality : Temporality)
  | whole (distribution : Distribution)
  | assembled
  deriving DecidableEq

namespace MetricKind

/-- The name of a kind in messages. -/
def name : MetricKind -> String
  | .gauge => "gauge"
  | .sum .delta => "delta sum"
  | .sum .cumulative => "cumulative sum"
  | .whole distribution => distribution.name
  | .assembled => "histogram/summary"

end MetricKind
end LineMetrics
