import LineMetrics.Batch.Assembly
import LineMetrics.Schema
import LineMetrics.Sliced.Observations
import LineMetrics.Table
import LineMetrics.Whole.Observations

/-!
# Batches

A batch gathers the observations of points. Resources, scopes, metrics and series
stand in the order in which they were first seen. The first reading of a metric fixes
its kind, and a reading of another kind is refused.

A point may hold several observations. It is refused only if all of them are, and the
cause is then that of the first.
-/

namespace LineMetrics

/-- What has been gathered for one metric. -/
inductive Collected
  | gauge (points : Array NumberPoint)
  | sum (temporality : Temporality) (points : Array NumberPoint)
  | histogram (points : Array HistogramPoint)
  | summary (points : Array SummaryPoint)
  | assembled (preferSummary : Bool) (series : Table Series Assembly)

namespace Collected

def kind : Collected -> MetricKind
  | .gauge _ => .gauge
  | .sum temporality _ => .sum temporality
  | .histogram _ => .whole .histogram
  | .summary _ => .whole .summary
  | .assembled .. => .assembled

/-- Nothing yet, for a metric of the kind of its first reading. -/
def startingWith : Reading -> Collected
  | .gauge _ => .gauge #[]
  | .sum temporality _ => .sum temporality #[]
  | .histogram _ => .histogram #[]
  | .summary _ => .summary #[]
  | .slice .. => .assembled false ∅

/-- Take note of the kind of summary or histogram that a reading asks for: one slice is
enough to make a metric a summary. -/
def prefer : Collected -> Reading -> Collected
  | .assembled preferSummary series, .slice alsoPreferSummary _ _ =>
      .assembled (preferSummary || alsoPreferSummary) series
  | collected, _ => collected

/-- Let a reading in, unless it belongs to another kind of metric. -/
def accept (metric : String) (reading : Reading) (collected : Collected) :
    Collected × Option Error :=
  if collected.kind = reading.kind then (collected.prefer reading, none)
  else (collected, some (.kindConflict metric collected.kind reading.kind))

/-- Put a reading that was let in to those before it. One that belongs to another kind
of metric would be dropped. -/
def put : Collected -> Reading -> Collected
  | .gauge points, .gauge point => .gauge (points.push point)
  | .sum temporality points, .sum _ point => .sum temporality (points.push point)
  | .histogram points, .histogram point => .histogram (points.push point)
  | .summary points, .summary point => .summary (points.push point)
  | .assembled preferSummary series, .slice _ key slice =>
      .assembled preferSummary (series.change key {} fun assembly => assembly.add slice)
  | collected, _ => collected

/-- Add a reading, and say why if it is refused. -/
def add (metric : String) (reading : Reading) (collected : Collected) :
    Collected × Option Error :=
  match collected.accept metric reading with
  | (collected, none) => (collected.put reading, none)
  | (collected, some error) => (collected, some error)

/-- The data points of a metric. Assembled ones make a summary if that was asked for,
or if any of them has a quantile. -/
def toData : Collected -> MetricData
  | .gauge points => .gauge points.toList
  | .sum temporality points => .sum points.toList temporality.code true
  | .histogram points => .histogram points.toList Temporality.cumulative.code
  | .summary points => .summary points.toList
  | .assembled preferSummary series =>
      if preferSummary || series.values.any fun assembly => !assembly.quantiles.isEmpty then
        .summary (series.toList.map fun (key, assembly) => assembly.toSummaryPoint key)
      else
        .histogram (series.toList.map fun (key, assembly) => assembly.toHistogramPoint key)
          Temporality.cumulative.code

/-- A metric of another kind refuses a reading and stays as it is. -/
theorem add_of_kind_ne
    {collected : Collected}
    {reading : Reading}
    (metric : String)
    (different : collected.kind ≠ reading.kind) :
    collected.add metric reading =
      (collected, some (.kindConflict metric collected.kind reading.kind)) := by
  simp [add, accept, different]

/-- A metric of its kind takes a reading. -/
theorem add_of_kind_eq
    {collected : Collected}
    {reading : Reading}
    (metric : String)
    (same : collected.kind = reading.kind) :
    collected.add metric reading = ((collected.prefer reading).put reading, none) := by
  simp [add, accept, same]

/-- The first reading of a metric is of its kind. -/
@[simp] theorem kind_startingWith (reading : Reading) :
    (startingWith reading).kind = reading.kind := by
  cases reading <;> rfl

end Collected

/-- The metrics of one scope, by name. -/
abbrev CollectedScope := Table String Collected

/-- The scopes of one resource. -/
abbrev CollectedResource := Table Scope CollectedScope

/-- A point, and the reading of the clock when it arrives. -/
structure Arrival where
  now : UInt64
  point : Point

/-- The observations gathered from points of one schema. -/
structure Batch where
  schema : Schema
  resources : Table Tags CollectedResource := ∅

namespace Batch

/-- A batch that holds nothing yet. -/
def empty (schema : Schema) : Batch := { schema }

/-- No observation has been gathered. -/
def isEmpty (batch : Batch) : Bool := batch.resources.isEmpty

/-- Add one observation, in a new place if it is the first one there, and say why if it
is refused. The levels above its metric are there from then on. -/
def record (batch : Batch) (observation : Observation) : Batch × Option Error :=
  let { resource, scope, metric, reading } := observation
  let (resources, refusal) :=
    batch.resources.visit resource ∅ fun scopes =>
      scopes.visit scope ∅ fun metrics =>
        metrics.visit metric (.startingWith reading) fun collected =>
          collected.add metric reading
  ({ batch with resources }, refusal)

/-- Add those of several observations that can be added, and list the causes why the
others could not. -/
def recordAll (batch : Batch) : List Observation -> Batch × List Error
  | [] => (batch, [])
  | observation :: observations =>
      match batch.record observation with
      | (batch, none) => batch.recordAll observations
      | (batch, some error) =>
          let (batch, errors) := batch.recordAll observations
          (batch, error :: errors)

/-- The observations of a point under the schema of the batch. -/
def observations (schema : Schema) (now : UInt64) (point : Point) :
    Except Error (List Observation) :=
  match schema with
  | .whole => Whole.observations now point
  | .sliced => Sliced.observations now point

/-- Add a point, and say why if it is refused. -/
def add (now : UInt64) (batch : Batch) (point : Point) : Batch × Option Error :=
  match observations batch.schema now point with
  | .error error => (batch, some error)
  | .ok observations =>
      let (batch, errors) := batch.recordAll observations
      (batch, if errors.length = observations.length then errors.head? else none)

/-- Add points in the order in which they arrive, and say for each why if it is
refused. -/
def run (batch : Batch) : List Arrival -> Batch × List (Option Error)
  | [] => (batch, [])
  | arrival :: arrivals =>
      let (batch, answer) := batch.add arrival.now arrival.point
      let (batch, answers) := batch.run arrivals
      (batch, answer :: answers)

/-- The metrics gathered for one scope. -/
def scopeMetrics (scope : Scope) (metrics : CollectedScope) : ScopeMetrics where
  scope := some scope
  metrics := metrics.toList.map fun (name, collected) => ⟨name, some collected.toData⟩

/-- The metrics gathered for one resource. -/
def resourceMetrics (resource : Tags) (scopes : CollectedResource) : ResourceMetrics where
  resource := some (Attribute.ofTags resource)
  scopes := scopes.toList.map fun (scope, metrics) => scopeMetrics scope metrics

/-- The metric tree of everything gathered. -/
def finish (batch : Batch) : MetricTree :=
  batch.resources.toList.map fun (resource, scopes) => resourceMetrics resource scopes

end Batch
end LineMetrics
