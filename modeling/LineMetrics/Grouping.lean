import LineMetrics.Batch

/-!
# Grouping observations

The tree of a list of observations without any index: observations are grouped by
resource, each group by scope, and each of those by metric. Groups stand in the order
in which their keys are first seen, and observations stand in their groups in the
order in which they came. The slices of a distribution are grouped once more, by
series.
-/

namespace LineMetrics

/-- The elements by key. Keys stand in the order in which they are first seen, each with
its elements in their order. -/
def groups [DecidableEq κ] (key : α -> κ) (elements : List α) : List (κ × List α) :=
  (elements.map key).eraseDups.map fun group =>
    (group, elements.filter fun element => key element = group)

/-- What a reading says that is a slice of a data point. -/
structure SeriesSlice where
  preferSummary : Bool
  series : Series
  slice : Slice
  deriving DecidableEq

namespace SeriesSlice

/-- The slice as a reading. -/
def toReading (part : SeriesSlice) : Reading :=
  .slice part.preferSummary part.series part.slice

end SeriesSlice

namespace Slice

/-- The slice is a quantile. -/
def isQuantile : Slice -> Bool
  | .quantile .. => true
  | _ => false

end Slice

namespace Reading

/-- The data point of a gauge or a counter. -/
def number? : Reading -> Option NumberPoint
  | .gauge point => some point
  | .sum _ point => some point
  | _ => none

/-- The data point of a histogram that came as a whole. -/
def histogram? : Reading -> Option HistogramPoint
  | .histogram point => some point
  | _ => none

/-- The data point of a summary that came as a whole. -/
def summary? : Reading -> Option SummaryPoint
  | .summary point => some point
  | _ => none

/-- The slice of a data point. -/
def slice? : Reading -> Option SeriesSlice
  | .slice preferSummary series part => some ⟨preferSummary, series, part⟩
  | _ => none

/-- Slices that were turned into readings are found in them. -/
@[simp] theorem filterMap_slice?_toReading (parts : List SeriesSlice) :
    (parts.map SeriesSlice.toReading).filterMap slice? = parts := by
  rw [List.filterMap_map]
  exact List.filterMap_some

end Reading

namespace Whole

/-- The field that the value of a gauge or a counter belongs in. -/
def valueField? (point : Point) : Option String :=
  match typeOf point with
  | .untyped => some ReservedName.gauge
  | .gauge => some ReservedName.gauge
  | .sum => some ReservedName.counter
  | .histogram => none
  | .summary => none

/-- The keys of the fields that hold a metric each, in a point that lacks its value
field. -/
def metricFields (point : Point) : List String :=
  (point.fields.filter fun key value =>
    value.isNumeric && key ≠ ReservedName.startTime && key ≠ "").keys

end Whole

namespace Grouping

/-- The assembly of the slices of one series, in their order. -/
def assemble (parts : List SeriesSlice) : Assembly :=
  parts.foldl (fun assembly part => assembly.add part.slice) {}

@[simp] theorem assemble_nil : assemble [] = {} := rfl

/-- One more slice is added to the assembly of those before it. -/
theorem assemble_append_singleton (parts : List SeriesSlice) (part : SeriesSlice) :
    assemble (parts ++ [part]) = (assemble parts).add part.slice := by
  rw [assemble, assemble, List.foldl_append]
  rfl

/-- The data of slices: one data point for each series. One slice that asks for a
summary, or one quantile, makes all of them a summary. -/
def assembledData (parts : List SeriesSlice) : MetricData :=
  if parts.any fun part => part.preferSummary || part.slice.isQuantile then
    .summary <| (groups SeriesSlice.series parts).map fun (series, parts) =>
      (assemble parts).toSummaryPoint series
  else
    .histogram
      ((groups SeriesSlice.series parts).map fun (series, parts) =>
        (assemble parts).toHistogramPoint series)
      Temporality.cumulative.code

/-- The data of the readings of a metric of some kind. -/
def dataOf (kind : MetricKind) (readings : List Reading) : MetricData :=
  match kind with
  | .gauge => .gauge (readings.filterMap Reading.number?)
  | .sum temporality => .sum (readings.filterMap Reading.number?) temporality.code true
  | .whole .histogram =>
      .histogram (readings.filterMap Reading.histogram?) Temporality.cumulative.code
  | .whole .summary => .summary (readings.filterMap Reading.summary?)
  | .assembled => assembledData (readings.filterMap Reading.slice?)

/-- The two observations are of one metric. -/
def sameMetric (left right : Observation) : Bool :=
  left.resource = right.resource && left.scope = right.scope && left.metric = right.metric

/-- Why an observation is refused behind earlier ones: the first one of its metric is of
another kind. -/
def refusal (earlier : List Observation) (observation : Observation) : Option Error :=
  (earlier.find? (sameMetric observation)).bind fun first =>
    if first.reading.kind = observation.reading.kind then none
    else some <|
      .kindConflict observation.metric first.reading.kind observation.reading.kind

/-- The observations that are the first of their metric or of the kind of that first
one. -/
def accepted (observations : List Observation) : List Observation :=
  observations.filter fun observation => (refusal observations observation).isNone

/-- The metric of observations, whose kind is that of the first one. -/
def metricOf (name : String) (observations : List Observation) : Metric where
  name := name
  data := observations.head?.map fun first =>
    dataOf first.reading.kind (observations.map Observation.reading)

/-- The metrics of observations in one scope. -/
def scopeOf (scope : Scope) (observations : List Observation) : ScopeMetrics where
  scope := some scope
  metrics := (groups Observation.metric observations).map fun (name, observations) =>
    metricOf name observations

/-- The scopes of observations of one resource. -/
def resourceOf (resource : Tags) (observations : List Observation) : ResourceMetrics where
  resource := some (Attribute.ofTags resource)
  scopes := (groups Observation.scope observations).map fun (scope, observations) =>
    scopeOf scope observations

/-- The metric tree of observations. -/
def tree (observations : List Observation) : MetricTree :=
  (groups Observation.resource (accepted observations)).map fun (resource, observations) =>
    resourceOf resource observations

/-- The observations of points in the order in which they arrive. A point that cannot be
read has none. -/
def observations (schema : Schema) (arrivals : List Arrival) : List Observation :=
  arrivals.flatMap fun arrival =>
    (Batch.observations schema arrival.now arrival.point).toOption.getD []

end Grouping
end LineMetrics
