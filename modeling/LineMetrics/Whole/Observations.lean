import LineMetrics.Buckets
import LineMetrics.Instant
import LineMetrics.Observation
import LineMetrics.Sorting

/-!
# Observations of whole points

A whole point holds everything about one data point: the value of a gauge or a
counter, or the count and the sum of a distribution with one more field for each
bucket or quantile. The measurement is the name of the metric.

A gauge or counter without its value field holds one metric in each numeric field.
-/

namespace LineMetrics
namespace Whole

/-- The field belongs to a distribution. -/
def isDistributionField (key : String) : Bool :=
  key = ReservedName.count || key = ReservedName.sum || (Binary64.ofFiniteKey? key).isSome

/-- The type of the metric, by the hint of the point or else by its fields. A summary
looks like a histogram. -/
def typeOf (point : Point) : TypeHint :=
  if point.hint ≠ .untyped then point.hint
  else if point.fields.contains ReservedName.gauge then .gauge
  else if point.fields.contains ReservedName.counter then .sum
  else if point.fields.keys.any isDistributionField then .histogram
  else .untyped

/-- The metric of one numeric field and its number. -/
def fieldNumber? (measurement : String) (entry : String × FieldValue) :
    Option (String × Number) :=
  if entry.1 = ReservedName.startTime ∨ entry.1 = "" then none
  else
    (entry.2.toNumber entry.1).toOption.map fun number =>
      (measurement ++ "_" ++ entry.1, number)

/-- The numbers of a gauge or a counter, each with the name of its metric. -/
def numbers (point : Point) (valueField : String) :
    Except Error (List (String × Number)) :=
  match point.fields.find? valueField with
  | some value => do
      let number <- value.toNumber valueField
      .ok [(point.measurement, number)]
  | none =>
      match point.fields.entries.filterMap (fieldNumber? point.measurement) with
      | [] => .error (.noNumericFields point.measurement)
      | numbers => .ok numbers

/-- The observations of a gauge or a counter. -/
def numberObservations
    (point : Point)
    (time : UInt64)
    (valueField : String)
    (start : UInt64)
    (reading : NumberPoint -> Reading) : Except Error (List Observation) := do
  let levels := TagLevels.split point.tags
  let attributes := Attribute.ofTags levels.attributes
  let numbers <- numbers point valueField
  .ok <| numbers.map fun (metric, number) =>
    .under levels metric (reading ⟨attributes, start, time, some number⟩)

/-- The temporality that the tags of a counter select. -/
def temporalityOf (tags : Tags) : Temporality :=
  if tags.find? ReservedName.temporality = some ReservedName.delta then .delta
  else .cumulative

/-- The start time of a counter; one that cannot be read is left out. -/
def startOf (fields : Fields) : UInt64 :=
  match fields.find? ReservedName.startTime with
  | some value => (Instant.ofFieldValue value).toOption.getD 0
  | none => 0

/-- The fields of a distribution: its count, its sum, and the fields whose keys are
finite numbers. -/
structure DistributionFields (α : Type) where
  count : Option UInt64 := none
  sum : Option Binary64 := none
  parts : List (Binary64 × α) := []

/-- Take one more field into account. -/
def DistributionFields.add
    (readPart : String -> FieldValue -> Except Error α)
    (fields : DistributionFields α)
    (entry : String × FieldValue) : Except Error (DistributionFields α) :=
  let (key, value) := entry
  if key = ReservedName.count then do
    let count <- value.toCount key
    .ok { fields with count := some count }
  else if key = ReservedName.sum then do
    let sum <- value.toDouble key
    .ok { fields with sum := some sum }
  else
    match Binary64.ofFiniteKey? key with
    | some place => do
        let part <- readPart key value
        .ok { fields with parts := fields.parts ++ [(place, part)] }
    | none => .ok fields

/-- The count, the sum, and the parts in ascending order of a distribution. -/
def distribution
    (kind : Distribution)
    (readPart : String -> FieldValue -> Except Error α)
    (point : Point) : Except Error (UInt64 × Binary64 × List (Binary64 × α)) := do
  let fields <- point.fields.entries.foldlM (DistributionFields.add readPart) {}
  match fields.count, fields.sum with
  | none, _ => .error (.missingField kind ReservedName.count point.measurement)
  | _, none => .error (.missingField kind ReservedName.sum point.measurement)
  | some count, some sum =>
      .ok (count, sum, Sorting.sortOn Binary64.totalLE Prod.fst fields.parts)

/-- The first number that is numerically equal to the one behind it. -/
def firstRepeated? : List Binary64 -> Option Binary64
  | first :: second :: rest =>
      if first.sameNumber second then some first else firstRepeated? (second :: rest)
  | _ => none

/-- The observation of a histogram. Its last bucket is closed by the count. -/
def histogramObservation (point : Point) (time : UInt64) : Except Error Observation := do
  let (count, sum, buckets) <-
    distribution .histogram (fun key value => value.toCount key) point
  let bounds := buckets.map Prod.fst
  match firstRepeated? bounds with
  | some bound => .error (.duplicateBound point.measurement bound)
  | none =>
      let levels := TagLevels.split point.tags
      .ok <| .under levels point.measurement <| .histogram {
        attributes := Attribute.ofTags levels.attributes
        time, count
        sum := some sum
        counts := Buckets.perBucket (buckets.map Prod.snd ++ [count])
        bounds }

/-- The observation of a summary. -/
def summaryObservation (point : Point) (time : UInt64) : Except Error Observation := do
  let (count, sum, quantiles) <-
    distribution .summary (fun key value => value.toDouble key) point
  let levels := TagLevels.split point.tags
  .ok <| .under levels point.measurement <| .summary {
    attributes := Attribute.ofTags levels.attributes
    time, count, sum
    quantiles := quantiles.map fun (quantile, value) => ⟨quantile, value⟩ }

/-- The observations of a point. A point without a time is observed now. -/
def observations (now : UInt64) (point : Point) : Except Error (List Observation) :=
  let time := point.timeOr now
  match typeOf point with
  | .untyped => numberObservations point time ReservedName.gauge 0 .gauge
  | .gauge => numberObservations point time ReservedName.gauge 0 .gauge
  | .sum =>
      numberObservations
        { point with tags := point.tags.erase ReservedName.temporality }
        time ReservedName.counter (startOf point.fields)
        (.sum (temporalityOf point.tags))
  | .histogram => (histogramObservation point time).map ([·])
  | .summary => (summaryObservation point time).map ([·])

end Whole
end LineMetrics
