import LineMetrics.Observation

/-!
# Observations of sliced points

Every sliced point has the same measurement, and a field key names the metric. A
gauge or a counter is one point with one field. A histogram or a summary is sliced:
one point for each bucket, with its bound as a tag, one for each quantile, with the
quantile as a tag, and one with the count and the sum. Slices with the same metric,
time and other tags belong to one data point.
-/

namespace LineMetrics
namespace Sliced

/-- What stands in front of an ending, if the key has that ending. -/
def stem? (ending key : String) : Option String :=
  if ending.toList.isSuffixOf key.toList then
    some (String.ofList (key.toList.take (key.toList.length - ending.toList.length)))
  else none

/-- The key has an ending of the count or the sum of a distribution. -/
def isTotalField (key : String) : Bool :=
  (stem? ReservedName.countEnding key).isSome || (stem? ReservedName.sumEnding key).isSome

/-- The type of the metric, by the hint of the point or else by its tags and fields. -/
def typeOf (point : Point) : TypeHint :=
  if point.hint ≠ .untyped then point.hint
  else if point.tags.contains ReservedName.bucketBound ∨
      point.tags.contains ReservedName.quantile then .histogram
  else if point.fields.keys.any isTotalField then .histogram
  else if point.fields.size = 1 then .gauge
  else .untyped

/-- The observation of a gauge or a counter, which has exactly one field. -/
def numberObservation
    (kind : String)
    (reading : NumberPoint -> Reading)
    (point : Point)
    (time : UInt64) : Except Error Observation :=
  match point.fields.entries with
  | [(metric, value)] => do
      let number <- value.toNumber metric
      let levels := TagLevels.split point.tags
      .ok <| .under levels metric <|
        reading ⟨Attribute.ofTags levels.attributes, 0, time, some number⟩
  | entries => .error (.fieldCount kind entries.length)

/-- The slice with the count of a bucket, from the first field with its ending. -/
def bucketSlice (fields : Fields) (bound : String) : Except Error (String × Slice) :=
  match Binary64.ofKey? bound with
  | none => .error (.invalidBucketBound bound)
  | some number =>
      let bucket? := fields.entries.findSome? fun (key, value) =>
        (stem? ReservedName.bucketEnding key).map (·, key, value)
      match bucket? with
      | none => .error (.unpairedBucket bound)
      | some (metric, key, value) => do
          let count <- value.toCount key
          .ok (metric, .bucket number count)

/-- The slice with the value of a quantile, from the only field. -/
def quantileSlice (fields : Fields) (quantile : String) : Except Error (String × Slice) :=
  match Binary64.ofFiniteKey? quantile with
  | none => .error (.invalidQuantile quantile)
  | some number =>
      match fields.entries with
      | [] => .error (.unpairedQuantile quantile)
      | [(metric, value)] => do
          let value <- value.toDouble metric
          .ok (metric, .quantile number value)
      | entries => .error (.fieldCount "quantile" entries.length)

/-- The slice with the count and the sum, from the first two fields that belong
together. Without two such fields, a field that lacks the other one is named. -/
def totalSlice (fields : Fields) : Except Error (String × Slice) :=
  let counts := fields.entries.filterMap fun (key, value) =>
    (stem? ReservedName.countEnding key).map (·, key, value)
  let total? := counts.findSome? fun (metric, key, count) =>
    (fields.find? (metric ++ ReservedName.sumEnding)).map (metric, key, count, ·)
  match total?, counts with
  | some (metric, key, count, sum), _ => do
      let count <- count.toCount key
      let sum <- sum.toDouble (metric ++ ReservedName.sumEnding)
      .ok (metric, .total count sum)
  | none, (metric, _) :: _ =>
      .error (.unpairedTotal ReservedName.countEnding metric ReservedName.sumEnding)
  | none, [] =>
      match fields.keys.findSome? (stem? ReservedName.sumEnding) with
      | some metric =>
          .error (.unpairedTotal ReservedName.sumEnding metric ReservedName.countEnding)
      | none => .error (.unknownValueType fields.keys)

/-- The observation of a slice. A bucket bound goes before a quantile, and neither of
the two tags is an attribute. -/
def sliceObservation
    (preferSummary : Bool)
    (point : Point)
    (time : UInt64) : Except Error Observation := do
  let levels := TagLevels.split point.tags
  let (metric, slice) <-
    match levels.attributes.find? ReservedName.bucketBound,
        levels.attributes.find? ReservedName.quantile with
    | some bound, _ => bucketSlice point.fields bound
    | none, some quantile => quantileSlice point.fields quantile
    | none, none => totalSlice point.fields
  let attributes :=
    (levels.attributes.erase ReservedName.bucketBound).erase ReservedName.quantile
  .ok <| .under levels metric <| .slice preferSummary ⟨time, attributes⟩ slice

/-- The observation of a point whose fields all have keys. -/
def observation (point : Point) (time : UInt64) : Except Error Observation :=
  match typeOf point with
  | .untyped => .error (.unknownValueType point.fields.keys)
  | .gauge => numberObservation "gauge" .gauge point time
  | .sum => numberObservation "sum" (.sum .cumulative) point time
  | .histogram => sliceObservation false point time
  | .summary => sliceObservation true point time

/-- The observations of a point, of which there is one. A point without a time is
observed now, and fields without a key are dropped. -/
def observations (now : UInt64) (point : Point) : Except Error (List Observation) :=
  if point.measurement ≠ ReservedName.prometheus then
    .error (.unexpectedMeasurement point.measurement)
  else
    (observation
      { point with fields := point.fields.filter fun key _ => key ≠ "" }
      (point.timeOr now)).map ([·])

end Sliced
end LineMetrics
