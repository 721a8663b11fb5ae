import LineMetrics.Json.Reader
import LineMetrics.Json.Record
import LineMetrics.MetricTree

/-!
# Reading requests

A request is the JSON form of a metric tree. Most members may be missing, and members
without a name of their own are passed over.

The data of a metric and the value of a data point are each stated by one of several
members, of which the first counts. What such a member holds is examined only after
all of the members around it have been found readable and not nested too far, and if
it does not have the right form the metric is without data, and the data point
without a value.

The value of an attribute is likewise stated by one of several members, all of which
must be readable and not nested too far, but there the last counts, and all that
state a value must have the right form. Outside the data of a metric, a wrong form
makes the whole request malformed.
-/

namespace LineMetrics
namespace Request

/-- How many lists and objects may stand inside one another in what is read. -/
def nestingLimit : Nat := 127

/-- A 64-bit whole number given by its text or as a number. -/
def asWhole? (json : Json) : Option Int64 :=
  match json with
  | .string text => do (Json.int (<- readInteger? text.toList)).asInt64?
  | _ => json.asInt64?

/-- A time given by its text, which must not have a minus sign. -/
def asTimeText? (json : Json) : Option UInt64 := do
  let text := (<- json.asText?).toList
  if text.head? = some '-' then none
  else (Json.int (<- readInteger? text)).asUInt64?

/-! ## Attributes -/

/-- The members that state an attribute value. -/
def valueNames : List String := [
  "stringValue", "boolValue", "intValue", "doubleValue", "bytesValue", "arrayValue",
  "kvlistValue"]

/-- Read a value stated by a member, given how to read items and tables. -/
def namedValue?
    (items? : Json -> Option (List AttributeValue))
    (table? : Json -> Option (List Attribute))
    (name : String)
    (json : Json) : Option AttributeValue :=
  match name with
  | "stringValue" => json.asText?.map .text
  | "boolValue" => json.asBool?.map .bool
  | "intValue" => (asWhole? json).map .int
  | "doubleValue" => json.asDouble?.map .double
  | "bytesValue" => do
      let bytes <- Text.Base64.decode? (<- json.asText?).toList
      some (.bytes bytes)
  | "arrayValue" => (items? json).map .list
  | "kvlistValue" => (table? json).map fun attributes =>
      .table (attributes.map fun entry => (entry.key, entry.value))
  | _ => none

/-- Read the only member of a record with that name. -/
def onlyMember? (read : Json -> Option α) (name : String) (json : Json) : Option α := do
  Json.required? read name (<- json.record? [name])

mutual

/-- Read attributes. The number says how many lists and objects may be opened. -/
def attributes? : Nat -> Json -> Option (List Attribute)
  | room + 1, json => json.asListOf? fun item => attribute? room item
  | 0, _ => none

/-- Read an attribute. Its value may be null or missing. -/
def attribute? : Nat -> Json -> Option Attribute
  | room + 1, json => do
      let members <- json.completeRecord? ["key", "value"]
      let key <- Json.required? Json.asText? "key" members
      let value <- Json.optional? (Json.asNullable? fun json => value? room json) none "value"
        members
      some ⟨key, value.getD .absent⟩
  | 0, _ => none

/-- Read a value. The last member that states one counts, but all of them must have
the right form. -/
def value? : Nat -> Json -> Option AttributeValue
  | room + 1, .object members =>
      if Json.areMembersReadable members ∧ Json.depthOfMembers members ≤ room then do
        let stating := members.filter fun member => member.1 ∈ valueNames
        let values <- stating.mapM fun (name, json) =>
          namedValue? (fun json => items? room json) (fun json => table? room json) name json
        values.getLast?
      else none
  | _, _ => none

/-- Read the items of a list. -/
def items? : Nat -> Json -> Option (List AttributeValue)
  | room + 2, json =>
      onlyMember? (fun json => json.asListOf? fun item => value? room item) "values" json
  | _, _ => none

/-- Read the members of a table. -/
def table? : Nat -> Json -> Option (List Attribute)
  | room + 1, json => onlyMember? (fun json => attributes? room json) "values" json
  | 0, _ => none

end

/-! ## Data points -/

/-- Read the attributes of a data point. -/
def pointAttributes? : Json -> Option (List Attribute) := attributes? nestingLimit

/-- The parts of a data point with one number. -/
def numberPointNames : List String := [
  "attributes", "startTimeUnixNano", "timeUnixNano", "exemplars", "flags"]

/-- Read the value of a data point, stated by a member. -/
def number? (member : String × Json) : Option Number :=
  match member.1 with
  | "asDouble" => member.2.asDouble?.map .double
  | "asInt" => member.2.asInt64?.map .int
  | _ => none

/-- Bytes given by pairs of hexadecimal digits, with or without 0x in front. -/
def asHexadecimal? (json : Json) : Option Unit := do
  let text := (<- json.asText?).toList
  let digits :=
    match text with
    | '0' :: 'x' :: digits => digits
    | digits => digits
  if digits.length % 2 = 0 ∧ digits.all fun digit => (Json.hexDigitValue? digit).isSome then
    some ()
  else none

/-- Read an exemplar, which is not kept. Its number may be null or missing. -/
def exemplar? (json : Json) : Option Unit := do
  let parts <- json.completeRecord? [
    "filteredAttributes", "timeUnixNano", "spanId", "traceId", "value"]
  let _ <- Json.required? pointAttributes? "filteredAttributes" parts
  let _ <- Json.required? Json.asUInt64? "timeUnixNano" parts
  Json.required? asHexadecimal? "spanId" parts
  Json.required? asHexadecimal? "traceId" parts
  let stated? : Json -> Option Number
    | .object [member] => number? member
    | _ => none
  let _ <- Json.optional? (Json.asNullable? stated?) none "value" parts
  some ()

/-- Read exemplars, which are not kept. -/
def exemplars? (json : Json) : Option Unit := (json.asListOf? exemplar?).map fun _ => ()

def numberPoint? (json : Json) : Option NumberPoint :=
  match json with
  | .object members => do
      let parts <- json.record? numberPointNames
      let attributes <- Json.optional? pointAttributes? [] "attributes" parts
      let start <- Json.optional? asTimeText? 0 "startTimeUnixNano" parts
      let time <- Json.optional? asTimeText? 0 "timeUnixNano" parts
      Json.optional? exemplars? () "exemplars" parts
      let _ <- Json.optional? Json.asUInt32? 0 "flags" parts
      let stated := members.find? fun member => member.1 ∈ ["asDouble", "asInt"]
      some ⟨attributes, start, time, stated.bind number?⟩
  | _ => none

/-- The parts of a data point of a histogram. -/
def histogramPointNames : List String := [
  "attributes", "startTimeUnixNano", "timeUnixNano", "count", "sum", "bucketCounts",
  "explicitBounds", "exemplars", "flags", "min", "max"]

def histogramPoint? (json : Json) : Option HistogramPoint := do
  let parts <- json.record? histogramPointNames
  let attributes <- Json.optional? pointAttributes? [] "attributes" parts
  let start <- Json.optional? asTimeText? 0 "startTimeUnixNano" parts
  let time <- Json.optional? asTimeText? 0 "timeUnixNano" parts
  let count <- Json.optional? Json.asUInt64? 0 "count" parts
  let sum <- Json.optional? (Json.asNullable? Json.asDouble?) none "sum" parts
  let counts <- Json.optional? (Json.asListOf? Json.asUInt64?) [] "bucketCounts" parts
  let bounds <- Json.optional? (Json.asListOf? Json.asDouble?) [] "explicitBounds" parts
  Json.optional? exemplars? () "exemplars" parts
  let _ <- Json.optional? Json.asUInt32? 0 "flags" parts
  let _ <- Json.optional? (Json.asNullable? Json.asDouble?) none "min" parts
  let _ <- Json.optional? (Json.asNullable? Json.asDouble?) none "max" parts
  some ⟨attributes, start, time, count, sum, counts, bounds⟩

def quantile? (json : Json) : Option Quantile := do
  let parts <- json.record? ["quantile", "value"]
  let quantile <- Json.required? Json.asDouble? "quantile" parts
  let value <- Json.required? Json.asDouble? "value" parts
  some ⟨quantile, value⟩

/-- The parts of a data point of a summary, of which none may be missing. -/
def summaryPointNames : List String := [
  "attributes", "startTimeUnixNano", "timeUnixNano", "count", "sum", "quantileValues",
  "flags"]

def summaryPoint? (json : Json) : Option SummaryPoint := do
  let parts <- json.record? summaryPointNames
  let attributes <- Json.required? pointAttributes? "attributes" parts
  let start <- Json.required? Json.asUInt64? "startTimeUnixNano" parts
  let time <- Json.required? Json.asUInt64? "timeUnixNano" parts
  let count <- Json.required? Json.asUInt64? "count" parts
  let sum <- Json.required? Json.asDouble? "sum" parts
  let quantiles <- Json.required? (Json.asListOf? quantile?) "quantileValues" parts
  let _ <- Json.required? Json.asUInt32? "flags" parts
  some ⟨attributes, start, time, count, sum, quantiles⟩

/-! ## Metrics -/

/-- The members that state the data of a metric. -/
def dataNames : List String := ["gauge", "sum", "histogram", "exponentialHistogram", "summary"]

def gauge? (json : Json) : Option MetricData := do
  let parts <- json.record? ["dataPoints"]
  let points <- Json.optional? (Json.asListOf? numberPoint?) [] "dataPoints" parts
  some (.gauge points)

def sum? (json : Json) : Option MetricData := do
  let parts <- json.record? ["dataPoints", "aggregationTemporality", "isMonotonic"]
  let points <- Json.optional? (Json.asListOf? numberPoint?) [] "dataPoints" parts
  let temporality <- Json.optional? Json.asInt32? 0 "aggregationTemporality" parts
  let monotonic <- Json.optional? Json.asBool? false "isMonotonic" parts
  some (.sum points temporality monotonic)

def histogram? (json : Json) : Option MetricData := do
  let parts <- json.record? ["dataPoints", "aggregationTemporality"]
  let points <- Json.optional? (Json.asListOf? histogramPoint?) [] "dataPoints" parts
  let temporality <- Json.optional? Json.asInt32? 0 "aggregationTemporality" parts
  some (.histogram points temporality)

/-- Read an exponential histogram, whose data points are not looked at. -/
def exponentialHistogram? (json : Json) : Option MetricData := do
  let parts <- json.record? ["dataPoints", "aggregationTemporality"]
  let _ <- Json.required? (Json.asListOf? some) "dataPoints" parts
  let _ <- Json.required? Json.asInt32? "aggregationTemporality" parts
  some .exponentialHistogram

def summary? (json : Json) : Option MetricData :=
  (onlyMember? (Json.asListOf? summaryPoint?) "dataPoints" json).map .summary

/-- Read the data of a metric, stated by a member. -/
def data? (member : String × Json) : Option MetricData :=
  match member.1 with
  | "gauge" => gauge? member.2
  | "sum" => sum? member.2
  | "histogram" => histogram? member.2
  | "exponentialHistogram" => exponentialHistogram? member.2
  | "summary" => summary? member.2
  | _ => none

/-- The parts of a metric besides its data. -/
def metricNames : List String := ["name", "description", "unit", "metadata"]

/-- Read a metric. The number says how many lists and objects may be opened inside
of it. -/
def metric? (room : Nat) (json : Json) : Option Metric :=
  match json with
  | .object members => do
      let parts <- json.record? metricNames
      let name <- Json.optional? Json.asText? "" "name" parts
      let _ <- Json.optional? Json.asText? "" "description" parts
      let _ <- Json.optional? Json.asText? "" "unit" parts
      let _ <- Json.optional? (attributes? room) [] "metadata" parts
      let others := members.filter fun member => member.1 ∉ metricNames
      if Json.areMembersReadable others ∧ Json.depthOfMembers others ≤ room then
        let stated := others.find? fun member => member.1 ∈ dataNames
        some ⟨name, stated.bind data?⟩
      else none
  | _ => none

/-! ## Places -/

/-- Read a scope, whose attributes are not kept. -/
def scope? (room : Nat) (json : Json) : Option Scope := do
  let parts <- json.record? ["name", "version", "attributes", "droppedAttributesCount"]
  let name <- Json.optional? Json.asText? "" "name" parts
  let version <- Json.optional? Json.asText? "" "version" parts
  let _ <- Json.optional? (attributes? room) [] "attributes" parts
  let _ <- Json.optional? Json.asUInt32? 0 "droppedAttributesCount" parts
  some ⟨name, version⟩

def scopeMetrics? (room : Nat) (json : Json) : Option ScopeMetrics := do
  let parts <- json.record? ["scope", "metrics", "schemaUrl"]
  let scope <- Json.optional? (Json.asNullable? (scope? (room - 1))) none "scope" parts
  let metrics <- Json.optional? (Json.asListOf? (metric? (room - 2))) [] "metrics" parts
  let _ <- Json.optional? Json.asText? "" "schemaUrl" parts
  some ⟨scope, metrics⟩

/-- Read a reference to an entity, which is not kept. -/
def entityReference? (json : Json) : Option Unit := do
  let parts <- json.record? ["schemaUrl", "type", "idKeys", "descriptionKeys"]
  let _ <- Json.required? Json.asText? "schemaUrl" parts
  let _ <- Json.required? Json.asText? "type" parts
  let _ <- Json.required? (Json.asListOf? Json.asText?) "idKeys" parts
  let _ <- Json.required? (Json.asListOf? Json.asText?) "descriptionKeys" parts
  some ()

def resource? (room : Nat) (json : Json) : Option (List Attribute) := do
  let parts <- json.record? ["attributes", "droppedAttributesCount", "entityRefs"]
  let attributes <- Json.optional? (attributes? room) [] "attributes" parts
  let _ <- Json.optional? Json.asUInt32? 0 "droppedAttributesCount" parts
  let _ <- Json.optional? (Json.asListOf? entityReference?) [] "entityRefs" parts
  some attributes

def resourceMetrics? (room : Nat) (json : Json) : Option ResourceMetrics := do
  let parts <- json.record? ["resource", "scopeMetrics", "schemaUrl"]
  let resource <- Json.optional? (Json.asNullable? (resource? (room - 1))) none "resource" parts
  let scopes <- Json.optional? (Json.asListOf? (scopeMetrics? (room - 2))) [] "scopeMetrics" parts
  let _ <- Json.optional? Json.asText? "" "schemaUrl" parts
  some ⟨resource, scopes⟩

/-- The metric tree of a request. -/
def tree? (json : Json) : Option MetricTree :=
  onlyMember? (Json.asListOf? (resourceMetrics? (nestingLimit - 3))) "resourceMetrics" json

/-- The metric tree that the bytes of a JSON text stand for. -/
def treeOfBytes? (bytes : ByteArray) : Option MetricTree := (Json.ofBytes? bytes).bind tree?

end Request
end LineMetrics
