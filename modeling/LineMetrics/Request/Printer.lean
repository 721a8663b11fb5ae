import LineMetrics.Json.Printer
import LineMetrics.MetricTree

/-!
# Writing requests

A request is the JSON form of a metric tree. All members of a part are written, with
what they hold by default where the tree has nothing to say, but a metric without
data has no member for it, and neither has a data point without a value. Whole
numbers among the attributes are written as texts, and so are the times of data
points other than those of summaries.
-/

namespace LineMetrics
namespace Request

/-- The text of a whole number. -/
def wholeText (value : Int) : Json := .string (String.ofList (integerText value))

mutual

/-- A value, given by the member that states it; what is absent is null. -/
def valueJson : AttributeValue -> Json
  | .absent => .null
  | .empty => .object []
  | .text value => .object [("stringValue", .string value)]
  | .bool value => .object [("boolValue", .bool value)]
  | .int value => .object [("intValue", wholeText value.toInt)]
  | .double value => .object [("doubleValue", .double value)]
  | .bytes value =>
      .object [("bytesValue", .string (String.ofList (Text.Base64.encode value)))]
  | .list items => .object [("arrayValue", .object [("values", .list (itemsJson items))])]
  | .table members => .object [("kvlistValue", .object [("values", .list (tableJson members))])]

/-- The items of a list. -/
def itemsJson : List AttributeValue -> List Json
  | [] => []
  | item :: items => valueJson item :: itemsJson items

/-- The members of a table, each as an attribute. -/
def tableJson : List (String × AttributeValue) -> List Json
  | [] => []
  | (key, value) :: members =>
      .object [("key", .string key), ("value", valueJson value)] :: tableJson members

end

def attributesJson (attributes : List Attribute) : Json :=
  .list (attributes.map fun entry =>
    .object [("key", .string entry.key), ("value", valueJson entry.value)])

/-- The member that states the value of a data point, if it has one. -/
def numberMembers : Option Number -> List (String × Json)
  | some (.int value) => [("asInt", .int value.toInt)]
  | some (.double value) => [("asDouble", .double value)]
  | none => []

def numberPointJson (point : NumberPoint) : Json :=
  .object ([
    ("attributes", attributesJson point.attributes),
    ("startTimeUnixNano", wholeText point.start.toNat),
    ("timeUnixNano", wholeText point.time.toNat),
    ("exemplars", .list []),
    ("flags", .int 0)] ++ numberMembers point.value)

def histogramPointJson (point : HistogramPoint) : Json :=
  .object [
    ("attributes", attributesJson point.attributes),
    ("startTimeUnixNano", wholeText point.start.toNat),
    ("timeUnixNano", wholeText point.time.toNat),
    ("count", .int point.count.toNat),
    ("sum", match point.sum with
      | some sum => .double sum
      | none => .null),
    ("bucketCounts", .list (point.counts.map fun count => .int count.toNat)),
    ("explicitBounds", .list (point.bounds.map .double)),
    ("exemplars", .list []),
    ("flags", .int 0),
    ("min", .null),
    ("max", .null)]

def quantileJson (quantile : Quantile) : Json :=
  .object [("quantile", .double quantile.quantile), ("value", .double quantile.value)]

def summaryPointJson (point : SummaryPoint) : Json :=
  .object [
    ("attributes", attributesJson point.attributes),
    ("startTimeUnixNano", .int point.start.toNat),
    ("timeUnixNano", .int point.time.toNat),
    ("count", .int point.count.toNat),
    ("sum", .double point.sum),
    ("quantileValues", .list (point.quantiles.map quantileJson)),
    ("flags", .int 0)]

/-- The member with the data of a metric. -/
def dataMember : MetricData -> String × Json
  | .gauge points =>
      ("gauge", .object [("dataPoints", .list (points.map numberPointJson))])
  | .sum points temporality monotonic =>
      ("sum", .object [
        ("dataPoints", .list (points.map numberPointJson)),
        ("aggregationTemporality", .int temporality),
        ("isMonotonic", .bool monotonic)])
  | .histogram points temporality =>
      ("histogram", .object [
        ("dataPoints", .list (points.map histogramPointJson)),
        ("aggregationTemporality", .int temporality)])
  | .exponentialHistogram =>
      ("exponentialHistogram", .object [
        ("dataPoints", .list []),
        ("aggregationTemporality", .int 0)])
  | .summary points =>
      ("summary", .object [("dataPoints", .list (points.map summaryPointJson))])

def metricJson (metric : Metric) : Json :=
  .object ([
    ("name", .string metric.name),
    ("description", .string ""),
    ("unit", .string ""),
    ("metadata", .list [])] ++ (metric.data.map dataMember).toList)

def scopeJson : Option Scope -> Json
  | some scope =>
      .object [
        ("name", .string scope.name),
        ("version", .string scope.version),
        ("attributes", .list []),
        ("droppedAttributesCount", .int 0)]
  | none => .null

def scopeMetricsJson (metrics : ScopeMetrics) : Json :=
  .object [
    ("scope", scopeJson metrics.scope),
    ("metrics", .list (metrics.metrics.map metricJson)),
    ("schemaUrl", .string "")]

def resourceJson : Option (List Attribute) -> Json
  | some attributes =>
      .object [
        ("attributes", attributesJson attributes),
        ("droppedAttributesCount", .int 0),
        ("entityRefs", .list [])]
  | none => .null

def resourceMetricsJson (metrics : ResourceMetrics) : Json :=
  .object [
    ("resource", resourceJson metrics.resource),
    ("scopeMetrics", .list (metrics.scopes.map scopeMetricsJson)),
    ("schemaUrl", .string "")]

/-- The JSON form of a metric tree. -/
def ofTree (tree : MetricTree) : Json :=
  .object [("resourceMetrics", .list (tree.map resourceMetricsJson))]

/-- The compact JSON text of a metric tree. -/
def textOfTree (tree : MetricTree) : String := (ofTree tree).toText

end Request
end LineMetrics
