import LineMetrics.Json.Printer
import LineMetrics.Json.Reader
import LineMetrics.Json.Record
import LineMetrics.Point
import LineMetrics.Schema

/-!
# Points in JSON

A point is a record of its five parts, of which only the measurement must be given.
The JSON type of a field value decides its type: a whole number is signed if 64 bits
hold it so, and otherwise unsigned.
-/

namespace LineMetrics
namespace FieldValue

def toJson : FieldValue -> Json
  | .int value => .int value.toInt
  | .uint value => .int value.toNat
  | .float value => .double value
  | .text value => .string value
  | .bool value => .bool value

def ofJson? : Json -> Option FieldValue
  | .int value =>
      match (Json.int value).asInt64? with
      | some value => some (.int value)
      | none => (Json.int value).asUInt64?.map .uint
  | .double value => some (.float value)
  | .string value => some (.text value)
  | .bool value => some (.bool value)
  | _ => none

end FieldValue

namespace TypeHint

/-- A hint is given by its name, or by an object with its name and nothing else. -/
def ofJson? : Json -> Option TypeHint
  | .string name => ofName? name
  | .object [(name, .null)] => ofName? name
  | _ => none

end TypeHint

namespace Point

/-- The names of the parts of a point, in order. -/
def partNames : List String := ["measurement", "tags", "fields", "timestamp", "value_type"]

def toJson (point : Point) : Json :=
  .object [
    ("measurement", .string point.measurement),
    ("tags", .object (point.tags.entries.map fun entry => (entry.1, .string entry.2))),
    ("fields", .object (point.fields.entries.map fun entry => (entry.1, entry.2.toJson))),
    ("timestamp", .int point.time.toNat),
    ("value_type", .string point.hint.name)]

/-- Read an object as a dictionary. -/
def dictionary? (read : Json -> Option α) (json : Json) : Option (Dictionary α) :=
  (json.asMembersOf? read).map Dictionary.ofList

def ofJson? (json : Json) : Option Point := do
  let parts <- json.record? partNames
  let measurement <- Json.required? Json.asText? "measurement" parts
  let tags <- Json.optional? (dictionary? Json.asText?) ∅ "tags" parts
  let fields <- Json.optional? (dictionary? FieldValue.ofJson?) ∅ "fields" parts
  let time <- Json.optional? Json.asUInt64? 0 "timestamp" parts
  let hint <- Json.optional? TypeHint.ofJson? .untyped "value_type" parts
  some ⟨measurement, tags, fields, time, hint⟩

/-- The compact JSON text of a point. -/
def toText (point : Point) : String := point.toJson.toText

/-- The point that a JSON text stands for. -/
def ofText? (text : String) : Option Point := (Json.parse? text).bind ofJson?

end Point

namespace Schema

/-- The schema that the JSON text of a configuration selects. -/
def ofConfiguration? (text : String) : Option Schema := do
  let json <- Json.parse? text
  let parts <- json.strictRecord? ["schema"]
  Json.optional? (fun json => json.asText?.bind fun name => (ofName name).toOption)
    default "schema" parts

end Schema
end LineMetrics
