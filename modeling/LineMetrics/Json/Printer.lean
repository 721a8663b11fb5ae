import LineMetrics.Json.Number
import LineMetrics.Json.Text

/-!
# Writing JSON

Values are written without any space between their parts.
-/

namespace LineMetrics
namespace Json

mutual

/-- The compact text of a value. A value without a meaning is written as null. -/
def render : Json -> List Char
  | .null => "null".toList
  | .bool true => "true".toList
  | .bool false => "false".toList
  | .int value => integerText value
  | .double value => doubleText value
  | .string value => writtenText value
  | .list [] => "[]".toList
  | .list (item :: items) => '[' :: (item.render ++ renderItems items)
  | .object [] => ['\x7b', '\x7d']
  | .object ((key, value) :: members) =>
      '\x7b' :: (writtenText key ++ ':' :: (value.render ++ renderMembers members))
  | .unreadable => "null".toList

/-- Further items of a list and its end. -/
def renderItems : List Json -> List Char
  | [] => [']']
  | item :: items => ',' :: (item.render ++ renderItems items)

/-- Further members of an object and its end. -/
def renderMembers : List (String × Json) -> List Char
  | [] => ['\x7d']
  | (key, value) :: members =>
      ',' :: (writtenText key ++ ':' :: (value.render ++ renderMembers members))

end

/-- The compact text of a value, as a string. -/
def toText (json : Json) : String := String.ofList json.render

end Json
end LineMetrics
