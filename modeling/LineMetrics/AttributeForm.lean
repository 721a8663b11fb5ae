import LineMetrics.Attribute

/-!
# The JSON form of attribute values

Which JSON value an attribute value is when it is nested in another one, and where a value
stands in another one. In a table, the last value of a repeated key stands for all.
-/

namespace LineMetrics
namespace AttributeValue

/-- The last value of a key among members. -/
def lastValue? (members : List (String × AttributeValue)) (key : String) :
    Option AttributeValue :=
  members.reverse.lookup key

/-- The JSON value is the form of an attribute value. Items are in order. A table has one
member for each of its keys, in the order of the keys. What has no value, and a number that
is not finite, is null. -/
inductive HasForm : AttributeValue -> Json -> Prop
  | absent : HasForm .absent .null
  | empty : HasForm .empty .null
  | text (value : String) : HasForm (.text value) (.string value)
  | bool (value : Bool) : HasForm (.bool value) (.bool value)
  | int (value : Int64) : HasForm (.int value) (.int value.toInt)
  | finite {value : Binary64} (finite : value.isFinite = true) :
      HasForm (.double value) (.double value)
  | notFinite {value : Binary64} (notFinite : value.isFinite = false) :
      HasForm (.double value) .null
  | bytes (value : List UInt8) :
      HasForm (.bytes value) (.string (String.ofList (Text.Base64.encode value)))
  | list
      {items : List AttributeValue}
      {forms : List Json}
      (length : forms.length = items.length)
      (each : ∀ (index : Nat) item form, items[index]? = some item ->
        forms[index]? = some form -> HasForm item form) :
      HasForm (.list items) (.list forms)
  | table
      {members : List (String × AttributeValue)}
      {forms : List (String × Json)}
      (ascending : forms.Pairwise fun left right => left.1 < right.1)
      (keys : ∀ key, key ∈ forms.map Prod.fst ↔ key ∈ members.map Prod.fst)
      (each : ∀ key value form, lastValue? members key = some value -> (key, form) ∈ forms ->
        HasForm value form) :
      HasForm (.table members) (.object forms)

/-- The value has other values inside. -/
def isNested : AttributeValue -> Bool
  | .list _ => true
  | .table _ => true
  | _ => false

/-- A place for a value in a nested value, at any depth. -/
inductive Place
  | here
  | item (before : List AttributeValue) (place : Place) (after : List AttributeValue)
  | member
      (before : List (String × AttributeValue))
      (key : String)
      (place : Place)
      (after : List (String × AttributeValue))

/-- The value with another one at a place. -/
def Place.fill : Place -> AttributeValue -> AttributeValue
  | .here, value => value
  | .item before place after, value => .list (before ++ place.fill value :: after)
  | .member before key place after, value =>
      .table (before ++ (key, place.fill value) :: after)

end AttributeValue
end LineMetrics
