import LineMetrics.Binary64.Text
import LineMetrics.Dictionary
import LineMetrics.Json.Printer
import LineMetrics.Text.Base64

/-!
# Attributes

An attribute has a key and a value. The value may be missing, may be there and be
empty, and may be nested. As a tag, a plain value is its own text, and a nested one
is JSON in which the members of a table are in key order and the last value of a
repeated key stands for all.
-/

namespace LineMetrics

/-- The value of an attribute. -/
inductive AttributeValue
  | absent
  | empty
  | text (value : String)
  | bool (value : Bool)
  | int (value : Int64)
  | double (value : Binary64)
  | bytes (value : List UInt8)
  | list (items : List AttributeValue)
  | table (members : List (String × AttributeValue))
  deriving Inhabited

namespace AttributeValue

mutual

/-- Two values are the same, part by part. -/
def sameAs : AttributeValue -> AttributeValue -> Bool
  | .absent, .absent => true
  | .empty, .empty => true
  | .text left, .text right => left = right
  | .bool left, .bool right => left = right
  | .int left, .int right => left = right
  | .double left, .double right => left = right
  | .bytes left, .bytes right => left = right
  | .list left, .list right => sameItems left right
  | .table left, .table right => sameMembers left right
  | _, _ => false

/-- The items of two lists are the same, one by one. -/
def sameItems : List AttributeValue -> List AttributeValue -> Bool
  | [], [] => true
  | left :: lefts, right :: rights => left.sameAs right && sameItems lefts rights
  | _, _ => false

/-- The members of two tables are the same, one by one. -/
def sameMembers :
    List (String × AttributeValue) -> List (String × AttributeValue) -> Bool
  | [], [] => true
  | (key, left) :: lefts, (key', right) :: rights =>
      key = key' && left.sameAs right && sameMembers lefts rights
  | _, _ => false

end

mutual

theorem sameAs_iff (left right : AttributeValue) :
    left.sameAs right = true ↔ left = right := by
  cases left <;> cases right <;> simp [sameAs, sameItems_iff, sameMembers_iff]

theorem sameItems_iff (lefts rights : List AttributeValue) :
    sameItems lefts rights = true ↔ lefts = rights := by
  match lefts, rights with
  | [], [] => simp [sameItems]
  | [], _ :: _ => simp [sameItems]
  | _ :: _, [] => simp [sameItems]
  | left :: lefts, right :: rights =>
      simp [sameItems, sameAs_iff left right, sameItems_iff lefts rights]

theorem sameMembers_iff (lefts rights : List (String × AttributeValue)) :
    sameMembers lefts rights = true ↔ lefts = rights := by
  match lefts, rights with
  | [], [] => simp [sameMembers]
  | [], _ :: _ => simp [sameMembers]
  | _ :: _, [] => simp [sameMembers]
  | (key, left) :: lefts, (key', right) :: rights =>
      simp [sameMembers, sameAs_iff left right, sameMembers_iff lefts rights]

end

instance : DecidableEq AttributeValue := fun left right =>
  decidable_of_iff (left.sameAs right = true) (sameAs_iff left right)

end AttributeValue

/-- A key with a value. -/
structure Attribute where
  key : String
  value : AttributeValue
  deriving DecidableEq, Inhabited

namespace AttributeValue

mutual

/-- The JSON form of a value; what has no value is null. -/
def toJson : AttributeValue -> Json
  | .absent => .null
  | .empty => .null
  | .text value => .string value
  | .bool value => .bool value
  | .int value => .int value.toInt
  | .double value => .double value
  | .bytes value => .string (String.ofList (Text.Base64.encode value))
  | .list items => .list (itemsToJson items)
  | .table members => .object (Dictionary.ofList (membersToJson members)).entries

/-- The JSON forms of items. -/
def itemsToJson : List AttributeValue -> List Json
  | [] => []
  | item :: items => item.toJson :: itemsToJson items

/-- The JSON forms of the values of members. -/
def membersToJson : List (String × AttributeValue) -> List (String × Json)
  | [] => []
  | (key, value) :: members => (key, value.toJson) :: membersToJson members

end

/-- The text of a value as a tag, if it has a value. -/
def tagText? : AttributeValue -> Option String
  | .absent => none
  | .empty => none
  | .text value => some value
  | .bool value => some (if value then "true" else "false")
  | .int value => some (String.ofList (integerText value.toInt))
  | .double value => some value.plainText
  | .bytes value => some (String.ofList (Text.Base64.encode value))
  | .list items => some (AttributeValue.list items).toJson.toText
  | .table members => some (AttributeValue.table members).toJson.toText

end AttributeValue

namespace Attribute

/-- The attribute with a text as its value. -/
def ofText (key value : String) : Attribute := ⟨key, .text value⟩

/-- The attributes of a dictionary of texts, in key order. -/
def ofTags (tags : Dictionary String) : List Attribute :=
  tags.entries.map fun entry => ofText entry.1 entry.2

/-- The tag that an attribute becomes: it needs a key and a value. -/
def toTag? (entry : Attribute) : Option (String × String) :=
  if entry.key = "" then none
  else entry.value.tagText?.map (entry.key, ·)

@[simp] theorem tagText?_ofText (key value : String) :
    (ofText key value).value.tagText? = some value := rfl

end Attribute
end LineMetrics
