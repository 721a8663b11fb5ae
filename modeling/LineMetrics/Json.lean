import LineMetrics.Binary64

/-!
# JSON values

A JSON value keeps the members of an object in the order of the text, with
repetitions. Whole numbers of up to 64 bits are kept apart from binary64 numbers.
A value can follow the grammar and still mean nothing, as a number beyond the
largest binary64 number does; such a value is `unreadable`, and can only be passed
over.
-/

namespace LineMetrics

/-- A JSON value. -/
inductive Json
  | null
  | bool (value : Bool)
  | int (value : Int)
  | double (value : Binary64)
  | string (value : String)
  | list (items : List Json)
  | object (members : List (String × Json))
  | unreadable
  deriving Inhabited

namespace Json

mutual

/-- The number of lists and objects around the innermost value. -/
def depth : Json -> Nat
  | .list items => depthOfItems items + 1
  | .object members => depthOfMembers members + 1
  | _ => 0

/-- The greatest depth among items. -/
def depthOfItems : List Json -> Nat
  | [] => 0
  | item :: items => max item.depth (depthOfItems items)

/-- The greatest depth among the values of members. -/
def depthOfMembers : List (String × Json) -> Nat
  | [] => 0
  | (_, value) :: members => max value.depth (depthOfMembers members)

end

mutual

/-- Every part of the value has a meaning. -/
def isReadable : Json -> Bool
  | .list items => areItemsReadable items
  | .object members => areMembersReadable members
  | .unreadable => false
  | _ => true

/-- Every part of the items has a meaning. -/
def areItemsReadable : List Json -> Bool
  | [] => true
  | item :: items => item.isReadable && areItemsReadable items

/-- Every part of the members has a meaning. -/
def areMembersReadable : List (String × Json) -> Bool
  | [] => true
  | (_, value) :: members => value.isReadable && areMembersReadable members

end

end Json
end LineMetrics
