import LineMetrics.Binary64.Rounding
import LineMetrics.Json

/-!
# Records in JSON

A record has members with fixed names in a fixed order. It is given by an object,
where a named member may stand only once and other members may be passed over, or
by a list of its members in order, where members at the end may be missing.
-/

namespace LineMetrics
namespace Json

/-- The members of a record that are given, each with its name. -/
def record? (names : List String) : Json -> Option (List (String × Json))
  | .object members =>
      let named := members.filter fun member => member.1 ∈ names
      if (named.map Prod.fst).Nodup then some named else none
  | .list items => if items.length ≤ names.length then some (names.zip items) else none
  | _ => none

/-- The members of a record, as `record?` gives them, where an object must not hold
any other member. -/
def strictRecord? (names : List String) (json : Json) : Option (List (String × Json)) :=
  match json with
  | .object members =>
      if members.all fun member => member.1 ∈ names then json.record? names else none
  | _ => json.record? names

/-- The members of a record, as `record?` gives them, where a list must give all. -/
def completeRecord? (names : List String) (json : Json) : Option (List (String × Json)) :=
  match json with
  | .list items => if items.length = names.length then json.record? names else none
  | _ => json.record? names

/-- Read a member that must be given. -/
def required? (read : Json -> Option α) (name : String) (members : List (String × Json)) :
    Option α :=
  (members.lookup name).bind read

/-- Read a member that has a value of its own when it is not given. -/
def optional?
    (read : Json -> Option α)
    (absent : α)
    (name : String)
    (members : List (String × Json)) : Option α :=
  match members.lookup name with
  | some json => read json
  | none => some absent

def asBool? : Json -> Option Bool
  | .bool value => some value
  | _ => none

def asText? : Json -> Option String
  | .string value => some value
  | _ => none

/-- A whole number between two bounds. -/
def asIntWithin? (least greatest : Int) : Json -> Option Int
  | .int value => if least ≤ value ∧ value ≤ greatest then some value else none
  | _ => none

def asInt32? : Json -> Option Int := asIntWithin? (-0x80000000) 0x7fffffff

def asInt64? (json : Json) : Option Int64 :=
  (json.asIntWithin? (-0x8000000000000000) 0x7fffffffffffffff).map Int64.ofInt

def asUInt32? (json : Json) : Option UInt32 :=
  (json.asIntWithin? 0 0xffffffff).map fun value => UInt32.ofNat value.toNat

def asUInt64? (json : Json) : Option UInt64 :=
  (json.asIntWithin? 0 0xffffffffffffffff).map fun value => UInt64.ofNat value.toNat

/-- A number, whole or not, as a binary64 number. -/
def asDouble? : Json -> Option Binary64
  | .int value => some (.ofInt value)
  | .double value => some value
  | _ => none

/-- A list whose items can all be read. -/
def asListOf? (read : Json -> Option α) : Json -> Option (List α)
  | .list items => items.mapM read
  | _ => none

/-- A value, or null for the absence of one. -/
def asNullable? (read : Json -> Option α) : Json -> Option (Option α)
  | .null => some none
  | json => (read json).map some

/-- An object whose values can all be read. -/
def asMembersOf? (read : Json -> Option α) : Json -> Option (List (String × α))
  | .object members => members.mapM fun member => (read member.2).map (member.1, ·)
  | _ => none

end Json
end LineMetrics
