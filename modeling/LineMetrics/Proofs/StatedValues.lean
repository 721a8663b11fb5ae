import LineMetrics.Proofs.ExactCounts

/-!
# What tags and fields state

A tag describes the resource, names the scope or is an attribute of the data point, by its
key alone. A field with a number states the value of a data point or a sum. This is said
here without the order in which tags and fields are read.
-/

namespace LineMetrics

namespace Dictionary

variable {α : Type}

/-- What is kept by its key is found as before. -/
@[simp] theorem find?_filter_key
    (dictionary : Dictionary α)
    (keep : String -> Bool)
    (key : String) :
    (dictionary.filter fun other _ => keep other).find? key =
      if keep key then dictionary.find? key else none :=
  lookup_filter_key keep key dictionary.entries

/-- The keys are those under which there is a value. -/
theorem mem_keys_iff {dictionary : Dictionary α} {key : String} :
    key ∈ dictionary.keys ↔ dictionary.contains key = true := by
  rw [keys, contains, Option.isSome_iff_exists, List.mem_map]
  constructor
  · rintro ⟨⟨key, value⟩, member, rfl⟩
    exact ⟨value, find?_eq_some_iff.mpr member⟩
  · rintro ⟨value, found⟩
    exact ⟨(key, value), find?_eq_some_iff.mp found, rfl⟩

end Dictionary

namespace TagLevels

/-- The tags by level: each goes to the level that its key belongs to. -/
def byKey (tags : Tags) : TagLevels where
  resource := tags.filter fun key _ => isResourceLevel key
  scope := {
    name := (tags.find? ReservedName.scopeName).getD ""
    version := (tags.find? ReservedName.scopeVersion).getD "" }
  attributes := tags.filter fun key _ => isAttributeLevel key

/-- Tags are split by their keys. -/
theorem split_eq_byKey (tags : Tags) : split tags = byKey tags := by
  refine eq_of_parts ?_ (scope_name_split tags) (scope_version_split tags) ?_
  · apply Dictionary.ext_find?
    intro key
    rw [find?_resource_split, byKey, Dictionary.find?_filter_key]
  · apply Dictionary.ext_find?
    intro key
    rw [find?_attributes_split, byKey, Dictionary.find?_filter_key]

end TagLevels

namespace FieldValue

/-- The value of a data point that a value is. An unsigned whole number is the signed one
with the same bits. -/
inductive IsNumber : FieldValue -> Number -> Prop
  | int (value : Int64) : IsNumber (.int value) (.int value)
  | uint (value : UInt64) : IsNumber (.uint value) (.int value.toInt64)
  | float (value : Binary64) : IsNumber (.float value) (.double value)

/-- The binary64 number that is nearest to a value. -/
inductive IsDouble : FieldValue -> Binary64 -> Prop
  | int (value : Int64) : IsDouble (.int value) (.ofInt value.toInt)
  | uint (value : UInt64) : IsDouble (.uint value) (.ofNat value.toNat)
  | float (value : Binary64) : IsDouble (.float value) value

/-- A value is converted to the value of a data point exactly if it is one. -/
theorem toNumber_eq_ok_iff (field : String) (value : FieldValue) (number : Number) :
    value.toNumber field = .ok number ↔ value.IsNumber number := by
  constructor
  · intro converted
    cases value <;> cases converted
    · exact .int _
    · exact .uint _
    · exact .float _
  · rintro (_ | _ | _) <;> rfl

/-- A value is converted to a binary64 number exactly if that is the nearest one. -/
theorem toDouble_eq_ok_iff (field : String) (value : FieldValue) (double : Binary64) :
    value.toDouble field = .ok double ↔ value.IsDouble double := by
  constructor
  · intro converted
    cases value <;> cases converted
    · exact .int _
    · exact .uint _
    · exact .float _
  · rintro (_ | _ | _) <;> rfl

end FieldValue

/-- The field with the key states the number. -/
def StatesDouble (fields : Fields) (key : String) (double : Binary64) : Prop :=
  ∃ value, fields.find? key = some value ∧ value.IsDouble double

end LineMetrics
