import LineMetrics.Proofs.Tags
import Mathlib.Data.List.Perm.Basic

/-!
# Tags that are split and merged

Splitting tags into levels and merging the levels again gives back the tags, less those
that no level holds: a tag without a key, and the name or the version of the scope without
a value. The other way round, levels whose keys belong to them are found again in their
merged tags, in whatever order the attributes of a level are listed.
-/

namespace LineMetrics

namespace Dictionary

variable {α : Type}

/-- An entry is found among those that satisfy a condition if it does. -/
theorem find?_filter
    (condition : String -> α -> Bool)
    (dictionary : Dictionary α)
    (key : String) :
    (dictionary.filter condition).find? key = (dictionary.find? key).filter (condition key) := by
  apply Option.ext
  intro value
  rw [Option.filter_eq_some_iff, find?_eq_some_iff, find?_eq_some_iff, entries_filter,
    List.mem_filter]

/-- Entries with different keys are inserted in either order. -/
theorem insert_comm
    {first second : String}
    (dictionary : Dictionary α)
    (firstValue secondValue : α)
    (different : first ≠ second) :
    (dictionary.insert first firstValue).insert second secondValue =
      (dictionary.insert second secondValue).insert first firstValue := by
  apply ext_find?
  intro key
  rw [find?_insert, find?_insert, find?_insert, find?_insert]
  by_cases isSecond : key = second
  · rw [if_pos isSecond, if_neg fun isFirst => different (isFirst.symm.trans isSecond),
      if_pos isSecond]
  · rw [if_neg isSecond, if_neg isSecond]

/-- The only key of a single entry is its own. -/
theorem eq_of_contains_insert_empty
    {key other : String}
    {value : α}
    (member : ((∅ : Dictionary α).insert key value).contains other = true) :
    other = key := by
  rw [contains, find?_insert] at member
  by_contra different
  rw [if_neg different] at member
  cases member

end Dictionary

/-- Different tags are different attributes. -/
theorem Attribute.ofTags_injective {tags others : Tags} (same : ofTags tags = ofTags others) :
    tags = others := by
  have entryOf : Function.Injective fun entry : String × String => ofText entry.1 entry.2 := by
    rintro ⟨key, value⟩ ⟨otherKey, otherValue⟩ same
    cases same
    rfl
  exact Dictionary.ext (entryOf.list_map same)

namespace TagLevels

/-- Attributes add no tag without a key. -/
theorem find?_addAttributes_empty
    {tags : Tags}
    (attributes : List Attribute)
    (absent : tags.find? "" = none) :
    (addAttributes tags attributes).find? "" = none := by
  induction attributes generalizing tags with
  | nil => exact absent
  | cons first rest inductionHypothesis =>
      rw [addAttributes, List.foldl_cons]
      refine inductionHypothesis ?_
      rw [Attribute.toTag?]
      by_cases noKey : first.key = ""
      · rw [if_pos noKey]
        exact absent
      · rw [if_neg noKey]
        cases first.value.tagText? with
        | none => exact absent
        | some text =>
            exact (Dictionary.find?_insert _ _ _ _).trans
              ((if_neg (Ne.symm noKey)).trans absent)

/-- Merged tags all have keys. -/
theorem find?_merge_empty
    (resource : List Attribute)
    (scope : Option Scope)
    (attributes : List Attribute) :
    (merge resource scope attributes).find? "" = none := by
  refine find?_addAttributes_empty attributes ?_
  have noResource := find?_addAttributes_empty resource (Dictionary.find?_empty "")
  cases scope with
  | none => exact noResource
  | some scope =>
      have nameKey : "" ≠ ReservedName.scopeName := by decide
      have versionKey : "" ≠ ReservedName.scopeVersion := by decide
      simp [addScope, nameKey, versionKey, noResource]

/-- A key that is none of the scope belongs to one of the two other levels. -/
theorem level_of_key
    {key : String}
    (named : key ≠ "")
    (notName : key ≠ ReservedName.scopeName)
    (notVersion : key ≠ ReservedName.scopeVersion) :
    isResourceLevel key = true ∨ isAttributeLevel key = true := by
  cases isResource : isResourceKey key <;>
    simp [isResourceLevel, isAttributeLevel, isScopeKey, named, notName, notVersion, isResource]

/-- A key that describes the resource is on that level: it is not empty and names no
scope. -/
theorem isResourceLevel_of_isResourceKey
    {key : String}
    (isResource : isResourceKey key) :
    isResourceLevel key := by
  have apart (other : String) (otherLevel : isResourceKey other = false) : key ≠ other := by
    rintro rfl
    exact Bool.noConfusion (otherLevel.symm.trans isResource)
  have named := apart "" (by decide)
  have notName := apart ReservedName.scopeName (by decide)
  have notVersion := apart ReservedName.scopeVersion (by decide)
  simp [isResourceLevel, isScopeKey, named, notName, notVersion, isResource]

/-- A level holds the tag: it has a key, and if it is one of the scope, a value. -/
def isKept (key value : String) : Bool :=
  key ≠ "" && !(isScopeKey key && value = "")

/-- Tags that are split into levels and merged again are those that a level holds. -/
theorem merge_split (tags : Tags) :
    merge (Attribute.ofTags (split tags).resource) (some (split tags).scope)
        (Attribute.ofTags (split tags).attributes) =
      tags.filter isKept := by
  have names := scopeName_apart
  have versions := scopeVersion_apart
  apply Dictionary.ext_find?
  intro key
  rw [Dictionary.find?_filter]
  by_cases noKey : key = ""
  · subst noKey
    rw [find?_merge_empty]
    cases tags.find? "" <;> rfl
  · rw [merge, addScope]
    by_cases isName : key = ReservedName.scopeName
    · subst isName
      cases found : tags.find? ReservedName.scopeName with
      | none => simp [names, found]
      | some value =>
          by_cases noValue : value = "" <;>
            simp [names, found, noValue, isKept, isScopeKey, Option.filter_some]
    · by_cases isVersion : key = ReservedName.scopeVersion
      · subst isVersion
        cases found : tags.find? ReservedName.scopeVersion with
        | none => simp [versions, found]
        | some value =>
            by_cases noValue : value = "" <;>
              simp [versions, found, noValue, isKept, isScopeKey, Option.filter_some]
      · -- a tag that is none of the scope is on one of the two other levels, with its value
        have kept : (tags.find? key).filter (isKept key) = tags.find? key := by
          cases tags.find? key <;>
            simp [isKept, isScopeKey, noKey, isName, isVersion, Option.filter_some]
        rw [kept]
        rcases level_of_key noKey isName isVersion with level | level
        · have notAttribute := isAttributeLevel_eq_false_of_isResourceLevel level
          simp [noKey, isName, isVersion, level, notAttribute]
        · have notResource := isResourceLevel_eq_false_of_isAttributeLevel level
          simp [noKey, isName, isVersion, level, notResource]

/-- The attributes of a dictionary of texts are added in any order. -/
theorem addAttributes_of_perm
    {attributes : List Attribute}
    {texts : Tags}
    (tags : Tags)
    (listed : attributes.Perm (Attribute.ofTags texts)) :
    addAttributes tags attributes = addAttributes tags (Attribute.ofTags texts) := by
  refine listed.foldl_eq' ?_ tags
  intro first firstListed second secondListed tags
  obtain ⟨firstEntry, firstMember, rfl⟩ := List.mem_map.mp (listed.mem_iff.mp firstListed)
  obtain ⟨secondEntry, secondMember, rfl⟩ := List.mem_map.mp (listed.mem_iff.mp secondListed)
  rw [Attribute.toTag?, Attribute.toTag?, Attribute.tagText?_ofText, Attribute.tagText?_ofText,
    Attribute.ofText, Attribute.ofText]
  by_cases sameKey : firstEntry.1 = secondEntry.1
  · -- entries with one key are one entry
    have sameValue : firstEntry.2 = secondEntry.2 := by
      have found := Dictionary.find?_eq_some_iff.mpr firstMember
      rw [sameKey, Dictionary.find?_eq_some_iff.mpr secondMember] at found
      exact (Option.some.inj found).symm
    rw [sameKey, sameValue]
  · by_cases firstUnnamed : firstEntry.1 = ""
    · rw [if_pos firstUnnamed]
    · rw [if_neg firstUnnamed]
      by_cases secondUnnamed : secondEntry.1 = ""
      · rw [if_pos secondUnnamed]
      · rw [if_neg secondUnnamed]
        exact Dictionary.insert_comm tags _ _ sameKey

/-- Splitting tags into levels and merging the levels again drops the tag without a key and
those of the scope without a value, and keeps all others. Levels are found again in their
merged tags if the keys of the resource describe it and those of the attributes are not
empty, describe no resource and name no scope. -/
theorem split_merge_inverse :
    (∀ tags : Tags,
      merge (Attribute.ofTags (split tags).resource) (some (split tags).scope)
          (Attribute.ofTags (split tags).attributes) =
        tags.filter isKept) ∧
    ∀ (resource attributes : Tags) (scope : Scope) (resourceList attributeList : List Attribute),
      resourceList.Perm (Attribute.ofTags resource) ->
      attributeList.Perm (Attribute.ofTags attributes) ->
      (∀ key, resource.contains key -> isResourceKey key) ->
      (∀ key, attributes.contains key ->
        key ≠ "" ∧ isResourceKey key = false ∧ isScopeKey key = false) ->
      split (merge resourceList (some scope) attributeList) = ⟨resource, scope, attributes⟩ := by
  refine ⟨merge_split, ?_⟩
  intro resource attributes scope resourceList attributeList resourceListed attributesListed
    resourceKeys attributeKeys
  have separated : Separated ⟨resource, scope, attributes⟩ := by
    refine ⟨fun key member => isResourceLevel_of_isResourceKey (resourceKeys key member), ?_⟩
    intro key member
    obtain ⟨named, notResource, notScope⟩ := attributeKeys key member
    simp [isAttributeLevel, named, notResource, notScope]
  rw [merge, addAttributes_of_perm _ attributesListed, addAttributes_of_perm _ resourceListed]
  exact split_merge separated

/-- A resource and a point with one attribute each, the attribute of the point without a
value, and a scope without a version. -/
theorem split_merge_inverse_host :
    split
        (merge [.ofText "host.name" "h"] (some ⟨"lib", ""⟩) [.ofText "cpu" ""]) =
      ⟨(∅ : Tags).insert "host.name" "h", ⟨"lib", ""⟩, (∅ : Tags).insert "cpu" ""⟩ := by
  refine split_merge_inverse.2 ((∅ : Tags).insert "host.name" "h")
    ((∅ : Tags).insert "cpu" "") ⟨"lib", ""⟩ _ _ (.refl _) (.refl _) ?_ ?_
  · intro key member
    rw [Dictionary.eq_of_contains_insert_empty member]
    decide
  · intro key member
    rw [Dictionary.eq_of_contains_insert_empty member]
    decide

end TagLevels
end LineMetrics
