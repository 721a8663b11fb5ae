import LineMetrics.Attribute
import LineMetrics.TagLevels

/-!
# Splitting and merging tags

Which level a tag goes to is decided by its key alone, so a level can be read off key
by key. Merged tags whose keys belong to their levels split into the same levels again.
-/

namespace LineMetrics
namespace TagLevels

/-- The key names the scope or its version. -/
def isScopeKey (key : String) : Bool :=
  key = ReservedName.scopeName || key = ReservedName.scopeVersion

/-- Tags with this key describe the resource. -/
def isResourceLevel (key : String) : Bool :=
  key ≠ "" && !isScopeKey key && isResourceKey key

/-- Tags with this key are attributes of the data point. -/
def isAttributeLevel (key : String) : Bool :=
  key ≠ "" && !isScopeKey key && !isResourceKey key

/-- The tags stand on the levels that their keys belong to. -/
structure Separated (levels : TagLevels) : Prop where
  resource : ∀ key, levels.resource.contains key -> isResourceLevel key
  attributes : ∀ key, levels.attributes.contains key -> isAttributeLevel key

/-- A key belongs to one level at most. -/
theorem isResourceLevel_eq_false_of_isAttributeLevel
    {key : String}
    (level : isAttributeLevel key) :
    isResourceLevel key = false := by
  simp only [isAttributeLevel, Bool.and_eq_true, Bool.not_eq_true'] at level
  simp [isResourceLevel, level.2]

theorem isAttributeLevel_eq_false_of_isResourceLevel
    {key : String}
    (level : isResourceLevel key) :
    isAttributeLevel key = false := by
  simp only [isResourceLevel, Bool.and_eq_true] at level
  simp [isAttributeLevel, level.2]

theorem ne_of_isResourceLevel
    {key : String}
    (level : isResourceLevel key) :
    key ≠ "" ∧ key ≠ ReservedName.scopeName ∧ key ≠ ReservedName.scopeVersion := by
  simp only [isResourceLevel, isScopeKey, Bool.and_eq_true, decide_eq_true_eq,
    Bool.not_eq_true', Bool.or_eq_false_iff, decide_eq_false_iff_not] at level
  exact ⟨level.1.1, level.1.2⟩

theorem ne_of_isAttributeLevel
    {key : String}
    (level : isAttributeLevel key) :
    key ≠ "" ∧ key ≠ ReservedName.scopeName ∧ key ≠ ReservedName.scopeVersion := by
  simp only [isAttributeLevel, isScopeKey, Bool.and_eq_true, decide_eq_true_eq,
    Bool.not_eq_true', Bool.or_eq_false_iff, decide_eq_false_iff_not] at level
  exact ⟨level.1.1, level.1.2⟩

/-- The key of the name of the scope is on no other level. -/
theorem scopeName_apart :
    ReservedName.scopeName ≠ "" ∧ ReservedName.scopeName ≠ ReservedName.scopeVersion ∧
      isResourceLevel ReservedName.scopeName = false ∧
      isAttributeLevel ReservedName.scopeName = false := by decide

/-- The key of the version of the scope is on no other level. -/
theorem scopeVersion_apart :
    ReservedName.scopeVersion ≠ "" ∧ ReservedName.scopeVersion ≠ ReservedName.scopeName ∧
      isResourceLevel ReservedName.scopeVersion = false ∧
      isAttributeLevel ReservedName.scopeVersion = false := by decide

/-- A tag without a key is dropped, and any other one goes to the level of its key. -/
theorem add_cases (levels : TagLevels) (key value : String) :
    key = "" ∧ levels.add key value = levels ∨
      key = ReservedName.scopeName ∧
        levels.add key value = { levels with scope := { levels.scope with name := value } } ∨
      key = ReservedName.scopeVersion ∧
        levels.add key value =
          { levels with scope := { levels.scope with version := value } } ∨
      isResourceLevel key ∧
        levels.add key value =
          { levels with resource := levels.resource.insert key value } ∨
      isAttributeLevel key ∧
        levels.add key value =
          { levels with attributes := levels.attributes.insert key value } := by
  unfold add
  by_cases noKey : key = ""
  · exact .inl ⟨noKey, if_pos noKey⟩
  · rw [if_neg noKey]
    by_cases isName : key = ReservedName.scopeName
    · exact .inr (.inl ⟨isName, if_pos isName⟩)
    · rw [if_neg isName]
      by_cases isVersion : key = ReservedName.scopeVersion
      · exact .inr (.inr (.inl ⟨isVersion, if_pos isVersion⟩))
      · rw [if_neg isVersion]
        cases isResource : isResourceKey key with
        | true =>
            refine .inr (.inr (.inr (.inl ⟨?_, rfl⟩)))
            simp [isResourceLevel, isScopeKey, noKey, isName, isVersion, isResource]
        | false =>
            refine .inr (.inr (.inr (.inr ⟨?_, rfl⟩)))
            simp [isAttributeLevel, isScopeKey, noKey, isName, isVersion, isResource]

/-- A tag is found on the resource level if its key belongs there. -/
theorem find?_resource_add (levels : TagLevels) (key other value : String) :
    (levels.add other value).resource.find? key =
      if key = other ∧ isResourceLevel key then some value
      else levels.resource.find? key := by
  have noLevel : isResourceLevel "" = false := rfl
  by_cases same : key = other
  · subst same
    rcases add_cases levels key value with
      ⟨rfl, added⟩ | ⟨rfl, added⟩ | ⟨rfl, added⟩ | ⟨level, added⟩ | ⟨level, added⟩
    · simp [added, noLevel]
    · simp [added, scopeName_apart]
    · simp [added, scopeVersion_apart]
    · simp [added, level]
    · simp [added, isResourceLevel_eq_false_of_isAttributeLevel level]
  · rw [if_neg fun both => same both.1]
    rcases add_cases levels other value with
      ⟨-, added⟩ | ⟨-, added⟩ | ⟨-, added⟩ | ⟨-, added⟩ | ⟨-, added⟩ <;>
      simp [added, same]

/-- A tag is found among the attributes if its key belongs there. -/
theorem find?_attributes_add (levels : TagLevels) (key other value : String) :
    (levels.add other value).attributes.find? key =
      if key = other ∧ isAttributeLevel key then some value
      else levels.attributes.find? key := by
  have noLevel : isAttributeLevel "" = false := rfl
  by_cases same : key = other
  · subst same
    rcases add_cases levels key value with
      ⟨rfl, added⟩ | ⟨rfl, added⟩ | ⟨rfl, added⟩ | ⟨level, added⟩ | ⟨level, added⟩
    · simp [added, noLevel]
    · simp [added, scopeName_apart]
    · simp [added, scopeVersion_apart]
    · simp [added, isAttributeLevel_eq_false_of_isResourceLevel level]
    · simp [added, level]
  · rw [if_neg fun both => same both.1]
    rcases add_cases levels other value with
      ⟨-, added⟩ | ⟨-, added⟩ | ⟨-, added⟩ | ⟨-, added⟩ | ⟨-, added⟩ <;>
      simp [added, same]

/-- The tag with the name of the scope sets it, and no other tag does. -/
theorem scope_name_add (levels : TagLevels) (key value : String) :
    (levels.add key value).scope.name =
      if ReservedName.scopeName = key then value else levels.scope.name := by
  have others := scopeName_apart
  rcases add_cases levels key value with
    ⟨rfl, added⟩ | ⟨rfl, added⟩ | ⟨rfl, added⟩ | ⟨level, added⟩ | ⟨level, added⟩
  · simp [added, others]
  · simp [added]
  · simp [added, others]
  · rw [added, if_neg]
    rintro rfl
    simp [others] at level
  · rw [added, if_neg]
    rintro rfl
    simp [others] at level

/-- The tag with the version of the scope sets it, and no other tag does. -/
theorem scope_version_add (levels : TagLevels) (key value : String) :
    (levels.add key value).scope.version =
      if ReservedName.scopeVersion = key then value else levels.scope.version := by
  have others := scopeVersion_apart
  rcases add_cases levels key value with
    ⟨rfl, added⟩ | ⟨rfl, added⟩ | ⟨rfl, added⟩ | ⟨level, added⟩ | ⟨level, added⟩
  · simp [added, others]
  · simp [added, others]
  · simp [added]
  · rw [added, if_neg]
    rintro rfl
    simp [others] at level
  · rw [added, if_neg]
    rintro rfl
    simp [others] at level

/-- What is read off levels, if a tag changes it exactly when it has a certain key and
that key counts, is read off the tag with that key. -/
theorem view_split
    (view : TagLevels -> α)
    (read : String -> α)
    (key : String)
    (counts : Bool)
    (view_add : ∀ levels other value,
      view (levels.add other value) =
        if key = other ∧ counts then read value else view levels)
    (tags : Tags) :
    view (split tags) =
      if counts then ((tags.find? key).map read).getD (view {}) else view {} := by
  obtain ⟨entries, ascending⟩ := tags
  unfold split Dictionary.find?
  dsimp only
  generalize ({} : TagLevels) = levels
  induction entries generalizing levels with
  | nil => rw [List.foldl_nil, List.lookup_nil, Option.map_none, Option.getD_none, ite_self]
  | cons first rest inductionHypothesis =>
      rw [List.foldl_cons, inductionHypothesis (List.pairwise_cons.mp ascending).2, view_add,
        Dictionary.lookup_cons_entry]
      by_cases same : key = first.1
      · -- keys ascend, so no later tag has this key
        rw [same, Dictionary.lookup_eq_none_of_ascending ascending]
        cases counts <;> simp
      · simp [same]

/-- The resource has the tags whose keys belong there. -/
@[simp] theorem find?_resource_split (tags : Tags) (key : String) :
    (split tags).resource.find? key =
      if isResourceLevel key then tags.find? key else none := by
  have viewed := view_split (fun levels => levels.resource.find? key) some key
    (isResourceLevel key) (fun levels => find?_resource_add levels key) tags
  rw [viewed]
  cases tags.find? key <;> rfl

/-- The attributes are the tags whose keys belong there. -/
@[simp] theorem find?_attributes_split (tags : Tags) (key : String) :
    (split tags).attributes.find? key =
      if isAttributeLevel key then tags.find? key else none := by
  have viewed := view_split (fun levels => levels.attributes.find? key) some key
    (isAttributeLevel key) (fun levels => find?_attributes_add levels key) tags
  rw [viewed]
  cases tags.find? key <;> rfl

/-- The name of the scope is the value of its tag, or empty. -/
@[simp] theorem scope_name_split (tags : Tags) :
    (split tags).scope.name = (tags.find? ReservedName.scopeName).getD "" := by
  have viewed := view_split (fun levels => levels.scope.name) id ReservedName.scopeName true
    (fun levels other value => by simp [scope_name_add]) tags
  rw [viewed, Option.map_id]
  rfl

/-- The version of the scope is the value of its tag, or empty. -/
@[simp] theorem scope_version_split (tags : Tags) :
    (split tags).scope.version = (tags.find? ReservedName.scopeVersion).getD "" := by
  have viewed := view_split (fun levels => levels.scope.version) id ReservedName.scopeVersion
    true (fun levels other value => by simp [scope_version_add]) tags
  rw [viewed, Option.map_id]
  rfl

/-- Tags are split by their keys. -/
theorem separated_split (tags : Tags) : (split tags).Separated := by
  constructor
  · intro key
    rw [Dictionary.contains, find?_resource_split]
    cases isResourceLevel key <;> simp
  · intro key
    rw [Dictionary.contains, find?_attributes_split]
    cases isAttributeLevel key <;> simp

/-- Adding texts as attributes puts those with keys over the tags. -/
@[simp] theorem find?_addAttributes_ofTags (tags texts : Tags) (key : String) :
    (addAttributes tags (Attribute.ofTags texts)).find? key =
      if key = "" then tags.find? key else (texts.find? key).or (tags.find? key) := by
  obtain ⟨entries, ascending⟩ := texts
  unfold addAttributes Attribute.ofTags
  rw [List.foldl_map]
  unfold Dictionary.find?
  dsimp only [Attribute.toTag?, Attribute.ofText, AttributeValue.tagText?, Option.map_some]
  change (List.foldl _ tags entries).find? key = if key = "" then tags.find? key else
    (entries.lookup key).or (tags.find? key)
  induction entries generalizing tags with
  | nil => simp
  | cons first rest inductionHypothesis =>
      rw [List.foldl_cons, inductionHypothesis _ (List.pairwise_cons.mp ascending).2,
        Dictionary.lookup_cons_entry]
      by_cases same : key = first.1
      · rw [same, Dictionary.lookup_eq_none_of_ascending ascending]
        by_cases noKey : first.1 = "" <;> simp [noKey]
      · by_cases noKey : first.1 = ""
        · rw [noKey] at same
          simp [noKey, same]
        · simp [noKey, same]

/-- A tag with a value is put over the others. -/
@[simp] theorem find?_addNonempty (tags : Tags) (key other value : String) :
    (addNonempty tags key value).find? other =
      if other = key ∧ value ≠ "" then some value else tags.find? other := by
  unfold addNonempty
  by_cases noValue : value = ""
  · simp [noValue]
  · simp [noValue]

theorem eq_of_parts
    {left right : TagLevels}
    (resource : left.resource = right.resource)
    (name : left.scope.name = right.scope.name)
    (version : left.scope.version = right.scope.version)
    (attributes : left.attributes = right.attributes) :
    left = right := by
  obtain ⟨leftResource, ⟨leftName, leftVersion⟩, leftAttributes⟩ := left
  obtain ⟨rightResource, ⟨rightName, rightVersion⟩, rightAttributes⟩ := right
  cases resource
  cases name
  cases version
  cases attributes
  rfl

/-- Levels whose tags stand where their keys belong are found again in their merged
tags. -/
theorem split_merge
    {levels : TagLevels}
    (separated : levels.Separated) :
    split
        (merge (Attribute.ofTags levels.resource) (some levels.scope)
          (Attribute.ofTags levels.attributes)) =
      levels := by
  have noResource (key : String) (level : isResourceLevel key = false) :
      levels.resource.find? key = none := by
    have notThere := mt (separated.resource key)
    simpa [Dictionary.contains, level] using notThere
  have noAttribute (key : String) (level : isAttributeLevel key = false) :
      levels.attributes.find? key = none := by
    have notThere := mt (separated.attributes key)
    simpa [Dictionary.contains, level] using notThere
  have names := scopeName_apart
  have versions := scopeVersion_apart
  rw [merge, addScope]
  refine eq_of_parts ?_ ?_ ?_ ?_
  · apply Dictionary.ext_find?
    intro key
    cases level : isResourceLevel key with
    | true =>
        have apart := ne_of_isResourceLevel level
        simp [level, apart, noAttribute key (isAttributeLevel_eq_false_of_isResourceLevel level)]
    | false => simp [level, noResource key level]
  · by_cases named : levels.scope.name = "" <;>
      simp [named, names, noAttribute _ names.2.2.2, noResource _ names.2.2.1]
  · by_cases versioned : levels.scope.version = "" <;>
      simp [versioned, versions, noAttribute _ versions.2.2.2, noResource _ versions.2.2.1]
  · apply Dictionary.ext_find?
    intro key
    cases level : isAttributeLevel key with
    | true =>
        have apart := ne_of_isAttributeLevel level
        simp [level, apart, noResource key (isResourceLevel_eq_false_of_isAttributeLevel level)]
    | false => simp [level, noAttribute key level]

/-- A tag whose key belongs to the attributes is added to them. -/
theorem split_insert_attribute
    {key : String}
    (tags : Tags)
    (value : String)
    (level : isAttributeLevel key) :
    split (tags.insert key value) =
      { split tags with attributes := (split tags).attributes.insert key value } := by
  have apart := ne_of_isAttributeLevel level
  have notResource := isResourceLevel_eq_false_of_isAttributeLevel level
  refine eq_of_parts ?_ ?_ ?_ ?_
  · apply Dictionary.ext_find?
    intro other
    by_cases same : other = key <;> simp [same, notResource]
  · simp [Ne.symm apart.2.1]
  · simp [Ne.symm apart.2.2]
  · apply Dictionary.ext_find?
    intro other
    by_cases same : other = key <;> simp [same, level]

end TagLevels
end LineMetrics
