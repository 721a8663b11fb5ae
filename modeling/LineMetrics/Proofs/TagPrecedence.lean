import LineMetrics.Proofs.Tags
import Mathlib.Data.List.Basic
import Mathlib.Data.List.Induction

/-!
# The precedence of merged tags

Which value a merged tag has is said key by key. An attribute of the data point goes over
the scope, and the scope over an attribute of the resource. Of several attributes with one
key the last one that has a text counts. An attribute without a text counts nowhere, so it
hides none that stands in front of it.
-/

namespace LineMetrics
namespace TagLevels

/-- The texts of the attributes with a key, in their order. -/
def textsOf (attributes : List Attribute) (key : String) : List String :=
  attributes.filterMap fun entry => if entry.key = key then entry.value.tagText? else none

/-- The text that a scope has for a key: its name or its version, unless it is empty. -/
def scopeText? : Option Scope -> String -> Option String
  | none, _ => none
  | some scope, key =>
      if key = ReservedName.scopeName then Option.guard (· ≠ "") scope.name
      else if key = ReservedName.scopeVersion then Option.guard (· ≠ "") scope.version
      else none

@[simp] theorem textsOf_nil (key : String) : textsOf [] key = [] := rfl

@[simp] theorem textsOf_append (first second : List Attribute) (key : String) :
    textsOf (first ++ second) key = textsOf first key ++ textsOf second key :=
  List.filterMap_append

theorem textsOf_singleton (entry : Attribute) (key : String) :
    textsOf [entry] key = if entry.key = key then entry.value.tagText?.toList else [] := by
  rw [textsOf, List.filterMap_cons, List.filterMap_nil]
  by_cases same : entry.key = key
  · rw [if_pos same, if_pos same]
    cases entry.value.tagText? <;> rfl
  · rw [if_neg same, if_neg same]

theorem textsOf_ne_nil_iff {attributes : List Attribute} {key : String} :
    textsOf attributes key ≠ [] ↔
      ∃ entry ∈ attributes, entry.key = key ∧ entry.value.tagText?.isSome := by
  simp [textsOf, List.filterMap_eq_nil_iff, Option.isSome_iff_ne_none]

/-- Attributes without a text can be left out. -/
theorem textsOf_filter (attributes : List Attribute) (key : String) :
    textsOf (attributes.filter fun entry => entry.value.tagText?.isSome) key =
      textsOf attributes key := by
  rw [textsOf, textsOf, List.filterMap_filter]
  refine List.filterMap_congr fun entry _ => ?_
  cases entry.value.tagText? <;> simp

/-- A tag is found under its key, if it has one. -/
theorem find?_addTag (tags : Tags) (entry : Attribute) (key : String) :
    (addAttributes tags [entry]).find? key =
      if key = "" then tags.find? key
      else (textsOf [entry] key).getLast?.or (tags.find? key) := by
  rw [textsOf_singleton, addAttributes, List.foldl_cons, List.foldl_nil, Attribute.toTag?]
  by_cases unnamed : entry.key = ""
  · rw [if_pos unnamed]
    by_cases noKey : key = ""
    · rw [if_pos noKey]
    · have different : entry.key ≠ key := fun same => noKey (same.symm.trans unnamed)
      rw [if_neg noKey, if_neg different]
      rfl
  · rw [if_neg unnamed]
    cases text : entry.value.tagText? with
    | none => simp
    | some value =>
        rw [Option.map_some]
        dsimp only
        rw [Dictionary.find?_insert]
        by_cases same : key = entry.key
        · rw [if_pos same, if_neg (same ▸ unnamed), if_pos same.symm]
          rfl
        · rw [if_neg same, if_neg (Ne.symm same)]
          exact (ite_self _).symm

/-- Added attributes put the last text of each key over the tags. -/
theorem find?_addAttributes (tags : Tags) (attributes : List Attribute) (key : String) :
    (addAttributes tags attributes).find? key =
      if key = "" then tags.find? key
      else (textsOf attributes key).getLast?.or (tags.find? key) := by
  induction attributes using List.reverseRecOn with
  | nil => exact (ite_self _).symm
  | append_singleton attributes entry inductionHypothesis =>
      have step : addAttributes tags (attributes ++ [entry]) =
          addAttributes (addAttributes tags attributes) [entry] := List.foldl_append
      rw [step, find?_addTag, inductionHypothesis, textsOf_append, List.getLast?_append,
        Option.or_assoc]
      by_cases noKey : key = ""
      · rw [if_pos noKey, if_pos noKey, if_pos noKey]
      · rw [if_neg noKey, if_neg noKey, if_neg noKey]

/-- A scope puts the texts that it has over the tags. -/
theorem find?_addScope (tags : Tags) (scope : Option Scope) (key : String) :
    (addScope tags scope).find? key = (scopeText? scope key).or (tags.find? key) := by
  have different := scopeName_apart.2.1
  cases scope with
  | none => rfl
  | some scope =>
      rw [addScope, find?_addNonempty, find?_addNonempty, scopeText?]
      by_cases isName : key = ReservedName.scopeName
      · by_cases named : scope.name = "" <;> simp [isName, different, named, Option.guard]
      · by_cases isVersion : key = ReservedName.scopeVersion
        · by_cases versioned : scope.version = "" <;>
            simp [isVersion, different.symm, versioned, Option.guard]
        · simp [isName, isVersion]

/-- The keys of a scope are not empty. -/
@[simp] theorem scopeText?_empty (scope : Option Scope) : scopeText? scope "" = none := by
  cases scope <;> rfl

/-- A merged tag has the last text among the attributes of the data point, or else that of
the scope, or else the last text among the attributes of the resource. -/
theorem find?_merge
    (resource : List Attribute)
    (scope : Option Scope)
    (attributes : List Attribute)
    (key : String) :
    (merge resource scope attributes).find? key =
      if key = "" then none
      else ((textsOf attributes key).getLast?.or (scopeText? scope key)).or
        (textsOf resource key).getLast? := by
  rw [merge, find?_addAttributes, find?_addScope, find?_addAttributes, Dictionary.find?_empty]
  by_cases noKey : key = ""
  · rw [if_pos noKey, if_pos noKey, if_pos noKey, noKey, scopeText?_empty]
    rfl
  · rw [if_neg noKey, if_neg noKey, if_neg noKey, Option.or_none, Option.or_assoc]

/-- There is a merged tag for a key exactly if the key is not empty and an attribute of the
resource or of the data point has a text for it, or the scope has one. Its value is the last
text among the attributes of the data point, or else that of the scope, or else the last one
among the attributes of the resource. Attributes without a text change nothing, wherever
they stand. -/
theorem merge_precedence
    (resource : List Attribute)
    (scope : Option Scope)
    (attributes : List Attribute) :
    (∀ key,
      (merge resource scope attributes).contains key ↔
        key ≠ "" ∧
          ((∃ entry ∈ resource ++ attributes,
              entry.key = key ∧ entry.value.tagText?.isSome) ∨
            (scopeText? scope key).isSome)) ∧
      (∀ key,
        (merge resource scope attributes).find? key =
          if key = "" then none
          else ((textsOf attributes key).getLast?.or (scopeText? scope key)).or
            (textsOf resource key).getLast?) ∧
      merge resource scope attributes =
        merge (resource.filter fun entry => entry.value.tagText?.isSome) scope
          (attributes.filter fun entry => entry.value.tagText?.isSome) := by
  refine ⟨fun key => ?_, find?_merge resource scope attributes, ?_⟩
  · rw [Dictionary.contains, find?_merge, <- textsOf_ne_nil_iff, textsOf_append]
    by_cases noKey : key = ""
    · simp [noKey]
    · rw [if_neg noKey, Option.isSome_iff_ne_none, Option.isSome_iff_ne_none]
      simp only [ne_eq, Option.or_eq_none_iff, List.getLast?_eq_none_iff,
        List.append_eq_nil_iff, noKey, not_false_eq_true, true_and]
      grind
  · apply Dictionary.ext_find?
    intro key
    rw [find?_merge, find?_merge, textsOf_filter, textsOf_filter]

/-- Of the attributes of a data point the last one with a text counts, over the scope. -/
example :
    merge [.ofText "host" "a", ⟨"host", .empty⟩] (some ⟨"lib", ""⟩)
        [.ofText "otel.library.name" "x", .ofText "otel.library.name" "y",
          ⟨"otel.library.name", .absent⟩] =
      ((∅ : Tags).insert "host" "a").insert "otel.library.name" "y" := by
  decide +kernel

end TagLevels
end LineMetrics
