import LineMetrics.Proofs.Regrouping
import LineMetrics.Proofs.TagRoundTrip
import LineMetrics.Records
import Mathlib.Data.List.Perm.Basic

/-!
# The numbers of a tree and their tags

Grouping observations only moves them, so the numbers of a tree are those of its
observations. Splitting tags into levels and merging them again keeps every tag that has
a key and a value.
-/

namespace LineMetrics

/-- Elements sorted into classes with distinct names are moved and nothing else. -/
theorem perm_flatMap_filter
    {α κ : Type}
    [DecidableEq κ]
    {key : α -> κ}
    {names : List κ}
    {elements : List α}
    (distinct : names.Nodup)
    (named : ∀ element ∈ elements, key element ∈ names) :
    (names.flatMap fun name => elements.filter fun element => key element = name).Perm
      elements := by
  induction names generalizing elements with
  | nil =>
      cases elements with
      | nil => exact .nil
      | cons first rest => exact absurd (named first List.mem_cons_self) List.not_mem_nil
  | cons name names inductionHypothesis =>
      obtain ⟨nameApart, namesDistinct⟩ := List.nodup_cons.mp distinct
      -- the elements of other classes are not affected by taking out those of this one
      have others :
          (names.flatMap fun other => elements.filter fun element => key element = other) =
            names.flatMap fun other =>
              (elements.filter fun element => !decide (key element = name)).filter
                fun element => key element = other := by
        apply List.flatMap_congr
        intro other member
        rw [List.filter_filter]
        apply List.filter_congr
        intro element _
        by_cases same : key element = other
        · have different : key element ≠ name := fun isName =>
            nameApart (isName ▸ same ▸ member)
          simp [same, same ▸ different]
        · simp [same]
      have namedBehind : ∀ element ∈ elements.filter fun element => !decide (key element = name),
          key element ∈ names := by
        intro element member
        obtain ⟨inElements, different⟩ := List.mem_filter.mp member
        have isOther : key element ≠ name := by simpa using different
        exact List.mem_of_ne_of_mem isOther (named element inElements)
      rw [List.flatMap_cons, others]
      exact ((inductionHypothesis namesDistinct namedBehind).append_left _).trans
        (List.filter_append_perm _ _)

/-- The elements of groups are those that were grouped. -/
theorem perm_flatMap_groups
    {α κ : Type}
    [DecidableEq κ]
    (key : α -> κ)
    (elements : List α) :
    ((groups key elements).flatMap Prod.snd).Perm elements := by
  rw [groups, List.flatMap_map]
  exact perm_flatMap_filter (nodup_eraseDups _) fun element member =>
    List.mem_eraseDups.mpr (List.mem_map_of_mem member)

namespace Grouping

/-- The observations of the metrics of a tree are those that were grouped. -/
theorem perm_metricGroups (observations : List Observation) :
    ((metricGroups observations).flatMap MetricGroup.members).Perm observations := by
  rw [flatMap_rewrite]
  refine (List.Perm.flatMap_left _ fun resource _ => ?_).trans
    (perm_flatMap_groups Observation.resource observations)
  rw [rewriteResource]
  exact (List.Perm.flatMap_left _ fun scope _ =>
    perm_flatMap_groups Observation.metric scope.2).trans
      (perm_flatMap_groups Observation.scope resource.2)

/-- The numbers of data are those of their readings. -/
theorem numbers_dataOf
    {kind : MetricKind}
    {readings : List Reading}
    (sameKind : ∀ reading ∈ readings, reading.kind = kind) :
    (dataOf kind readings).numbers = readings.filterMap Reading.number? := by
  have noNumbers (none : ∀ reading ∈ readings, reading.number? = none) :
      [] = readings.filterMap Reading.number? := (List.filterMap_eq_nil_iff.mpr none).symm
  cases kind with
  | gauge => rfl
  | sum temporality => rfl
  | whole distribution =>
      have none (reading : Reading) (member : reading ∈ readings) : reading.number? = none := by
        have isWhole := sameKind reading member
        cases reading <;> first | rfl | cases isWhole
      cases distribution <;> exact noNumbers none
  | assembled =>
      have none (reading : Reading) (member : reading ∈ readings) : reading.number? = none := by
        have isSlice := sameKind reading member
        cases reading <;> first | rfl | cases isSlice
      rw [<- noNumbers none, dataOf, assembledData]
      split <;> rfl

/-- The record of an observation with a number. -/
def record? (observation : Observation) : Option NumberRecord :=
  observation.reading.number?.map
    (NumberPoint.record (.of observation.resource observation.scope))

/-- The records of the numbers in a tree are those of its observations. -/
theorem perm_numberRecords_tree
    {observations : List Observation}
    (consistent : Consistent observations) :
    (tree observations).numberRecords.Perm (observations.filterMap record?) := by
  have each (group : MetricGroup) (member : group ∈ metricGroups observations) :
      (group.metric.data.elim [] MetricData.numbers).map
          (NumberPoint.record group.placement) =
        group.members.filterMap record? := by
    obtain ⟨kind, sameKind, data⟩ := exists_kind_of_mem_metricGroups consistent member
    rw [data, Option.elim_some, numbers_dataOf (List.forall_mem_map.mpr sameKind),
      List.filterMap_map, List.map_filterMap]
    apply List.filterMap_congr
    intro observation inGroup
    obtain ⟨sameResource, sameScope, -⟩ :=
      ofMetric_of_mem_metricGroups member observation inGroup
    rw [record?, sameResource, sameScope]
    rfl
  have byMetric :
      (tree observations).numberRecords =
        ((metricGroups observations).flatMap MetricGroup.members).filterMap record? := by
    rw [MetricTree.numberRecords, placedMetrics_tree, consistent.accepted_eq,
      List.flatMap_map, List.filterMap_flatMap]
    exact List.flatMap_congr each
  rw [byMetric]
  exact (perm_metricGroups observations).filterMap record?

end Grouping

/-- A tag with a value is found among those with values. -/
@[simp] theorem find?_nonemptyTags (tags : Tags) (key : String) :
    (nonemptyTags tags).find? key = (tags.find? key).filter fun value => value ≠ "" :=
  Dictionary.find?_filter _ tags key

namespace TagLevels

/-- Tags that are split into levels and merged again are the same as far as they have keys
and values. -/
theorem nonemptyTags_merge_split
    {tags : Tags}
    (keyed : tags.find? "" = none) :
    nonemptyTags
        (merge (Attribute.ofTags (split tags).resource) (some (split tags).scope)
          (Attribute.ofTags (split tags).attributes)) =
      nonemptyTags tags := by
  rw [merge_split]
  apply Dictionary.ext_find?
  intro key
  rw [find?_nonemptyTags, find?_nonemptyTags, Dictionary.find?_filter]
  by_cases noKey : key = ""
  · rw [noKey, keyed]
    rfl
  · cases tags.find? key with
    | none => rfl
    | some value =>
        by_cases noValue : value = "" <;>
          simp [isKept, noKey, noValue, Option.filter_some]

end TagLevels
end LineMetrics
