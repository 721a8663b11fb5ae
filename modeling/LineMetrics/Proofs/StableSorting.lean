import LineMetrics.Sorting
import Mathlib.Data.List.Forall2
import Mathlib.Data.List.Nodup

/-!
# Stable sorting by keys

Sorting by keys rearranges elements so that their keys ascend, and leaves elements with
one key in their order. So a list in order depends on nothing but the elements if their
keys are distinct, and otherwise still tells in which order those with one key came.
-/

namespace LineMetrics
namespace Sorting

variable {α β κ : Type*}

/-- A comparison that puts any two different elements in exactly one order. -/
structure IsLinear (mayPrecede : κ -> κ -> Bool) : Prop where
  transitive : ∀ first second third,
    mayPrecede first second -> mayPrecede second third -> mayPrecede first third
  total : ∀ first second, mayPrecede first second || mayPrecede second first
  antisymmetric : ∀ first second,
    mayPrecede first second -> mayPrecede second first -> first = second

theorem IsLinear.reflexive {mayPrecede : κ -> κ -> Bool} (linear : IsLinear mayPrecede)
    (element : κ) : mayPrecede element element = true := by
  have either := linear.total element element
  rwa [Bool.or_self] at either

section Related

variable {related : α -> β -> Prop} {leftMayPrecede : α -> α -> Bool}
  {rightMayPrecede : β -> β -> Bool}

/-- Related elements that compare alike are placed alike. -/
theorem forall₂_place
    {element : α}
    {other : β}
    {elements : List α}
    {others : List β}
    (same : ∀ first second third fourth, related first second -> related third fourth ->
      leftMayPrecede first third = rightMayPrecede second fourth)
    (here : related element other)
    (correspond : List.Forall₂ related elements others) :
    List.Forall₂ related (place leftMayPrecede element elements)
      (place rightMayPrecede other others) := by
  induction correspond with
  | nil => exact .cons here .nil
  | cons first behind inductionHypothesis =>
      rw [place, place, same _ _ _ _ here first]
      split
      · exact .cons here (.cons first behind)
      · exact .cons first inductionHypothesis

/-- Related elements that compare alike are sorted alike. -/
theorem forall₂_sort
    {elements : List α}
    {others : List β}
    (same : ∀ first second third fourth, related first second -> related third fourth ->
      leftMayPrecede first third = rightMayPrecede second fourth)
    (correspond : List.Forall₂ related elements others) :
    List.Forall₂ related (sort leftMayPrecede elements) (sort rightMayPrecede others) := by
  induction correspond with
  | nil => exact .nil
  | cons here behind inductionHypothesis => exact forall₂_place same here inductionHypothesis

end Related

/-- To sort elements by keys is to sort them by the comparison of their keys. -/
theorem sortOn_eq_sort (mayPrecede : κ -> κ -> Bool) (key : α -> κ) (elements : List α) :
    sortOn mayPrecede key elements =
      sort (fun left right => mayPrecede (key left) (key right)) elements := by
  have keyed : List.Forall₂ (fun keyed element => keyed = (key element, element))
      (elements.map fun element => (key element, element)) elements :=
    List.forall₂_map_left_iff.mpr (List.forall₂_same.mpr fun _ _ => rfl)
  have same : ∀ (first : κ × α) (second : α) (third : κ × α) (fourth : α),
      first = (key second, second) -> third = (key fourth, fourth) ->
        mayPrecede first.1 third.1 = mayPrecede (key second) (key fourth) :=
    fun first second third fourth here there => by rw [here, there]
  have sorted := forall₂_sort same keyed
  rw [sortOn, <- List.forall₂_eq_eq_eq, List.forall₂_map_left_iff]
  exact sorted.imp fun keyed element same => congrArg Prod.snd same

variable {mayPrecede : κ -> κ -> Bool} {key : α -> κ}

theorem sortOn_perm (mayPrecede : κ -> κ -> Bool) (key : α -> κ) (elements : List α) :
    (sortOn mayPrecede key elements).Perm elements := by
  rw [sortOn_eq_sort]
  exact sort_perm _ elements

/-- Sorted elements have ascending keys. -/
theorem pairwise_sortOn (linear : IsLinear mayPrecede) (key : α -> κ) (elements : List α) :
    (sortOn mayPrecede key elements).Pairwise fun left right =>
      mayPrecede (key left) (key right) := by
  rw [sortOn_eq_sort]
  exact pairwise_sort
    (fun first second third => linear.transitive (key first) (key second) (key third))
    (fun first second => linear.total (key first) (key second)) elements

/-- Elements with ascending keys stay as they are. -/
theorem sortOn_of_pairwise
    {elements : List α}
    (ascending : elements.Pairwise fun left right => mayPrecede (key left) (key right)) :
    sortOn mayPrecede key elements = elements := by
  rw [sortOn_eq_sort, sort_of_pairwise ascending]

/-- Rearranged elements with distinct keys are the same when sorted. -/
theorem sortOn_eq_of_perm
    {elements others : List α}
    (linear : IsLinear mayPrecede)
    (perm : elements.Perm others)
    (distinct : (elements.map key).Nodup) :
    sortOn mayPrecede key elements = sortOn mayPrecede key others := by
  refine List.Perm.eq_of_pairwise ?_ (pairwise_sortOn linear key elements)
    (pairwise_sortOn linear key others) ?_
  · intro first second firstMember secondMember below above
    rw [(sortOn_perm mayPrecede key _).mem_iff] at firstMember secondMember
    exact List.inj_on_of_nodup_map distinct firstMember (perm.mem_iff.mpr secondMember)
      (linear.antisymmetric _ _ below above)
  · exact (sortOn_perm mayPrecede key elements).trans
      (perm.trans (sortOn_perm mayPrecede key others).symm)

/-- Related elements with the same keys are sorted alike. -/
theorem forall₂_sortOn
    {related : α -> β -> Prop}
    {otherKey : β -> κ}
    {elements : List α}
    {others : List β}
    (mayPrecede : κ -> κ -> Bool)
    (sameKey : ∀ element other, related element other -> key element = otherKey other)
    (correspond : List.Forall₂ related elements others) :
    List.Forall₂ related (sortOn mayPrecede key elements)
      (sortOn mayPrecede otherKey others) := by
  rw [sortOn_eq_sort, sortOn_eq_sort]
  refine forall₂_sort (fun first second third fourth here there => ?_) correspond
  rw [sameKey first second here, sameKey third fourth there]

/-- What has the keys of elements is sorted with them. -/
theorem map_sortOn
    (mayPrecede : κ -> κ -> Bool)
    (key : β -> κ)
    (view : α -> β)
    (elements : List α) :
    (sortOn mayPrecede (fun element => key (view element)) elements).map view =
      sortOn mayPrecede key (elements.map view) := by
  rw [<- List.forall₂_eq_eq_eq, List.forall₂_map_left_iff]
  refine forall₂_sortOn mayPrecede (fun element other same => congrArg key same) ?_
  exact List.forall₂_map_right_iff.mpr (List.forall₂_same.mpr fun _ _ => rfl)

variable [DecidableEq κ]

/-- An element is placed in front of all others with its key, since it goes behind
another one only if their keys differ. -/
theorem filter_place
    (linear : IsLinear mayPrecede)
    (key : α -> κ)
    (group : κ)
    (element : α)
    (elements : List α) :
    ((place (fun left right => mayPrecede (key left) (key right)) element elements).filter
        fun other => key other = group) =
      (element :: elements).filter fun other => key other = group := by
  induction elements with
  | nil => rfl
  | cons first rest inductionHypothesis =>
      rw [place]
      split
      · rfl
      · rename_i follows
        have different : key first ≠ key element := by
          intro same
          rw [same] at follows
          exact follows (linear.reflexive _)
        rw [List.filter_cons, inductionHypothesis, List.filter_cons, List.filter_cons,
          List.filter_cons]
        by_cases inGroup : key element = group
        · have notFirst : key first ≠ group := fun same =>
            different (same.trans inGroup.symm)
          simp only [inGroup, notFirst, decide_true, decide_false, if_true,
            Bool.false_eq_true, if_false]
        · simp only [inGroup, decide_false, Bool.false_eq_true, if_false]

/-- Elements with one key stay in their order. -/
theorem filter_sortOn
    (linear : IsLinear mayPrecede)
    (key : α -> κ)
    (group : κ)
    (elements : List α) :
    ((sortOn mayPrecede key elements).filter fun element => key element = group) =
      elements.filter fun element => key element = group := by
  rw [sortOn_eq_sort]
  induction elements with
  | nil => rfl
  | cons element elements inductionHypothesis =>
      rw [sort, filter_place linear, List.filter_cons, List.filter_cons, inductionHypothesis]

/-- The elements in ascending order, those with one key in the order in which they were. -/
structure IsStableSort
    (mayPrecede : κ -> κ -> Bool)
    (key : α -> κ)
    (elements sorted : List α) : Prop where
  perm : sorted.Perm elements
  ascending : sorted.Pairwise fun left right => mayPrecede (key left) (key right)
  stable : ∀ group,
    (sorted.filter fun element => key element = group) =
      elements.filter fun element => key element = group

/-- A stable sort is one of itself. -/
theorem IsStableSort.self
    {elements sorted : List α}
    (isSort : IsStableSort mayPrecede key elements sorted) :
    IsStableSort mayPrecede key sorted sorted :=
  ⟨.refl _, isSort.ascending, fun _ => rfl⟩

/-- Lists with the same elements under each key have the same elements. -/
theorem mem_iff_of_filter_eq
    {first second : List α}
    (same : ∀ group,
      (first.filter fun element => key element = group) =
        second.filter fun element => key element = group)
    (element : α) :
    element ∈ first ↔ element ∈ second := by
  have inGroup (elements : List α) :
      element ∈ elements ↔ element ∈ elements.filter fun other => key other = key element := by
    rw [List.mem_filter, and_iff_left (decide_eq_true rfl)]
  rw [inGroup first, inGroup second, same]

/-- Lists in ascending order are equal if they have the same elements under each key, in the
same order. -/
theorem eq_of_filter_eq
    {first second : List α}
    (linear : IsLinear mayPrecede)
    (firstAscending : first.Pairwise fun left right => mayPrecede (key left) (key right))
    (secondAscending : second.Pairwise fun left right => mayPrecede (key left) (key right))
    (same : ∀ group,
      (first.filter fun element => key element = group) =
        second.filter fun element => key element = group) :
    first = second := by
  induction first generalizing second with
  | nil =>
      refine (List.eq_nil_iff_forall_not_mem.mpr fun element member => ?_).symm
      exact List.not_mem_nil ((mem_iff_of_filter_eq same element).mpr member)
  | cons element elements inductionHypothesis =>
      have inSecond := (mem_iff_of_filter_eq same element).mp List.mem_cons_self
      obtain _ | ⟨other, others⟩ := second
      · exact absurd inSecond List.not_mem_nil
      · have inFirst := (mem_iff_of_filter_eq same other).mpr List.mem_cons_self
        obtain ⟨elementPrecedes, elementsAscending⟩ := List.pairwise_cons.mp firstAscending
        obtain ⟨otherPrecedes, othersAscending⟩ := List.pairwise_cons.mp secondAscending
        -- each of the two first elements is in both lists, so neither key is below the other
        have below : mayPrecede (key element) (key other) = true := by
          rcases List.mem_cons.mp inFirst with rfl | behind
          · exact linear.reflexive _
          · exact elementPrecedes other behind
        have above : mayPrecede (key other) (key element) = true := by
          rcases List.mem_cons.mp inSecond with rfl | behind
          · exact linear.reflexive _
          · exact otherPrecedes element behind
        have sameKey : key other = key element := linear.antisymmetric _ _ above below
        obtain rfl : element = other := by
          have heads := same (key element)
          simp only [List.filter_cons, sameKey, decide_true, if_true] at heads
          exact (List.cons.inj heads).1
        refine congrArg (element :: ·) ?_
        refine inductionHypothesis elementsAscending othersAscending fun group => ?_
        have both := same group
        rw [List.filter_cons, List.filter_cons] at both
        split at both
        · exact (List.cons.inj both).2
        · exact both

/-- There is exactly one stable sort of a list. -/
theorem isStableSort_iff (linear : IsLinear mayPrecede) {elements sorted : List α} :
    IsStableSort mayPrecede key elements sorted ↔ sorted = sortOn mayPrecede key elements := by
  constructor
  · intro isSort
    refine eq_of_filter_eq linear isSort.ascending (pairwise_sortOn linear key elements) ?_
    intro group
    rw [isSort.stable, filter_sortOn linear]
  · rintro rfl
    exact ⟨sortOn_perm mayPrecede key elements, pairwise_sortOn linear key elements,
      fun group => filter_sortOn linear key group elements⟩

/-- Each element that can be brought in front of all others with its key, without a change
of the sorted list, is the only one with its key. -/
theorem eq_of_brought_forward
    (key : α -> κ)
    {elements : List α}
    (linear : IsLinear mayPrecede)
    (forward : ∀ element ∈ elements, ∃ others,
      sortOn mayPrecede key others = sortOn mayPrecede key elements ∧
        (others.filter fun other => key other = key element).head? = some element)
    {first second : α}
    (firstMember : first ∈ elements)
    (secondMember : second ∈ elements)
    (same : key first = key second) :
    first = second := by
  have head : ∀ element ∈ elements,
      (elements.filter fun other => key other = key element).head? = some element := by
    intro element member
    obtain ⟨others, unchanged, isFirst⟩ := forward element member
    rw [<- filter_sortOn linear, <- unchanged, filter_sortOn linear, isFirst]
  have heads := head first firstMember
  rw [same, head second secondMember] at heads
  exact (Option.some.inj heads).symm

end Sorting
end LineMetrics
