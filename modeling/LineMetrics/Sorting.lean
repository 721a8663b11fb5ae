/-!
# Stable sorting

Sorting by insertion: the first element goes in front of the first sorted element
that it may precede, so elements that may precede each other keep their order.
-/

namespace LineMetrics
namespace Sorting

/-- Put an element in front of the first one that it may precede. -/
def place (mayPrecede : α -> α -> Bool) (element : α) : List α -> List α
  | [] => [element]
  | first :: rest =>
      if mayPrecede element first then element :: first :: rest
      else first :: place mayPrecede element rest

/-- The elements in ascending order, where equal ones keep their order. -/
def sort (mayPrecede : α -> α -> Bool) : List α -> List α
  | [] => []
  | first :: rest => place mayPrecede first (sort mayPrecede rest)

/-- The elements in the ascending order of their keys, each key taken once. -/
def sortOn (mayPrecede : κ -> κ -> Bool) (key : α -> κ) (elements : List α) : List α :=
  (sort (fun left right => mayPrecede left.1 right.1)
    (elements.map fun element => (key element, element))).map Prod.snd

/-- Each element may precede the one right behind it. -/
def neighborsInOrder (mayPrecede : α -> α -> Bool) : List α -> Bool
  | first :: second :: rest =>
      mayPrecede first second && neighborsInOrder mayPrecede (second :: rest)
  | _ => true

theorem place_perm (mayPrecede : α -> α -> Bool) (element : α) (elements : List α) :
    (place mayPrecede element elements).Perm (element :: elements) := by
  induction elements with
  | nil => exact .refl _
  | cons first rest inductionHypothesis =>
      simp only [place]
      split
      · exact .refl _
      · exact (inductionHypothesis.cons first).trans (.swap element first rest)

/-- Sorting only rearranges. -/
theorem sort_perm (mayPrecede : α -> α -> Bool) (elements : List α) :
    (sort mayPrecede elements).Perm elements := by
  induction elements with
  | nil => exact .refl _
  | cons first rest inductionHypothesis =>
      exact (place_perm mayPrecede first _).trans (inductionHypothesis.cons first)

@[simp] theorem length_sort (mayPrecede : α -> α -> Bool) (elements : List α) :
    (sort mayPrecede elements).length = elements.length :=
  (sort_perm mayPrecede elements).length_eq

/-- The result is in order, if the comparison is transitive and total. -/
theorem pairwise_sort
    {mayPrecede : α -> α -> Bool}
    (transitive : ∀ first second third,
      mayPrecede first second -> mayPrecede second third -> mayPrecede first third)
    (total : ∀ first second, mayPrecede first second || mayPrecede second first)
    (elements : List α) :
    (sort mayPrecede elements).Pairwise fun left right => mayPrecede left right := by
  induction elements with
  | nil => exact .nil
  | cons element rest inductionHypothesis =>
      simp only [sort]
      generalize sort mayPrecede rest = sorted at inductionHypothesis
      induction sorted with
      | nil => simp [place]
      | cons first others placeHypothesis =>
          have ⟨firstPrecedes, othersOrdered⟩ := List.pairwise_cons.mp inductionHypothesis
          simp only [place]
          split
          · rename_i precedes
            refine List.pairwise_cons.mpr ⟨fun other member => ?_, inductionHypothesis⟩
            rcases List.mem_cons.mp member with same | later
            · exact same ▸ precedes
            · exact transitive _ _ _ precedes (firstPrecedes other later)
          · rename_i follows
            refine List.pairwise_cons.mpr
              ⟨fun other member => ?_, placeHypothesis othersOrdered⟩
            rcases List.mem_cons.mp ((place_perm mayPrecede element others).mem_iff.mp member)
              with same | later
            · have either := total element first
              simpa [same, follows] using either
            · exact firstPrecedes other later

/-- Elements that are in order stay as they are. -/
theorem sort_of_pairwise
    {mayPrecede : α -> α -> Bool}
    {elements : List α}
    (ordered : elements.Pairwise fun left right => mayPrecede left right) :
    sort mayPrecede elements = elements := by
  induction elements with
  | nil => rfl
  | cons first rest inductionHypothesis =>
      have ⟨precedes, restOrdered⟩ := List.pairwise_cons.mp ordered
      rw [sort, inductionHypothesis restOrdered]
      cases rest with
      | nil => rfl
      | cons second others =>
          simp only [place, precedes second (.head _), if_true]

/-- It is enough to compare neighbors, if the comparison is transitive. -/
theorem pairwise_of_neighborsInOrder
    {mayPrecede : α -> α -> Bool}
    {elements : List α}
    (transitive : ∀ first second third,
      mayPrecede first second -> mayPrecede second third -> mayPrecede first third)
    (inOrder : neighborsInOrder mayPrecede elements) :
    elements.Pairwise fun left right => mayPrecede left right := by
  induction elements with
  | nil => exact .nil
  | cons first rest inductionHypothesis =>
      cases rest with
      | nil => exact List.pairwise_singleton _ _
      | cons second others =>
          rw [neighborsInOrder, Bool.and_eq_true] at inOrder
          have restOrdered := inductionHypothesis inOrder.2
          refine List.pairwise_cons.mpr ⟨fun other member => ?_, restOrdered⟩
          rcases List.mem_cons.mp member with rfl | later
          · exact inOrder.1
          · exact transitive _ _ _ inOrder.1 (List.rel_of_pairwise_cons restOrdered later)

end Sorting
end LineMetrics
