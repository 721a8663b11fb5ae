import Mathlib.Data.List.Forall2
import Mathlib.Data.List.Perm.Basic

/-!
# Computations that can fail

A computation in several steps succeeds exactly if each step does, and the conversion of a
list exactly if that of each element does.
-/

namespace LineMetrics

variable {α β γ δ ε : Type}

/-- A failure is not a success. -/
theorem error_ne_ok {error : ε} {value : α} : Except.error error ≠ .ok value :=
  fun same => by cases same

/-- What is not a failure is a success. -/
theorem exists_of_isOk {first : Except ε α} (succeeds : first.isOk) :
    ∃ value, first = .ok value := by
  cases first with
  | error error => cases succeeds
  | ok value => exact ⟨value, rfl⟩

/-- A success is a value. -/
theorem isOk_iff {result : Except ε α} :
    result.isOk = true ↔ ∃ value, result = .ok value := by
  refine ⟨exists_of_isOk, ?_⟩
  rintro ⟨value, rfl⟩
  rfl

/-- A success has a value. -/
theorem isSome_toOption (result : Except ε α) : result.toOption.isSome = result.isOk := by
  cases result <;> rfl

/-- A computation with an optional value succeeds with it. -/
theorem eq_ok_of_toOption
    {result : Except ε α}
    {value : α}
    (found : result.toOption = some value) :
    result = .ok value := by
  cases result with
  | error error => cases found
  | ok other =>
      cases found
      rfl

/-- A computation that succeeds after another one succeeds with what that one gives. -/
theorem exists_of_bind_eq_ok
    {first : Except ε α}
    {next : α -> Except ε β}
    {result : β}
    (succeeds : first >>= next = .ok result) :
    ∃ value, first = .ok value ∧ next value = .ok result := by
  cases first with
  | error error => cases succeeds
  | ok value => exact ⟨value, rfl, succeeds⟩

/-- A result that is mapped to a success is a success. -/
theorem exists_of_map_eq_ok
    {first : Except ε α}
    {change : α -> β}
    {result : β}
    (succeeds : first.map change = .ok result) :
    ∃ value, first = .ok value ∧ change value = result := by
  cases first with
  | error error => cases succeeds
  | ok value => exact ⟨value, rfl, Except.ok.inj succeeds⟩

/-- A result that is mapped is a success exactly if it is one itself. -/
theorem exists_map_eq_ok_iff {first : Except ε α} {change : α -> β} :
    (∃ result, first.map change = .ok result) ↔ ∃ value, first = .ok value := by
  constructor
  · rintro ⟨result, succeeds⟩
    obtain ⟨value, isOk, -⟩ := exists_of_map_eq_ok succeeds
    exact ⟨value, isOk⟩
  · rintro ⟨value, rfl⟩
    exact ⟨change value, rfl⟩

/-- To go on with a result that is changed is to change the result. -/
theorem bind_ok_eq_map {first : Except ε α} (change : α -> β) :
    (first >>= fun value => .ok (change value)) = first.map change := by
  cases first <;> rfl

/-- Converting a list succeeds exactly with the conversions of its elements. -/
theorem mapM_eq_ok_iff
    {convert : α -> Except ε β}
    {elements : List α}
    {results : List β} :
    elements.mapM convert = .ok results ↔
      List.Forall₂ (fun element result => convert element = .ok result) elements results := by
  induction elements generalizing results with
  | nil => simp [pure, Except.pure, eq_comm]
  | cons element elements inductionHypothesis =>
      rw [List.mapM_cons]
      constructor
      · intro succeeds
        obtain ⟨first, converted, succeeds⟩ := exists_of_bind_eq_ok succeeds
        obtain ⟨rest, others, succeeds⟩ := exists_of_bind_eq_ok succeeds
        cases succeeds
        exact .cons converted (inductionHypothesis.mp others)
      · rintro (_ | ⟨converted, others⟩)
        rw [converted, inductionHypothesis.mpr others]
        rfl

/-- If each element can be converted, a list of them can. -/
theorem mapM_eq_ok
    {convert : α -> Except ε β}
    {result : α -> β}
    {elements : List α}
    (each : ∀ element ∈ elements, convert element = .ok (result element)) :
    elements.mapM convert = .ok (elements.map result) := by
  rw [mapM_eq_ok_iff, List.forall₂_map_right_iff, List.forall₂_same]
  exact each

/-- A list can be converted exactly if each of its elements can. -/
theorem exists_mapM_eq_ok_iff {convert : α -> Except ε β} {elements : List α} :
    (∃ results, elements.mapM convert = .ok results) ↔
      ∀ element ∈ elements, ∃ result, convert element = .ok result := by
  simp only [mapM_eq_ok_iff]
  induction elements with
  | nil => exact iff_of_true ⟨[], .nil⟩ (List.forall_mem_nil _)
  | cons element elements inductionHypothesis =>
      rw [List.forall_mem_cons, <- inductionHypothesis]
      constructor
      · rintro ⟨_, _ | ⟨converted, others⟩⟩
        exact ⟨⟨_, converted⟩, ⟨_, others⟩⟩
      · rintro ⟨⟨_, converted⟩, ⟨_, others⟩⟩
        exact ⟨_, .cons converted others⟩

/-- What each conversion gives is what a list can be converted to. -/
theorem forall_mem_of_mapM_eq_ok
    {convert : α -> Except ε β}
    {holds : β -> Prop}
    {elements : List α}
    {results : List β}
    (each : ∀ element result, convert element = .ok result -> holds result)
    (succeeds : elements.mapM convert = .ok results) :
    ∀ result ∈ results, holds result := by
  have related := mapM_eq_ok_iff.mp succeeds
  induction related with
  | nil => exact List.forall_mem_nil _
  | cons converted others inductionHypothesis =>
      exact List.forall_mem_cons.mpr
        ⟨each _ _ converted, inductionHypothesis (mapM_eq_ok_iff.mpr others)⟩

/-- Rearranged elements are converted to rearranged results. -/
theorem exists_mapM_of_perm
    {convert : α -> Except ε β}
    {elements others : List α}
    {results : List β}
    (perm : elements.Perm others)
    (converted : elements.mapM convert = .ok results) :
    ∃ otherResults, others.mapM convert = .ok otherResults ∧ results.Perm otherResults := by
  obtain ⟨otherResults, othersConverted, resultsPerm⟩ :=
    List.perm_comp_forall₂ perm.symm (mapM_eq_ok_iff.mp converted)
  exact ⟨otherResults, mapM_eq_ok_iff.mpr othersConverted, resultsPerm.symm⟩

/-- If each element can be converted into something related to it, a list of them can. -/
theorem exists_mapM_related
    {convert : α -> Except ε β}
    {related : α -> β -> Prop}
    {elements : List α}
    (each : ∀ element ∈ elements, ∃ result,
      convert element = .ok result ∧ related element result) :
    ∃ results, elements.mapM convert = .ok results ∧ List.Forall₂ related elements results := by
  simp only [mapM_eq_ok_iff]
  induction elements with
  | nil => exact ⟨[], .nil, .nil⟩
  | cons element elements inductionHypothesis =>
      obtain ⟨⟨result, converted, isRelated⟩, others⟩ := List.forall_mem_cons.mp each
      obtain ⟨results, othersConverted, othersRelated⟩ := inductionHypothesis others
      exact ⟨result :: results, .cons converted othersConverted,
        .cons isRelated othersRelated⟩

/-- If what is seen of each element can be converted into something related to the element,
a list of them can. -/
theorem exists_mapM_eq_ok
    {view : α -> Option β}
    {convert : β -> Except ε γ}
    {result : α -> δ}
    {related : γ -> δ -> Prop}
    {elements : List α}
    (each : ∀ element ∈ elements, ∃ seen converted,
      view element = some seen ∧ convert seen = .ok converted ∧
        related converted (result element)) :
    ∃ converted,
      (elements.filterMap view).mapM convert = .ok converted ∧
        List.Forall₂ related converted (elements.map result) := by
  induction elements with
  | nil => exact ⟨[], rfl, .nil⟩
  | cons element elements inductionHypothesis =>
      have ⟨first, others⟩ := List.forall_mem_cons.mp each
      obtain ⟨seen, converted, viewed, succeeds, isRelated⟩ := first
      obtain ⟨rest, restSucceeds, restRelated⟩ := inductionHypothesis others
      refine ⟨converted :: rest, ?_, .cons isRelated restRelated⟩
      rw [List.filterMap_cons, viewed]
      dsimp only
      rw [List.mapM_cons, succeeds, restSucceeds]
      rfl

/-- Lists of one element each are put together to the list of these. -/
theorem mapM_eq_map_flatten (convert : α -> Except ε β) (elements : List α) :
    elements.mapM convert =
      (elements.mapM fun element => (convert element).map ([·])).map List.flatten := by
  induction elements with
  | nil => rfl
  | cons element elements inductionHypothesis =>
      rw [List.mapM_cons, List.mapM_cons, inductionHypothesis]
      cases convert element with
      | error error => rfl
      | ok result =>
          generalize (elements.mapM fun element => (convert element).map ([·])) = blocks
          cases blocks <;> rfl

/-- The length of what lists are converted to is the sum of the lengths of the parts. -/
theorem map_length_mapM_cons
    (convert : α -> Except ε (List β))
    (element : α)
    (elements : List α) :
    (((element :: elements).mapM convert).map List.flatten).map List.length = do
      let here <- (convert element).map List.length
      let behind <- ((elements.mapM convert).map List.flatten).map List.length
      return here + behind := by
  rw [List.mapM_cons]
  cases convert element with
  | error error => rfl
  | ok block =>
      cases elements.mapM convert with
      | error error => rfl
      | ok blocks => exact congrArg Except.ok List.length_append

/-- If elements are converted to lists of the same lengths, or fail alike, so are lists of
them. -/
theorem map_length_mapM_congr
    {first second : α -> Except ε (List β)}
    (same : ∀ element, (first element).map List.length = (second element).map List.length)
    (elements : List α) :
    ((elements.mapM first).map List.flatten).map List.length =
      ((elements.mapM second).map List.flatten).map List.length := by
  induction elements with
  | nil => rfl
  | cons element elements inductionHypothesis =>
      rw [map_length_mapM_cons, map_length_mapM_cons, same, inductionHypothesis]

end LineMetrics
