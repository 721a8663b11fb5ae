import LineMetrics.Grouping
import Mathlib.Data.List.Nodup
import Mathlib.Data.List.Forall2

/-!
# Laws of groups

Keys of groups are distinct, groups are not empty, and an element at the end of a list
goes to the end of its group. The last law is the one that connects groups with tables,
since a visit changes the rows of a table in the same way.
-/

namespace LineMetrics

variable {α κ : Type} [DecidableEq κ]

/-- Erasing repetitions leaves no repetition. -/
theorem nodup_eraseDups (keys : List κ) : keys.eraseDups.Nodup := by
  -- the tail is filtered before the repetitions in it are erased, so it only gets shorter
  induction length : keys.length using Nat.strongRecOn generalizing keys with
  | ind size inductionHypothesis =>
      cases keys with
      | nil => exact List.nodup_nil
      | cons first rest =>
          rw [List.eraseDups_cons, List.nodup_cons]
          constructor
          · rw [List.mem_eraseDups, List.mem_filter]
            rintro ⟨-, different⟩
            simp at different
          · refine inductionHypothesis _ ?_ _ rfl
            have shorter := List.length_filter_le (fun other => !other == first) rest
            rw [List.length_cons] at length
            omega

/-- A key at the end is new or was seen before. -/
theorem eraseDups_append_singleton (keys : List κ) (key : κ) :
    (keys ++ [key]).eraseDups =
      if key ∈ keys then keys.eraseDups else keys.eraseDups ++ [key] := by
  rw [List.eraseDups_append, List.removeAll]
  split <;> rename_i seen <;> simp [seen, List.eraseDups_cons]

@[simp] theorem groups_nil (key : α -> κ) : groups key [] = [] := rfl

/-- The keys of groups are those of their elements. -/
theorem keys_groups (key : α -> κ) (elements : List α) :
    (groups key elements).map Prod.fst = (elements.map key).eraseDups := by
  rw [groups, List.map_map]
  exact List.map_id _

theorem nodup_keys_groups (key : α -> κ) (elements : List α) :
    ((groups key elements).map Prod.fst).Nodup := by
  rw [keys_groups]
  exact nodup_eraseDups _

/-- A group has the elements with its key, and there is one for every key. -/
theorem mem_groups_iff {key : α -> κ} {elements : List α} {group : κ × List α} :
    group ∈ groups key elements ↔
      group.1 ∈ elements.map key ∧
        group.2 = elements.filter fun element => key element = group.1 := by
  obtain ⟨name, members⟩ := group
  rw [groups, List.mem_map]
  simp only [List.mem_eraseDups, Prod.mk.injEq]
  constructor
  · rintro ⟨other, present, rfl, rfl⟩
    exact ⟨present, rfl⟩
  · rintro ⟨present, same⟩
    exact ⟨name, present, rfl, same.symm⟩

/-- No group is empty. -/
theorem ne_nil_of_mem_groups
    {key : α -> κ}
    {elements : List α}
    {group : κ × List α}
    (member : group ∈ groups key elements) :
    group.2 ≠ [] := by
  obtain ⟨present, members⟩ := mem_groups_iff.mp member
  obtain ⟨element, elementMember, keyed⟩ := List.mem_map.mp present
  rw [members]
  exact List.ne_nil_of_mem (List.mem_filter.mpr ⟨elementMember, decide_eq_true keyed⟩)

/-- An element of a group is one of the elements and has the key of the group. -/
theorem of_mem_of_mem_groups
    {key : α -> κ}
    {elements : List α}
    {group : κ × List α}
    {element : α}
    (groupMember : group ∈ groups key elements)
    (member : element ∈ group.2) :
    element ∈ elements ∧ key element = group.1 := by
  rw [(mem_groups_iff.mp groupMember).2, List.mem_filter, decide_eq_true_eq] at member
  exact member

/-- An element is in the group of its key. -/
theorem exists_mem_groups
    (key : α -> κ)
    {elements : List α}
    {element : α}
    (member : element ∈ elements) :
    ∃ group ∈ groups key elements, element ∈ group.2 := by
  refine ⟨(key element, elements.filter fun other => key other = key element), ?_, ?_⟩
  · exact mem_groups_iff.mpr ⟨List.mem_map_of_mem member, rfl⟩
  · exact List.mem_filter.mpr ⟨member, decide_eq_true rfl⟩

/-- Some element of some group satisfies a condition exactly if some element does. -/
theorem any_groups (key : α -> κ) (elements : List α) (condition : α -> Bool) :
    ((groups key elements).any fun group => group.2.any condition) =
      elements.any condition := by
  rw [Bool.eq_iff_iff, List.any_eq_true, List.any_eq_true]
  constructor
  · rintro ⟨group, groupMember, someMember⟩
    obtain ⟨element, member, satisfies⟩ := List.any_eq_true.mp someMember
    rw [(mem_groups_iff.mp groupMember).2] at member
    exact ⟨element, (List.mem_filter.mp member).1, satisfies⟩
  · rintro ⟨element, member, satisfies⟩
    obtain ⟨group, groupMember, inGroup⟩ := exists_mem_groups key member
    exact ⟨group, groupMember, List.any_eq_true.mpr ⟨element, inGroup, satisfies⟩⟩

/-- A key that no element has stands for an empty list. -/
theorem filter_eq_nil_of_not_mem
    {key : α -> κ}
    {elements : List α}
    {group : κ}
    (absent : group ∉ elements.map key) :
    (elements.filter fun element => key element = group) = [] := by
  rw [List.filter_eq_nil_iff]
  intro element member keyed
  exact absent (List.mem_map.mpr ⟨element, member, of_decide_eq_true keyed⟩)

/-- Keys that are all the same are seen once. -/
theorem eraseDups_of_forall_eq
    {key : κ}
    {keys : List κ}
    (nonempty : keys ≠ [])
    (same : ∀ other ∈ keys, other = key) :
    keys.eraseDups = [key] := by
  cases keys with
  | nil => exact absurd rfl nonempty
  | cons first rest =>
      have ⟨firstSame, restSame⟩ := List.forall_mem_cons.mp same
      have noOther : (rest.filter fun other => !other == first) = [] := by
        rw [List.filter_eq_nil_iff]
        intro other member
        simp [restSame other member, firstSame]
      rw [List.eraseDups_cons, noOther, List.eraseDups_nil, firstSame]

/-- Elements that all have one key, in front of elements that have other keys, are the
first group. -/
theorem groups_append_of_keyed
    {key : α -> κ}
    {group : κ}
    {members others : List α}
    (nonempty : members ≠ [])
    (keyed : ∀ element ∈ members, key element = group)
    (apart : ∀ element ∈ others, key element ≠ group) :
    groups key (members ++ others) = (group, members) :: groups key others := by
  have absent : group ∉ others.map key := by
    rw [List.mem_map]
    rintro ⟨element, member, same⟩
    exact apart element member same
  have memberKeys : (members.map key).eraseDups = [group] := by
    apply eraseDups_of_forall_eq (by simpa using nonempty)
    intro other member
    obtain ⟨element, elementMember, rfl⟩ := List.mem_map.mp member
    exact keyed element elementMember
  have otherKeys : (others.map key).removeAll (members.map key) = others.map key := by
    rw [List.removeAll, List.filter_eq_self]
    intro other member
    have different : other ≠ group := fun same => absent (same ▸ member)
    have notThere : other ∉ members.map key := by
      rw [<- List.mem_eraseDups, memberKeys, List.mem_singleton]
      exact different
    simpa using notThere
  have memberFilter : (members.filter fun element => key element = group) = members := by
    rw [List.filter_eq_self]
    intro element member
    exact decide_eq_true (keyed element member)
  rw [groups, groups, List.map_append, List.eraseDups_append, memberKeys, otherKeys,
    List.singleton_append, List.map_cons, List.filter_append, memberFilter,
    filter_eq_nil_of_not_mem absent, List.append_nil]
  congr 1
  apply List.map_congr_left
  intro other member
  have noMember : (members.filter fun element => key element = other) = [] := by
    rw [List.filter_eq_nil_iff]
    intro element elementMember same
    rw [decide_eq_true_eq, keyed element elementMember] at same
    exact absent (same ▸ List.mem_eraseDups.mp member)
  rw [List.filter_append, noMember, List.nil_append]

/-- Rows with distinct keys, each with elements of its key, are the groups of all their
elements. -/
theorem groups_flatMap
    {key : α -> κ}
    {rows : List (κ × List α)}
    (distinct : (rows.map Prod.fst).Nodup)
    (nonempty : ∀ row ∈ rows, row.2 ≠ [])
    (keyed : ∀ row ∈ rows, ∀ element ∈ row.2, key element = row.1) :
    groups key (rows.flatMap Prod.snd) = rows := by
  induction rows with
  | nil => rfl
  | cons row rows inductionHypothesis =>
      have ⟨rowApart, rowsDistinct⟩ := List.nodup_cons.mp distinct
      have ⟨rowNonempty, rowsNonempty⟩ := List.forall_mem_cons.mp nonempty
      have ⟨rowKeyed, rowsKeyed⟩ := List.forall_mem_cons.mp keyed
      rw [List.flatMap_cons, groups_append_of_keyed rowNonempty rowKeyed,
        inductionHypothesis rowsDistinct rowsNonempty rowsKeyed]
      intro element member same
      obtain ⟨other, otherMember, inOther⟩ := List.mem_flatMap.mp member
      rw [rowsKeyed other otherMember element inOther] at same
      exact rowApart (same ▸ List.mem_map_of_mem otherMember)

/-- Elements that are rewritten group by group, each to some elements with the same key,
have the rewritten groups. -/
theorem groups_rewritten
    (key : α -> κ)
    (rewrite : κ × List α -> List α)
    (elements : List α)
    (nonempty : ∀ group ∈ groups key elements, rewrite group ≠ [])
    (keyed : ∀ group ∈ groups key elements, ∀ element ∈ rewrite group,
      key element = group.1) :
    groups key ((groups key elements).flatMap rewrite) =
      (groups key elements).map fun group => (group.1, rewrite group) := by
  have rows :
      (groups key elements).flatMap rewrite =
        ((groups key elements).map fun group => (group.1, rewrite group)).flatMap
          Prod.snd := by
    rw [List.flatMap_map]
  rw [rows, groups_flatMap]
  · rw [List.map_map]
    exact nodup_keys_groups key elements
  · intro row member
    obtain ⟨group, groupMember, rfl⟩ := List.mem_map.mp member
    exact nonempty group groupMember
  · intro row member
    obtain ⟨group, groupMember, rfl⟩ := List.mem_map.mp member
    exact keyed group groupMember

namespace Table

variable {ν μ : Type}

/-- Changing the row of a key, when rows are given by their keys. -/
theorem changeRow_map
    {keys : List κ}
    {key : κ}
    (fresh : ν)
    (update : ν -> ν)
    (value : κ -> ν)
    (distinct : keys.Nodup)
    (present : key ∈ keys) :
    changeRow key fresh update (keys.map fun other => (other, value other)) =
      keys.map fun other =>
        (other, if other = key then update (value other) else value other) := by
  induction keys with
  | nil => cases present
  | cons first rest inductionHypothesis =>
      have ⟨firstApart, restDistinct⟩ := List.nodup_cons.mp distinct
      rw [List.map_cons, List.map_cons, changeRow]
      by_cases same : first = key
      · subst same
        rw [if_pos rfl, if_pos rfl]
        congr 1
        apply List.map_congr_left
        intro other member
        rw [if_neg fun equal : other = first => firstApart (equal ▸ member)]
      · have behind : key ∈ rest := List.mem_of_ne_of_mem (Ne.symm same) present
        rw [if_neg same, if_neg same, inductionHypothesis restDistinct behind]

/-- Changing the row of a key commutes with a map of the values. -/
theorem map_changeRow
    (key : κ)
    (fresh : ν)
    (update : ν -> ν)
    (otherUpdate : μ -> μ)
    (view : ν -> μ)
    (commutes : ∀ value, view (update value) = otherUpdate (view value))
    (rows : List (κ × ν)) :
    (changeRow key fresh update rows).map (Prod.map id view) =
      changeRow key (view fresh) otherUpdate (rows.map (Prod.map id view)) := by
  induction rows with
  | nil => simp [changeRow, commutes]
  | cons row rows inductionHypothesis =>
      rw [changeRow, List.map_cons, changeRow]
      by_cases same : row.1 = key
      · rw [if_pos same, if_pos (by simpa using same), List.map_cons]
        simp [commutes]
      · rw [if_neg same, if_neg (by simpa using same), List.map_cons, inductionHypothesis]

/-- Rows that correspond still do when the row of a key is changed on both sides, if the
changed values correspond. -/
theorem forall₂_changeRow
    {related : ν -> μ -> Prop}
    {key : κ}
    {fresh : ν}
    {otherFresh : μ}
    {update : ν -> ν}
    {otherUpdate : μ -> μ}
    {rows : List (κ × ν)}
    {otherRows : List (κ × μ)}
    (correspond :
      List.Forall₂ (fun row other => row.1 = other.1 ∧ related row.2 other.2)
        rows otherRows)
    (changed : ∀ value other, (key, other) ∈ otherRows ->
      related value other -> related (update value) (otherUpdate other))
    (created : key ∉ otherRows.map Prod.fst ->
      related (update fresh) (otherUpdate otherFresh)) :
    List.Forall₂ (fun row other => row.1 = other.1 ∧ related row.2 other.2)
      (changeRow key fresh update rows)
      (changeRow key otherFresh otherUpdate otherRows) := by
  induction correspond with
  | nil => exact .cons ⟨rfl, created List.not_mem_nil⟩ .nil
  | @cons row other rows otherRows correspond correspondBehind inductionHypothesis =>
      obtain ⟨sameKey, relatedValues⟩ := correspond
      rw [changeRow, changeRow, sameKey]
      by_cases same : other.1 = key
      · rw [if_pos same, if_pos same]
        have present : (key, other.2) ∈ other :: otherRows := by
          rw [<- same]
          exact List.mem_cons_self
        exact .cons ⟨rfl, changed _ _ present relatedValues⟩ correspondBehind
      · rw [if_neg same, if_neg same]
        refine .cons ⟨sameKey, relatedValues⟩ (inductionHypothesis ?_ ?_)
        · intro value behind member
          exact changed value behind (.tail _ member)
        · intro absent
          apply created
          rw [List.map_cons, List.mem_cons]
          exact not_or.mpr ⟨Ne.symm same, absent⟩

end Table

/-- An element at the end of a list goes to the end of its group, which is new and the
last one if no element with its key came before. -/
theorem groups_append_singleton (key : α -> κ) (elements : List α) (element : α) :
    groups key (elements ++ [element]) =
      Table.changeRow (key element) [] (fun members => members ++ [element])
        (groups key elements) := by
  by_cases present : key element ∈ elements.map key
  · rw [groups, groups, List.map_append, List.map_singleton,
      eraseDups_append_singleton, if_pos present,
      Table.changeRow_map [] _ _ (nodup_eraseDups _) (List.mem_eraseDups.mpr present)]
    apply List.map_congr_left
    intro group _
    rw [List.filter_append]
    by_cases same : key element = group
    · simp [same]
    · simp [same, Ne.symm same]
  · rw [Table.changeRow_of_not_mem _ _
      (by rw [keys_groups, List.mem_eraseDups]; exact present)]
    rw [groups, groups, List.map_append, List.map_singleton,
      eraseDups_append_singleton, if_neg present, List.map_append, List.map_singleton,
      List.filter_append, filter_eq_nil_of_not_mem present]
    congr 1
    · apply List.map_congr_left
      intro group member
      have different : key element ≠ group := by
        intro same
        exact present (same ▸ List.mem_eraseDups.mp member)
      simp [different]
    · simp

end LineMetrics
