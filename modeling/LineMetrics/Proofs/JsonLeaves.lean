import LineMetrics.Json

/-!
# Leaves of JSON values

The values inside a value that are neither lists nor objects are its leaves. Lists and
objects have a property of all leaves if each of their values has it, and are as deep as
the deepest of them and one more.
-/

namespace LineMetrics
namespace Json

mutual

/-- Each leaf of a value has a property. -/
def Leaves (holds : Json -> Prop) : Json -> Prop
  | .list items => LeavesOfItems holds items
  | .object members => LeavesOfMembers holds members
  | leaf => holds leaf

/-- Each leaf of the items has a property. -/
def LeavesOfItems (holds : Json -> Prop) : List Json -> Prop
  | [] => True
  | item :: items => item.Leaves holds ∧ LeavesOfItems holds items

/-- Each leaf of the values of the members has a property. -/
def LeavesOfMembers (holds : Json -> Prop) : List (String × Json) -> Prop
  | [] => True
  | (_, value) :: members => value.Leaves holds ∧ LeavesOfMembers holds members

end

mutual

/-- The value with each binary64 number changed. -/
def mapDoubles (change : Binary64 -> Binary64) : Json -> Json
  | .double value => .double (change value)
  | .list items => .list (mapDoublesOfItems change items)
  | .object members => .object (mapDoublesOfMembers change members)
  | leaf => leaf

/-- The items with each binary64 number changed. -/
def mapDoublesOfItems (change : Binary64 -> Binary64) : List Json -> List Json
  | [] => []
  | item :: items => item.mapDoubles change :: mapDoublesOfItems change items

/-- The members with each binary64 number changed. -/
def mapDoublesOfMembers (change : Binary64 -> Binary64) :
    List (String × Json) -> List (String × Json)
  | [] => []
  | (key, value) :: members =>
      (key, value.mapDoubles change) :: mapDoublesOfMembers change members

end

variable {holds : Json -> Prop} {items : List Json} {members : List (String × Json)}

theorem leavesOfItems_iff :
    LeavesOfItems holds items ↔ ∀ item ∈ items, item.Leaves holds := by
  induction items with
  | nil => exact iff_of_true trivial fun _ member => nomatch member
  | cons item items inductionHypothesis =>
      rw [LeavesOfItems, inductionHypothesis, List.forall_mem_cons]

theorem leavesOfMembers_iff :
    LeavesOfMembers holds members ↔ ∀ member ∈ members, member.2.Leaves holds := by
  induction members with
  | nil => exact iff_of_true trivial fun _ member => nomatch member
  | cons member members inductionHypothesis =>
      rw [LeavesOfMembers, inductionHypothesis, List.forall_mem_cons]

/-- Members are changed one by one. -/
theorem mapDoublesOfMembers_eq_map (change : Binary64 -> Binary64) :
    mapDoublesOfMembers change members =
      members.map fun member => (member.1, member.2.mapDoubles change) := by
  induction members with
  | nil => rfl
  | cons member members inductionHypothesis =>
      rw [mapDoublesOfMembers, inductionHypothesis, List.map_cons]

mutual

/-- A value stays as it is if none of its numbers changes. -/
theorem mapDoubles_id : ∀ json : Json, json.mapDoubles id = json
  | .list items => congrArg Json.list (mapDoublesOfItems_id items)
  | .object members => congrArg Json.object (mapDoublesOfMembers_id members)
  | .double _ => rfl
  | .unreadable => rfl
  | .null => rfl
  | .bool _ => rfl
  | .int _ => rfl
  | .string _ => rfl

theorem mapDoublesOfItems_id : ∀ items : List Json, mapDoublesOfItems id items = items
  | [] => rfl
  | item :: items => by
      rw [mapDoublesOfItems, mapDoubles_id item, mapDoublesOfItems_id items]

theorem mapDoublesOfMembers_id :
    ∀ members : List (String × Json), mapDoublesOfMembers id members = members
  | [] => rfl
  | (key, value) :: members => by
      rw [mapDoublesOfMembers, mapDoubles_id value, mapDoublesOfMembers_id members]

end

/-- The value is a leaf with a meaning. -/
def IsReadableLeaf (leaf : Json) : Prop := leaf ≠ .unreadable

mutual

/-- A value has a meaning if all of its leaves have one. -/
theorem isReadable_of_leaves :
    ∀ json : Json, json.Leaves IsReadableLeaf -> json.isReadable = true
  | .list items, leaves => areItemsReadable_of_leaves items leaves
  | .object members, leaves => areMembersReadable_of_leaves members leaves
  | .unreadable, leaves => absurd rfl leaves
  | .null, _ => rfl
  | .bool _, _ => rfl
  | .int _, _ => rfl
  | .double _, _ => rfl
  | .string _, _ => rfl

theorem areItemsReadable_of_leaves :
    ∀ items : List Json, LeavesOfItems IsReadableLeaf items -> areItemsReadable items = true
  | [], _ => rfl
  | item :: items, leaves =>
      Bool.and_eq_true_iff.mpr
        ⟨isReadable_of_leaves item leaves.1, areItemsReadable_of_leaves items leaves.2⟩

/-- Members have a meaning if all leaves of their values have one. -/
theorem areMembersReadable_of_leaves :
    ∀ members : List (String × Json), LeavesOfMembers IsReadableLeaf members ->
      areMembersReadable members = true
  | [], _ => rfl
  | (_, value) :: members, leaves =>
      Bool.and_eq_true_iff.mpr
        ⟨isReadable_of_leaves value leaves.1, areMembersReadable_of_leaves members leaves.2⟩

end

theorem depthOfItems_le_iff {room : Nat} :
    depthOfItems items ≤ room ↔ ∀ item ∈ items, item.depth ≤ room := by
  induction items with
  | nil => exact iff_of_true (Nat.zero_le _) fun _ member => nomatch member
  | cons item items inductionHypothesis =>
      rw [depthOfItems, Nat.max_le, inductionHypothesis, List.forall_mem_cons]

theorem depthOfMembers_le_iff {room : Nat} :
    depthOfMembers members ≤ room ↔ ∀ member ∈ members, member.2.depth ≤ room := by
  induction members with
  | nil => exact iff_of_true (Nat.zero_le _) fun _ member => nomatch member
  | cons member members inductionHypothesis =>
      rw [depthOfMembers, Nat.max_le, inductionHypothesis, List.forall_mem_cons]

theorem depth_list_le {room : Nat} :
    (Json.list items).depth ≤ room + 1 ↔ ∀ item ∈ items, item.depth ≤ room := by
  rw [depth, Nat.add_le_add_iff_right, depthOfItems_le_iff]

end Json
end LineMetrics
