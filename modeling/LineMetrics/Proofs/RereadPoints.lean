import LineMetrics.Proofs.RequestForm
import LineMetrics.Proofs.RereadNumbers
import LineMetrics.Proofs.WholeDistributions
import LineMetrics.Proofs.WrittenJson

/-!
# Points are read again

The text of a point with finite numbers is read as that point. Only unsigned whole numbers
that fit become signed, and its binary64 numbers are those that their texts are read as.
-/

namespace LineMetrics

namespace Dictionary

variable {α : Type}

/-- The entries of a dictionary, put together again, are the dictionary. -/
theorem ofList_entries (dictionary : Dictionary α) : ofList dictionary.entries = dictionary := by
  have distinct : (dictionary.entries.map Prod.fst).Nodup :=
    List.Pairwise.map Prod.fst (fun _ _ => Std.ne_of_lt) dictionary.ascending
  have perm := entries_ofList_perm distinct
  refine ext_find? fun key => Option.ext fun value => ?_
  rw [find?_eq_some_iff, find?_eq_some_iff, perm.mem_iff]

@[simp] theorem mapValues_id (dictionary : Dictionary α) : dictionary.mapValues id = dictionary :=
  ext (List.map_id dictionary.entries)

end Dictionary

namespace Json

variable {α β : Type}

/-- Members are read from their forms if each of their values is. -/
theorem asMembersOf?_map
    {read : Json -> Option β}
    {change : α -> β}
    {entries : List (String × α)}
    (write : α -> Json)
    (reads : ∀ entry ∈ entries, read (write entry.2) = some (change entry.2)) :
    (Json.object (entries.map fun entry => (entry.1, write entry.2))).asMembersOf? read =
      some (entries.map fun entry => (entry.1, change entry.2)) := by
  rw [asMembersOf?]
  induction entries with
  | nil => rfl
  | cons entry entries inductionHypothesis =>
      obtain ⟨here, behind⟩ := List.forall_mem_cons.mp reads
      rw [List.map_cons, List.mapM_cons, here, inductionHypothesis behind]
      rfl

end Json

namespace FieldValue

open Json

/-- The number that a field value holds is read from its text. -/
theorem leaves_toJson {value : FieldValue} (finite : value.IsFinite) :
    value.toJson.Leaves (IsReadLeaf Binary64.reread) := by
  cases value with
  | int value =>
      have least := value.le_toInt
      have greatest := value.toInt_lt
      exact ⟨by omega, by omega⟩
  | uint value =>
      have below := value.toNat_lt
      exact ⟨by omega, by omega⟩
  | float number => exact Binary64.readNumber?_doubleText (finite number rfl)
  | text value => trivial
  | bool value => trivial

/-- An unsigned whole number that 64 bits hold with a sign is a signed one with its value. -/
theorem toInt_toInt64 {value : UInt64} (small : value.toNat < 2 ^ 63) :
    value.toInt64.toInt = value.toNat := by
  change value.toBitVec.toInt = _
  rw [BitVec.toInt_eq_toNat_cond]
  change (if 2 * value.toNat < 2 ^ 64 then _ else _) = _
  rw [if_pos (by omega)]
  rfl

/-- A field value is read as it is read again. -/
theorem ofJson?_toJson (value : FieldValue) :
    ofJson? (value.toJson.mapDoubles Binary64.reread) = some value.reread := by
  cases value with
  | int value =>
      change ofJson? (.int value.toInt) = some (.int value)
      rw [ofJson?, asInt64?_toInt]
  | uint value =>
      have below := value.toNat_lt
      change ofJson? (.int value.toNat) = some (if value.toNat < 2 ^ 63 then _ else _)
      by_cases small : value.toNat < 2 ^ 63
      · rw [if_pos small, <- toInt_toInt64 small, ofJson?, asInt64?_toInt]
      · rw [if_neg small, ofJson?, asInt64?, asIntWithin?, if_neg (by omega)]
        change (Json.int value.toNat).asUInt64?.map _ = _
        rw [asUInt64?_toNat]
        rfl
  | float number => rfl
  | text value => rfl
  | bool value => rfl

/-- What a value with a finite number is read as is what reading leaves of it. -/
theorem isReadAs_reread {value : FieldValue} (finite : value.IsFinite) :
    value.IsReadAs value.reread := by
  cases value with
  | int value => rfl
  | uint value =>
      change (FieldValue.uint value).IsReadAs (if value.toNat < 2 ^ 63 then _ else _)
      split
      · rename_i small
        exact ⟨small, toInt_toInt64 small⟩
      · rename_i large
        exact ⟨Nat.not_lt.mp large, rfl⟩
  | float number => exact (Binary64.reread_spec (finite number rfl)).2
  | text value => rfl
  | bool value => rfl

end FieldValue

namespace Point

open Json

variable {α β : Type}

/-- All parts of a point with finite numbers are read from their texts. -/
theorem leaves_toJson {point : Point} (finite : point.IsFinite) :
    point.toJson.Leaves (IsReadLeaf Binary64.reread) := by
  have tags : ∀ member ∈ point.tags.entries.map fun entry => (entry.1, Json.string entry.2),
      member.2.Leaves (IsReadLeaf Binary64.reread) := by
    intro member inMembers
    obtain ⟨entry, -, rfl⟩ := List.mem_map.mp inMembers
    trivial
  have fields : ∀ member ∈ point.fields.entries.map fun entry => (entry.1, entry.2.toJson),
      member.2.Leaves (IsReadLeaf Binary64.reread) := by
    intro member inMembers
    obtain ⟨entry, inEntries, rfl⟩ := List.mem_map.mp inMembers
    exact FieldValue.leaves_toJson (finite entry inEntries)
  have below := point.time.toNat_lt
  exact ⟨trivial, leavesOfMembers_iff.mpr tags, leavesOfMembers_iff.mpr fields,
    ⟨by omega, by omega⟩, trivial, trivial⟩

/-- A dictionary is read from the form of its entries, with changed values. -/
theorem dictionary?_entries
    {read : Json -> Option β}
    {write : α -> Json}
    {change : α -> β}
    (reads : ∀ value, read ((write value).mapDoubles Binary64.reread) = some (change value))
    (dictionary : Dictionary α) :
    dictionary? read
        ((Json.object (dictionary.entries.map fun entry => (entry.1, write entry.2))).mapDoubles
          Binary64.reread) =
      some (dictionary.mapValues change) := by
  have members := asMembersOf?_map (fun value => (write value).mapDoubles Binary64.reread)
    fun entry (_ : entry ∈ dictionary.entries) => reads entry.2
  rw [mapDoubles, mapDoublesOfMembers_eq_map, List.map_map, dictionary?]
  change (asMembersOf? read (.object (dictionary.entries.map fun entry =>
    (entry.1, (write entry.2).mapDoubles Binary64.reread)))).map _ = _
  rw [members, Option.map_some]
  exact congrArg some (Dictionary.ofList_entries (dictionary.mapValues change))

/-- The form of a point is read as the point, with changed numbers. -/
theorem ofJson?_mapDoubles (point : Point) :
    ofJson? (point.toJson.mapDoubles Binary64.reread) = some point.reread := by
  have isText (value : String) :
      asText? ((Json.string value).mapDoubles Binary64.reread) = some (id value) := rfl
  have tags := dictionary?_entries isText point.tags
  have fields := dictionary?_entries FieldValue.ofJson?_toJson point.fields
  rw [Dictionary.mapValues_id] at tags
  have isObject : point.toJson.mapDoubles Binary64.reread = .object [
      ("measurement", .string point.measurement),
      ("tags", (Json.object (point.tags.entries.map fun entry =>
        (entry.1, Json.string entry.2))).mapDoubles Binary64.reread),
      ("fields", (Json.object (point.fields.entries.map fun entry =>
        (entry.1, entry.2.toJson))).mapDoubles Binary64.reread),
      ("timestamp", .int point.time.toNat),
      ("value_type", .string point.hint.name)] := rfl
  rw [isObject, ofJson?, record?_object partNames rfl (by decide)]
  simp only [Option.bind_eq_bind, Option.bind_some, required?, optional?, List.lookup_cons,
    String.reduceBEq, tags, fields, asText?, asUInt64?_toNat, TypeHint.ofJson?,
    TypeHint.ofName?_name]
  rfl

/-- The text of a point with finite numbers is read as the point, but for unsigned whole
numbers that become signed, and for binary64 numbers that are read from their digits in two
roundings. -/
theorem ofText?_toText {point : Point} (finite : point.IsFinite) :
    ofText? point.toText = some point.reread ∧
      ∀ entry ∈ point.fields.entries, entry.2.IsReadAs entry.2.reread := by
  refine ⟨?_, fun entry member => FieldValue.isReadAs_reread (finite entry member)⟩
  rw [ofText?, toText, parse?_toText (leaves_toJson finite), Option.bind_some, ofJson?_mapDoubles]

/-- A point with whole numbers at the bounds of signed ones, a number with few digits, and
negative zero. -/
def boundaryPoint : Point where
  measurement := "größe \t⟨1⟩"
  tags := ⟨[("", "\x22"), ("zone", "β")], by decide⟩
  fields := ⟨[
    ("behind", .uint 0x8000000000000000),
    ("few", .float (.ofNat 1)),
    ("greatest", .uint 0x7fffffffffffffff),
    ("negative", .float (.neg .zero)),
    ("text", .text "1.0")], by decide⟩
  time := 0xffffffffffffffff
  hint := .gauge

/-- Unsigned numbers behind the greatest signed one stay unsigned, and few digits are kept with
their sign. -/
theorem ofText?_toText_boundaryPoint :
    boundaryPoint.IsFinite ∧
      (ofText? boundaryPoint.toText = some boundaryPoint.reread ∧
        ∀ entry ∈ boundaryPoint.fields.entries, entry.2.IsReadAs entry.2.reread) ∧
      boundaryPoint.reread.fields.entries = [
        ("behind", .uint 0x8000000000000000),
        ("few", .float (.ofNat 1)),
        ("greatest", .int 0x7fffffffffffffff),
        ("negative", .float (.neg .zero)),
        ("text", .text "1.0")] := by
  have finite : boundaryPoint.IsFinite := by
    simp only [IsFinite, boundaryPoint, List.forall_mem_cons]
    refine ⟨(fun _ same => nomatch same), (fun _ same => ?_), (fun _ same => nomatch same),
      (fun _ same => ?_), (fun _ same => nomatch same), List.forall_mem_nil _⟩
    · rw [<- FieldValue.float.inj same]
      decide +kernel
    · rw [<- FieldValue.float.inj same]
      decide +kernel
  exact ⟨finite, ofText?_toText finite, by decide +kernel⟩

/-- A number whose digits are rounded, in a point that is read again with its neighbour. -/
theorem exists_ofText?_toText_ne :
    ∃ point : Point, point.IsFinite ∧ ofText? point.toText ≠ some point.narrowed := by
  refine ⟨{ measurement := "m", fields := ⟨[("x", .float ⟨0x433fffffffffffff⟩)], by decide⟩ }, ?_,
    by decide +kernel⟩
  intro entry member number isNumber
  cases List.mem_singleton.mp member
  cases isNumber
  decide

end Point
end LineMetrics
