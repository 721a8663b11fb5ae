import LineMetrics.AttributeForm
import LineMetrics.Proofs.JsonGrammar
import Mathlib.Data.List.Induction

/-!
# Nested values as tags

The text of a nested value is strict JSON, which stands for the JSON form of the value and
for nothing else. The form of a table depends on the last values of its keys only, so a table
at any depth may be replaced by one with the same last values, and the text stays the same.
-/

namespace LineMetrics

namespace Dictionary

variable {α β : Type}

/-- Under a key, the last entry with that key is found. -/
theorem find?_ofList_eq_lookup (entries : List (String × α)) (key : String) :
    (ofList entries).find? key = entries.reverse.lookup key := by
  induction entries using List.reverseRecOn with
  | nil => rfl
  | append_singleton entries entry inductionHypothesis =>
      rw [List.reverse_concat, lookup_cons_entry, <- inductionHypothesis, ofList,
        List.foldl_concat, find?_insert]
      rfl

/-- What is found among changed values is the changed one of what is found. -/
theorem lookup_map (change : α -> β) (key : String) (entries : List (String × α)) :
    (entries.map fun entry => (entry.1, change entry.2)).lookup key =
      (entries.lookup key).map change := by
  induction entries with
  | nil => rfl
  | cons entry entries inductionHypothesis =>
      rw [List.map_cons, lookup_cons_entry, lookup_cons_entry, inductionHypothesis]
      split <;> rfl

/-- Something is found under the keys of the entries only. -/
theorem isSome_lookup_iff {key : String} {entries : List (String × α)} :
    (entries.lookup key).isSome = true ↔ key ∈ entries.map Prod.fst := by
  rw [List.lookup_isSome_iff, List.mem_map]
  simp only [beq_iff_eq, eq_comm (a := key)]

end Dictionary

namespace Json

theorem writtenItems_eq_map (items : List Json) : writtenItems items = items.map written := by
  induction items with
  | nil => rfl
  | cons item items inductionHypothesis =>
      rw [writtenItems, inductionHypothesis, List.map_cons]

theorem writtenMembers_eq_map (members : List (String × Json)) :
    writtenMembers members = members.map fun member => (member.1, member.2.written) := by
  induction members with
  | nil => rfl
  | cons member members inductionHypothesis =>
      rw [writtenMembers, inductionHypothesis, List.map_cons]

end Json

namespace AttributeValue

theorem itemsToJson_eq_map (items : List AttributeValue) :
    itemsToJson items = items.map toJson := by
  induction items with
  | nil => rfl
  | cons item items inductionHypothesis =>
      rw [itemsToJson, inductionHypothesis, List.map_cons]

theorem membersToJson_eq_map (members : List (String × AttributeValue)) :
    membersToJson members = members.map fun member => (member.1, member.2.toJson) := by
  induction members with
  | nil => rfl
  | cons member members inductionHypothesis =>
      rw [membersToJson, inductionHypothesis, List.map_cons]

/-- What holds of values without others inside, and of nested values if it holds of the values
inside, holds of all values. -/
theorem holds_of_nested
    {holds : AttributeValue -> Prop}
    (plain : ∀ value, value.isNested = false -> holds value)
    (list : ∀ items, (∀ item ∈ items, holds item) -> holds (.list items))
    (table : ∀ members : List (String × AttributeValue),
      (∀ member ∈ members, holds member.2) -> holds (.table members))
    (value : AttributeValue) : holds value :=
  @AttributeValue.rec holds (fun items => ∀ item ∈ items, holds item)
    (fun members => ∀ member ∈ members, holds member.2) (fun member => holds member.2)
    (plain _ rfl) (plain _ rfl) (fun _ => plain _ rfl) (fun _ => plain _ rfl)
    (fun _ => plain _ rfl) (fun _ => plain _ rfl) (fun _ => plain _ rfl) list table
    (List.forall_mem_nil _) (fun _ _ first others => List.forall_mem_cons.mpr ⟨first, others⟩)
    (List.forall_mem_nil _) (fun _ _ first others => List.forall_mem_cons.mpr ⟨first, others⟩)
    (fun _ _ inside => inside) value

/-! ## The form of a value -/

/-- The last value of a key is the one of a member. -/
theorem mem_of_lastValue?
    {members : List (String × AttributeValue)}
    {key : String}
    {value : AttributeValue}
    (last : lastValue? members key = some value) :
    (key, value) ∈ members := by
  obtain ⟨before, after, isSplit, -⟩ := List.lookup_eq_some_iff.mp last
  exact List.mem_reverse.mp (isSplit ▸ List.mem_append_right _ List.mem_cons_self)

/-- A key has a last value if it is the key of a member. -/
theorem isSome_lastValue?_iff {members : List (String × AttributeValue)} {key : String} :
    (lastValue? members key).isSome = true ↔ key ∈ members.map Prod.fst := by
  rw [lastValue?, Dictionary.isSome_lookup_iff, List.map_reverse, List.mem_reverse]

/-- Under a key of a table, the form of its last value is found. -/
theorem find?_membersToJson (members : List (String × AttributeValue)) (key : String) :
    (Dictionary.ofList (membersToJson members)).find? key =
      (lastValue? members key).map toJson := by
  rw [Dictionary.find?_ofList_eq_lookup, membersToJson_eq_map, <- List.map_reverse,
    Dictionary.lookup_map, lastValue?]

/-- Tables with the same last values have the same form. -/
theorem toJson_table_congr
    {left right : List (String × AttributeValue)}
    (same : ∀ key, lastValue? left key = lastValue? right key) :
    (AttributeValue.table left).toJson = (AttributeValue.table right).toJson := by
  have dictionaries : Dictionary.ofList (membersToJson left) =
      Dictionary.ofList (membersToJson right) := by
    refine Dictionary.ext_find? fun key => ?_
    rw [find?_membersToJson, find?_membersToJson, same]
  rw [toJson, toJson, dictionaries]

/-- The members that a table is written as have its keys, in order, with the forms of their
last values. -/
theorem hasForm_table
    {members : List (String × AttributeValue)}
    (each : ∀ member ∈ members, member.2.HasForm member.2.toJson.written) :
    (AttributeValue.table members).HasForm (AttributeValue.table members).toJson.written := by
  rw [toJson, Json.written, Json.writtenMembers_eq_map]
  refine .table (List.pairwise_map.mpr (Dictionary.ascending _)) (fun key => ?_)
    fun key value form last member => ?_
  · rw [List.map_map, <- isSome_lastValue?_iff, <- Option.isSome_map (f := toJson),
      <- find?_membersToJson]
    exact Dictionary.isSome_lookup_iff.symm
  · obtain ⟨entry, isEntry, made⟩ := List.mem_map.mp member
    cases made
    have found := Dictionary.find?_eq_some_iff.mpr isEntry
    rw [find?_membersToJson, last, Option.map_some] at found
    rw [<- Option.some.inj found]
    exact each _ (mem_of_lastValue? last)

/-- The items that a list is written as are the forms of its items, in order. -/
theorem hasForm_list
    {items : List AttributeValue}
    (each : ∀ item ∈ items, item.HasForm item.toJson.written) :
    (AttributeValue.list items).HasForm (AttributeValue.list items).toJson.written := by
  rw [toJson, Json.written, Json.writtenItems_eq_map, itemsToJson_eq_map, List.map_map]
  refine .list (List.length_map _) fun index item form isItem isForm => ?_
  rw [List.getElem?_map, isItem] at isForm
  cases isForm
  exact each item (List.mem_of_getElem? isItem)

/-- What a value is written as is its form. -/
theorem hasForm_written (value : AttributeValue) : value.HasForm value.toJson.written := by
  induction value using holds_of_nested with
  | list items each => exact hasForm_list each
  | table members each => exact hasForm_table each
  | plain value plain =>
      cases value with
      | absent => exact .absent
      | empty => exact .empty
      | text value => exact .text value
      | bool value => exact .bool value
      | int value => exact .int value
      | double value =>
          rw [toJson, Json.written]
          cases finite : value.isFinite with
          | true => exact .finite finite
          | false => exact .notFinite finite
      | bytes value => exact .bytes value
      | list items => cases plain
      | table members => cases plain

/-- Something is found in a dictionary under the keys that have a last value, if these are its
keys. -/
theorem isSome_find?_of_keys
    {members : List (String × AttributeValue)}
    (forms : Dictionary Json)
    (keys : ∀ key, key ∈ forms.entries.map Prod.fst ↔ key ∈ members.map Prod.fst)
    (key : String) :
    (forms.find? key).isSome = (lastValue? members key).isSome := by
  rw [Bool.eq_iff_iff, isSome_lastValue?_iff, <- keys key]
  exact Dictionary.isSome_lookup_iff

/-- A value has one form. -/
theorem HasForm.unique
    {value : AttributeValue}
    {form other : Json}
    (formed : value.HasForm form)
    (formedToo : value.HasForm other) :
    form = other := by
  induction formed generalizing other with
  | absent => cases formedToo; rfl
  | empty => cases formedToo; rfl
  | text value => cases formedToo; rfl
  | bool value => cases formedToo; rfl
  | int value => cases formedToo; rfl
  | finite finite =>
      cases formedToo with
      | finite _ => rfl
      | notFinite notFinite => cases finite.symm.trans notFinite
  | notFinite notFinite =>
      cases formedToo with
      | finite finite => cases finite.symm.trans notFinite
      | notFinite _ => rfl
  | bytes value => cases formedToo; rfl
  | list length each inductionHypothesis =>
      cases formedToo with
      | list lengthToo eachToo =>
          refine congrArg Json.list (List.ext_getElem (length.trans lengthToo.symm) ?_)
          intro index within withinToo
          have isItem := List.getElem?_eq_getElem (lengthToo ▸ withinToo)
          have isForm := List.getElem?_eq_getElem within
          have isOther := List.getElem?_eq_getElem withinToo
          exact inductionHypothesis index _ _ isItem isForm (eachToo index _ _ isItem isOther)
  | @table members forms ascending keys each inductionHypothesis =>
      cases formedToo with
      | @table _ others ascendingToo keysToo eachToo =>
          have same : (⟨forms, ascending⟩ : Dictionary Json) = ⟨others, ascendingToo⟩ := by
            refine Dictionary.ext_find? fun key => ?_
            have found := isSome_find?_of_keys ⟨forms, ascending⟩ keys key
            have foundToo := isSome_find?_of_keys ⟨others, ascendingToo⟩ keysToo key
            cases last : lastValue? members key with
            | none =>
                rw [last] at found foundToo
                rw [Option.not_isSome_iff_eq_none.mp (ne_true_of_eq_false found),
                  Option.not_isSome_iff_eq_none.mp (ne_true_of_eq_false foundToo)]
            | some value =>
                rw [last] at found foundToo
                obtain ⟨form, isForm⟩ := Option.isSome_iff_exists.mp found
                obtain ⟨other, isOther⟩ := Option.isSome_iff_exists.mp foundToo
                have formedToo := eachToo key value other last
                  (Dictionary.find?_eq_some_iff.mp isOther)
                rw [isForm, isOther, inductionHypothesis key value form last
                  (Dictionary.find?_eq_some_iff.mp isForm) formedToo]
          exact congrArg (fun dictionary : Dictionary Json => Json.object dictionary.entries) same

/-! ## The text of a value -/

/-- The whole numbers in the JSON form of a value are ones that 64 bits hold. -/
theorem leaves_toJson (value : AttributeValue) : value.toJson.Leaves Json.IsWordLeaf := by
  induction value using holds_of_nested with
  | list items each =>
      refine Json.leavesOfItems_iff.mpr fun json member => ?_
      rw [itemsToJson_eq_map] at member
      obtain ⟨item, isItem, rfl⟩ := List.mem_map.mp member
      exact each item isItem
  | table members each =>
      refine Json.leavesOfMembers_iff.mpr fun json member => ?_
      have isMember := Dictionary.mem_of_mem_entries_ofList json member
      rw [membersToJson_eq_map] at isMember
      obtain ⟨entry, isEntry, rfl⟩ := List.mem_map.mp isMember
      exact each entry isEntry
  | plain value plain =>
      cases value with
      | int value =>
          have least := value.le_toInt
          have greatest := value.toInt_lt
          refine ⟨?_, ?_⟩ <;> omega
      | list items => cases plain
      | table members => cases plain
      | _ => trivial

/-- A nested value becomes the text of its JSON form. -/
theorem tagText?_of_isNested {value : AttributeValue} (nested : value.isNested = true) :
    value.tagText? = some value.toJson.toText := by
  cases value with
  | list items => rfl
  | table members => rfl
  | _ => cases nested

namespace Place

/-- What is nested stays nested at any place. -/
theorem isNested_fill
    {value : AttributeValue}
    (place : Place)
    (nested : value.isNested = true) :
    (place.fill value).isNested = true := by
  cases place with
  | here => exact nested
  | item before place after => rfl
  | member before key place after => rfl

/-- Values with the same JSON form may replace each other at any place. -/
theorem toJson_fill_congr
    {old new : AttributeValue}
    (same : old.toJson = new.toJson)
    (place : Place) :
    (place.fill old).toJson = (place.fill new).toJson := by
  induction place with
  | here => exact same
  | item before place after inductionHypothesis =>
      simp only [fill, toJson, itemsToJson_eq_map, List.map_append, List.map_cons,
        inductionHypothesis]
  | member before key place after inductionHypothesis =>
      simp only [fill, toJson, membersToJson_eq_map, List.map_append, List.map_cons,
        inductionHypothesis]

/-- Tables with the same last values may replace each other at any place. -/
theorem tagText?_fill_table_congr
    {left right : List (String × AttributeValue)}
    (same : ∀ key, lastValue? left key = lastValue? right key)
    (place : Place) :
    (place.fill (.table left)).tagText? = (place.fill (.table right)).tagText? := by
  rw [tagText?_of_isNested (place.isNested_fill rfl),
    tagText?_of_isNested (place.isNested_fill rfl), place.toJson_fill_congr (toJson_table_congr same)]

end Place

/-- A nested value becomes a text of strict JSON, which is one of its JSON form and of no other
value. The text stays the same when a table at any place in the value is replaced by one with
the same last values. -/
theorem tagText?_canonical {value : AttributeValue} (nested : value.isNested = true) :
    (∃ text, value.tagText? = some text ∧ (∃ form, value.HasForm form) ∧
      ∀ json : Json, json.IsValueOf text ↔ value.HasForm json) ∧
    ∀ (place : Place) (left right : List (String × AttributeValue)),
      value = place.fill (.table left) ->
        (∀ key, lastValue? left key = lastValue? right key) ->
          (place.fill (.table right)).tagText? = value.tagText? := by
  have isForm := hasForm_written value
  refine ⟨⟨_, tagText?_of_isNested nested, ⟨_, isForm⟩, fun json => ?_⟩, ?_⟩
  · rw [Json.isValueOf_toText_iff (leaves_toJson value)]
    constructor
    · rintro rfl
      exact isForm
    · exact fun formed => formed.unique isForm
  · rintro place left right rfl same
    exact (place.tagText?_fill_table_congr same).symm

/-- Members with a key that is repeated. -/
def repeatedMembers : List (String × AttributeValue) :=
  [("k", .int 1), ("b", .bytes [1, 2, 3]), ("k", .list [.absent, .text "a\"b", .bool true])]

/-- The members with the repeated key only once, and in another order. -/
def distinctMembers : List (String × AttributeValue) :=
  [("k", .list [.absent, .text "a\"b", .bool true]), ("b", .bytes [1, 2, 3])]

/-- A table with a repeated key behind a number that is not finite. -/
theorem tagText?_canonical_repeatedMembers :
    (AttributeValue.list [.double .infinity, .table repeatedMembers]).isNested = true ∧
      (∀ key, lastValue? repeatedMembers key = lastValue? distinctMembers key) ∧
      (AttributeValue.list [.double .infinity, .table repeatedMembers]).tagText? =
        some "[null,\x7b\"b\":\"AQID\",\"k\":[null,\"a\\\"b\",true]\x7d]" ∧
      (AttributeValue.list [.double .infinity, .table distinctMembers]).tagText? =
        (AttributeValue.list [.double .infinity, .table repeatedMembers]).tagText? := by
  have same : ∀ key, lastValue? repeatedMembers key = lastValue? distinctMembers key := by
    intro key
    simp only [lastValue?, repeatedMembers, distinctMembers, List.reverse_cons, List.reverse_nil,
      List.nil_append, List.cons_append, Dictionary.lookup_cons_entry]
    grind
  have nested : (AttributeValue.list [.double .infinity, .table repeatedMembers]).isNested = true :=
    rfl
  refine ⟨nested, same, by decide +kernel, ?_⟩
  exact (tagText?_canonical nested).2
    (.item [.double .infinity] .here []) repeatedMembers distinctMembers rfl same

end AttributeValue
end LineMetrics
