import LineMetrics.Proofs.Assembling
import LineMetrics.Proofs.SlicedReadings
import LineMetrics.Whole.Observations

/-!
# What a whole distribution states

The fields of a whole distribution are read one by one in the order of their keys. This
comes to looking up the count and the sum and collecting the fields whose keys are finite
numbers, so it succeeds exactly if all of these can be read, and the order of the keys
does not matter.
-/

namespace LineMetrics

namespace Dictionary

variable {α : Type}

/-- An entry with a new key is put in front of others, up to order. -/
theorem insertEntry_perm
    {key : String}
    (value : α)
    {entries : List (String × α)}
    (absent : key ∉ entries.map Prod.fst) :
    (insertEntry key value entries).Perm ((key, value) :: entries) := by
  induction entries with
  | nil => exact .refl _
  | cons first rest inductionHypothesis =>
      have ⟨different, absentBehind⟩ :=
        not_or.mp fun member => absent (List.mem_cons.mpr member)
      rw [insertEntry, if_neg different]
      split
      · exact .refl _
      · exact ((inductionHypothesis absentBehind).cons first).trans (.swap _ _ _)

/-- Entries with new and distinct keys are put behind those of a dictionary, up to
order. -/
theorem foldl_insert_perm
    {entries : List (String × α)}
    (dictionary : Dictionary α)
    (distinct : ((dictionary.entries ++ entries).map Prod.fst).Nodup) :
    (entries.foldl (fun dictionary entry => dictionary.insert entry.1 entry.2)
        dictionary).entries.Perm
      (dictionary.entries ++ entries) := by
  induction entries generalizing dictionary with
  | nil =>
      rw [List.append_nil]
      exact .refl _
  | cons first rest inductionHypothesis =>
      have moved :
          (dictionary.entries ++ first :: rest).Perm
            (first :: dictionary.entries ++ rest) := List.perm_middle
      have distinctMoved := (moved.map Prod.fst).nodup_iff.mp distinct
      rw [List.cons_append, List.map_cons, List.nodup_cons, List.map_append,
        List.mem_append] at distinctMoved
      have inserted :
          (dictionary.insert first.1 first.2).entries.Perm (first :: dictionary.entries) :=
        insertEntry_perm first.2 fun member => distinctMoved.1 (.inl member)
      have perm := inserted.append_right rest
      rw [List.foldl_cons]
      refine (inductionHypothesis _ ?_).trans (perm.trans moved.symm)
      exact ((perm.trans moved.symm).map Prod.fst).nodup_iff.mpr distinct

/-- The dictionary of entries with distinct keys has these entries, up to order. -/
theorem entries_ofList_perm
    {entries : List (String × α)}
    (distinct : (entries.map Prod.fst).Nodup) :
    (ofList entries).entries.Perm entries :=
  foldl_insert_perm empty distinct

/-- Of entries with distinct keys, each is found under its key. -/
theorem find?_ofList
    {entries : List (String × α)}
    {key : String}
    {value : α}
    (distinct : (entries.map Prod.fst).Nodup)
    (member : (key, value) ∈ entries) :
    (ofList entries).find? key = some value :=
  find?_eq_some_iff.mpr ((entries_ofList_perm distinct).mem_iff.mpr member)

/-- Entries with other keys do not change what is found under a key. -/
theorem find?_foldl_insert
    {entries : List (String × α)}
    {key : String}
    (dictionary : Dictionary α)
    (absent : ∀ entry ∈ entries, entry.1 ≠ key) :
    (entries.foldl (fun dictionary entry => dictionary.insert entry.1 entry.2)
        dictionary).find? key =
      dictionary.find? key := by
  induction entries generalizing dictionary with
  | nil => rfl
  | cons first rest inductionHypothesis =>
      obtain ⟨different, absentBehind⟩ := List.forall_mem_cons.mp absent
      rw [List.foldl_cons, inductionHypothesis _ absentBehind, find?_insert,
        if_neg (Ne.symm different)]

/-- To remove the key of one entry is to keep the others. -/
theorem entries_erase_perm
    {dictionary : Dictionary α}
    {entry : String × α}
    {rest : List (String × α)}
    (perm : dictionary.entries.Perm (entry :: rest))
    (different : ∀ other ∈ rest, other.1 ≠ entry.1) :
    (dictionary.erase entry.1).entries.Perm rest := by
  have kept :
      (entry :: rest).filter (fun other => decide (other.1 ≠ entry.1)) = rest := by
    rw [List.filter_cons_of_neg fun apart => (of_decide_eq_true apart) rfl]
    exact List.filter_eq_self.mpr fun other member => decide_eq_true (different other member)
  exact (perm.filter _).trans (.of_eq kept)

end Dictionary

namespace Whole

variable {α β ε : Type} {readPart : String -> FieldValue -> Except Error α}

/-- The part that a field states, if its key is a finite number. -/
def statedPart?
    (readPart : String -> FieldValue -> Except Error α)
    (entry : String × FieldValue) : Option (Binary64 × α) :=
  (Binary64.ofFiniteKey? entry.1).bind fun place =>
    (readPart entry.1 entry.2).toOption.map (place, ·)

/-- A stated part has its place from the key and its value from the field. -/
theorem statedPart?_eq_some
    {entry : String × FieldValue}
    {part : Binary64 × α}
    (stated : statedPart? readPart entry = some part) :
    Binary64.ofFiniteKey? entry.1 = some part.1 ∧
      readPart entry.1 entry.2 = .ok part.2 := by
  obtain ⟨place, isPlace, paired⟩ := Option.bind_eq_some_iff.mp stated
  obtain ⟨value, read, rfl⟩ := Option.map_eq_some_iff.mp paired
  refine ⟨isPlace, ?_⟩
  cases result : readPart entry.1 entry.2 with
  | error error =>
      rw [result] at read
      cases read
  | ok other =>
      rw [result] at read
      exact congrArg Except.ok (Option.some.inj read)

/-- The count that fields state. -/
def statedCount? (fields : Fields) : Option UInt64 :=
  (fields.find? ReservedName.count).bind fun value =>
    (value.toCount ReservedName.count).toOption

/-- The sum that fields state. -/
def statedSum? (fields : Fields) : Option Binary64 :=
  (fields.find? ReservedName.sum).bind fun value =>
    (value.toDouble ReservedName.sum).toOption

/-- A field whose key is a finite number states a part. -/
def StatesParts
    (readPart : String -> FieldValue -> Except Error α)
    (entries : List (String × FieldValue)) : Prop :=
  ∀ entry ∈ entries, ∀ place, Binary64.ofFiniteKey? entry.1 = some place ->
    (readPart entry.1 entry.2).isOk

/-- The keys of the count and the sum are not numbers. -/
theorem reserved_not_numbers :
    ReservedName.sum ≠ ReservedName.count ∧
      Binary64.ofFiniteKey? ReservedName.count = none ∧
      Binary64.ofFiniteKey? ReservedName.sum = none := by decide

/-- The fields of a distribution with one more field that can be read. -/
def DistributionFields.with
    (readPart : String -> FieldValue -> Except Error α)
    (fields : DistributionFields α)
    (entry : String × FieldValue) : DistributionFields α where
  count :=
    if entry.1 = ReservedName.count then (entry.2.toCount entry.1).toOption
    else fields.count
  sum :=
    if entry.1 = ReservedName.sum then (entry.2.toDouble entry.1).toOption else fields.sum
  parts := fields.parts ++ (statedPart? readPart entry).toList

/-- The field can be read, as far as it belongs to a distribution. -/
structure CanRead
    (readPart : String -> FieldValue -> Except Error α)
    (entry : String × FieldValue) : Prop where
  count : entry.1 = ReservedName.count -> (entry.2.toCount entry.1).isOk
  sum : entry.1 = ReservedName.sum -> (entry.2.toDouble entry.1).isOk
  part : ∀ place, Binary64.ofFiniteKey? entry.1 = some place ->
    (readPart entry.1 entry.2).isOk

theorem ok_eq_ok_iff {value other : β} : (Except.ok value : Except ε β) = .ok other ↔
    other = value := by
  rw [Except.ok.injEq, eq_comm]

/-- What is made of a value that is read is made exactly if the value can be read. -/
theorem bind_ok_eq_ok_iff (read : Except ε α) (made : Option α -> β) {result : β} :
    (do
        let value <- read
        .ok (made (some value))) = .ok result ↔
      read.isOk = true ∧ result = made read.toOption := by
  cases read with
  | error error =>
      refine iff_of_false (fun fails => ?_) fun reads => ?_
      · cases fails
      · cases reads.1
  | ok value =>
      have reads : (Except.ok value : Except ε α).isOk = true := rfl
      rw [and_iff_right reads]
      exact ok_eq_ok_iff

/-- A field with the key of the count can be read if its count can. -/
theorem canRead_count {value : FieldValue} :
    CanRead readPart (ReservedName.count, value) ↔
      (value.toCount ReservedName.count).isOk := by
  obtain ⟨apart, noPlace, -⟩ := reserved_not_numbers
  refine ⟨fun canRead => canRead.count rfl, fun readable => ⟨fun _ => readable, ?_, ?_⟩⟩
  · exact fun isSum => absurd isSum (Ne.symm apart)
  · intro place isPlace
    rw [noPlace] at isPlace
    cases isPlace

/-- A field with the key of the sum can be read if its sum can. -/
theorem canRead_sum {value : FieldValue} :
    CanRead readPart (ReservedName.sum, value) ↔ (value.toDouble ReservedName.sum).isOk := by
  obtain ⟨apart, -, noPlace⟩ := reserved_not_numbers
  refine ⟨fun canRead => canRead.sum rfl, fun readable => ⟨?_, fun _ => readable, ?_⟩⟩
  · exact fun isCount => absurd isCount apart
  · intro place isPlace
    rw [noPlace] at isPlace
    cases isPlace

/-- A field is taken into account exactly if it can be read. -/
theorem add_eq_ok_iff
    {fields next : DistributionFields α}
    {entry : String × FieldValue} :
    fields.add readPart entry = .ok next ↔
      CanRead readPart entry ∧ next = fields.with readPart entry := by
  obtain ⟨key, value⟩ := entry
  obtain ⟨apart, countNoPlace, sumNoPlace⟩ := reserved_not_numbers
  unfold DistributionFields.add DistributionFields.with statedPart?
  dsimp only
  by_cases isCount : key = ReservedName.count
  · subst isCount
    rw [if_pos rfl, if_pos rfl, if_neg (Ne.symm apart), countNoPlace, Option.bind_none,
      Option.toList_none, List.append_nil, canRead_count]
    exact bind_ok_eq_ok_iff _ fun count => { fields with count }
  rw [if_neg isCount, if_neg isCount]
  by_cases isSum : key = ReservedName.sum
  · subst isSum
    rw [if_pos rfl, if_pos rfl, sumNoPlace, Option.bind_none, Option.toList_none,
      List.append_nil, canRead_sum]
    exact bind_ok_eq_ok_iff _ fun sum => { fields with sum }
  rw [if_neg isSum, if_neg isSum]
  have canRead_iff :
      CanRead readPart (key, value) ↔
        ∀ place, Binary64.ofFiniteKey? key = some place -> (readPart key value).isOk :=
    ⟨CanRead.part, fun part =>
      ⟨fun same => absurd same isCount, fun same => absurd same isSum, part⟩⟩
  rw [canRead_iff]
  cases isPlace : Binary64.ofFiniteKey? key with
  | none =>
      have noPart (place : Binary64) (same : none = some place) :
          (readPart key value).isOk = true := by
        cases same
      rw [and_iff_right noPart, Option.bind_none, Option.toList_none, List.append_nil]
      exact ok_eq_ok_iff
  | some place =>
      simp only [Option.some.injEq, forall_eq']
      exact bind_ok_eq_ok_iff _ fun part =>
        { fields with parts := fields.parts ++ (part.map (place, ·)).toList }

/-- Fields are taken into account exactly if all of them can be read. -/
theorem foldlM_add_eq_ok_iff
    {fields result : DistributionFields α}
    {entries : List (String × FieldValue)} :
    entries.foldlM (DistributionFields.add readPart) fields = .ok result ↔
      (∀ entry ∈ entries, CanRead readPart entry) ∧
        result = entries.foldl (DistributionFields.with readPart) fields := by
  induction entries generalizing fields with
  | nil =>
      rw [List.foldlM_nil, List.foldl_nil, and_iff_right fun _ member => nomatch member]
      exact ok_eq_ok_iff
  | cons entry entries inductionHypothesis =>
      rw [List.foldlM_cons, List.forall_mem_cons, List.foldl_cons, and_assoc]
      constructor
      · intro succeeds
        obtain ⟨next, added, others⟩ := exists_of_bind_eq_ok succeeds
        obtain ⟨canRead, rfl⟩ := add_eq_ok_iff.mp added
        exact ⟨canRead, inductionHypothesis.mp others⟩
      · rintro ⟨canRead, others⟩
        rw [add_eq_ok_iff.mpr ⟨canRead, rfl⟩]
        exact inductionHypothesis.mpr others

/-- The parts are those of the fields whose keys are finite numbers, in their order. -/
theorem parts_foldl_with
    (readPart : String -> FieldValue -> Except Error α)
    (fields : DistributionFields α)
    (entries : List (String × FieldValue)) :
    (entries.foldl (DistributionFields.with readPart) fields).parts =
      fields.parts ++ entries.filterMap (statedPart? readPart) := by
  induction entries generalizing fields with
  | nil => rw [List.foldl_nil, List.filterMap_nil, List.append_nil]
  | cons entry entries inductionHypothesis =>
      rw [List.foldl_cons, inductionHypothesis, DistributionFields.with, List.append_assoc,
        List.filterMap_cons]
      cases statedPart? readPart entry <;> rfl

/-- What the field with a certain key sets, and no other field does, is what the field
with that key states. -/
theorem view_foldl_with
    (readPart : String -> FieldValue -> Except Error α)
    {entries : List (String × FieldValue)}
    (view : DistributionFields α -> Option β)
    (key : String)
    (read : FieldValue -> Option β)
    (view_with : ∀ fields entry,
      view (DistributionFields.with readPart fields entry) =
        if entry.1 = key then read entry.2 else view fields)
    (ascending : entries.Pairwise fun left right => left.1 < right.1)
    (fields : DistributionFields α) :
    view (entries.foldl (DistributionFields.with readPart) fields) =
      ((entries.lookup key).map read).getD (view fields) := by
  induction entries generalizing fields with
  | nil => rfl
  | cons entry entries inductionHypothesis =>
      rw [List.foldl_cons, inductionHypothesis (List.pairwise_cons.mp ascending).2,
        view_with, Dictionary.lookup_cons_entry]
      by_cases same : key = entry.1
      · -- keys ascend, so no later field has this key
        rw [same, if_pos rfl, if_pos rfl, Dictionary.lookup_eq_none_of_ascending ascending]
        rfl
      · rw [if_neg same, if_neg (Ne.symm same)]

/-- Fields that can be read come to what they state. -/
theorem foldl_with_entries
    (readPart : String -> FieldValue -> Except Error α)
    (fields : Fields) :
    fields.entries.foldl (DistributionFields.with readPart) {} =
      ⟨statedCount? fields, statedSum? fields,
        fields.entries.filterMap (statedPart? readPart)⟩ := by
  have count := view_foldl_with readPart DistributionFields.count
    ReservedName.count (fun value => (value.toCount ReservedName.count).toOption)
    (fun fields entry => by
      rw [DistributionFields.with]
      by_cases same : entry.1 = ReservedName.count
      · rw [if_pos same, if_pos same, same]
      · rw [if_neg same, if_neg same])
    fields.ascending {}
  have sum := view_foldl_with readPart DistributionFields.sum
    ReservedName.sum (fun value => (value.toDouble ReservedName.sum).toOption)
    (fun fields entry => by
      rw [DistributionFields.with]
      by_cases same : entry.1 = ReservedName.sum
      · rw [if_pos same, if_pos same, same]
      · rw [if_neg same, if_neg same])
    fields.ascending {}
  have parts := parts_foldl_with readPart {} fields.entries
  rw [<- Dictionary.find?] at count sum
  rw [statedCount?, statedSum?]
  generalize fields.entries.foldl (DistributionFields.with readPart) {} = result
    at count sum parts
  obtain ⟨resultCount, resultSum, resultParts⟩ := result
  dsimp only at count sum parts
  rw [count, sum, parts]
  cases fields.find? ReservedName.count <;> cases fields.find? ReservedName.sum <;> rfl

/-- All fields can be read if the count, the sum and the parts can. -/
theorem canRead_of_states
    {fields : Fields}
    (count : (statedCount? fields).isSome)
    (sum : (statedSum? fields).isSome)
    (parts : StatesParts readPart fields.entries) :
    ∀ entry ∈ fields.entries, CanRead readPart entry := by
  rintro ⟨key, value⟩ member
  have found := Dictionary.find?_eq_some_iff.mpr member
  refine ⟨?_, ?_, parts (key, value) member⟩
  · rintro rfl
    rw [statedCount?, found, Option.bind_some] at count
    cases read : value.toCount ReservedName.count with
    | ok count => rfl
    | error error =>
        rw [read] at count
        cases count
  · rintro rfl
    rw [statedSum?, found, Option.bind_some] at sum
    cases read : value.toDouble ReservedName.sum with
    | ok sum => rfl
    | error error =>
        rw [read] at sum
        cases sum

/-- A point states a distribution if its fields state a count and a sum, and every field
whose key is a finite number states a part. -/
theorem distribution_eq_ok_iff
    {kind : Distribution}
    {point : Point}
    {count : UInt64}
    {sum : Binary64}
    {parts : List (Binary64 × α)} :
    distribution kind readPart point = .ok (count, sum, parts) ↔
      StatesParts readPart point.fields.entries ∧
        statedCount? point.fields = some count ∧
        statedSum? point.fields = some sum ∧
        parts =
          Assembly.inOrder (point.fields.entries.filterMap (statedPart? readPart)) := by
  constructor
  · intro succeeds
    obtain ⟨fields, read, result⟩ := exists_of_bind_eq_ok succeeds
    obtain ⟨canRead, rfl⟩ := foldlM_add_eq_ok_iff.mp read
    rw [foldl_with_entries] at result
    refine ⟨fun entry member => (canRead entry member).part, ?_⟩
    dsimp only at result
    cases stated : statedCount? point.fields with
    | none =>
        rw [stated] at result
        cases result
    | some count =>
        cases statedSum : statedSum? point.fields with
        | none =>
            rw [stated, statedSum] at result
            cases result
        | some sum =>
            rw [stated, statedSum] at result
            cases result
            exact ⟨rfl, rfl, rfl⟩
  · rintro ⟨statesParts, stated, statedSum, rfl⟩
    have canRead := canRead_of_states
      (by rw [stated]; rfl) (by rw [statedSum]; rfl) statesParts
    have read := foldlM_add_eq_ok_iff.mpr
      ⟨canRead, (foldl_with_entries readPart point.fields).symm⟩
    rw [distribution, read, stated, statedSum]
    rfl

/-- The field states a part of a distribution. -/
def StatesPart
    (readPart : String -> FieldValue -> Except Error α)
    (entry : String × FieldValue) : Prop :=
  ∃ part, statedPart? readPart entry = some part

/-- What states a part has a finite number for its key, and can be read. -/
theorem StatesPart.read
    {entry : String × FieldValue}
    (states : StatesPart readPart entry) :
    (Binary64.ofFiniteKey? entry.1).isSome ∧ (readPart entry.1 entry.2).isOk := by
  obtain ⟨part, stated⟩ := states
  obtain ⟨isPlace, read⟩ := statedPart?_eq_some stated
  rw [isPlace, read]
  exact ⟨rfl, rfl⟩

/-- Parts with different places have different keys. -/
theorem nodup_keys_of_places
    {entries : List (String × FieldValue)}
    (states : ∀ entry ∈ entries, StatesPart readPart entry)
    (distinct : ((entries.filterMap (statedPart? readPart)).map Prod.fst).Nodup) :
    (entries.map Prod.fst).Nodup := by
  rw [List.Nodup, List.pairwise_map, List.pairwise_filterMap] at distinct
  rw [List.Nodup, List.pairwise_map]
  apply distinct.imp_of_mem
  intro left right leftMember rightMember apart same
  obtain ⟨leftPart, leftStated⟩ := states left leftMember
  obtain ⟨rightPart, rightStated⟩ := states right rightMember
  apply apart leftPart leftStated rightPart rightStated
  have leftPlace := (statedPart?_eq_some leftStated).1
  rw [same, (statedPart?_eq_some rightStated).1] at leftPlace
  exact (Option.some.inj leftPlace).symm

/-- Fields with different keys are different from a count and a sum, if none of them has the
key of either. -/
theorem nodup_keys_cons_totals
    {entries : List (String × FieldValue)}
    (countValue sumValue : FieldValue)
    (noCount : ∀ entry ∈ entries, entry.1 ≠ ReservedName.count)
    (noSum : ∀ entry ∈ entries, entry.1 ≠ ReservedName.sum)
    (distinct : (entries.map Prod.fst).Nodup) :
    (((ReservedName.count, countValue) :: (ReservedName.sum, sumValue) :: entries).map
      Prod.fst).Nodup := by
  have absent {key : String} (other : ∀ entry ∈ entries, entry.1 ≠ key) :
      key ∉ entries.map Prod.fst := by
    rintro member
    obtain ⟨entry, entryMember, same⟩ := List.mem_map.mp member
    exact other entry entryMember same
  rw [List.map_cons, List.map_cons, List.nodup_cons, List.nodup_cons, List.mem_cons, not_or]
  exact ⟨⟨Ne.symm reserved_not_numbers.1, absent noCount⟩, absent noSum, distinct⟩

/-- A count, a sum and parts with different places have different keys. -/
theorem nodup_keys_of_totals
    {entries : List (String × FieldValue)}
    (countValue sumValue : FieldValue)
    (states : ∀ entry ∈ entries, StatesPart readPart entry)
    (distinct : ((entries.filterMap (statedPart? readPart)).map Prod.fst).Nodup) :
    (((ReservedName.count, countValue) :: (ReservedName.sum, sumValue) :: entries).map
      Prod.fst).Nodup := by
  obtain ⟨-, countNoPlace, sumNoPlace⟩ := reserved_not_numbers
  have notReserved {key : String} (noPlace : Binary64.ofFiniteKey? key = none) :
      ∀ entry ∈ entries, entry.1 ≠ key := by
    rintro entry member rfl
    have isPlace := (states entry member).read.1
    rw [noPlace] at isPlace
    cases isPlace
  exact nodup_keys_cons_totals countValue sumValue (notReserved countNoPlace)
    (notReserved sumNoPlace) (nodup_keys_of_places states distinct)

/-- A point made of a count, a sum and parts with different places, in any order, states
these. -/
theorem distribution_ofList
    {point : Point}
    {countValue sumValue : FieldValue}
    {count : UInt64}
    {sum : Binary64}
    {entries : List (String × FieldValue)}
    (kind : Distribution)
    (made : point.fields =
      .ofList ((ReservedName.count, countValue) :: (ReservedName.sum, sumValue) :: entries))
    (counts : countValue.toCount ReservedName.count = .ok count)
    (sums : sumValue.toDouble ReservedName.sum = .ok sum)
    (states : ∀ entry ∈ entries, StatesPart readPart entry)
    (distinct : ((entries.filterMap (statedPart? readPart)).map Prod.fst).Nodup) :
    distribution kind readPart point =
      .ok (count, sum, Assembly.inOrder (entries.filterMap (statedPart? readPart))) := by
  obtain ⟨-, countNoPlace, sumNoPlace⟩ := reserved_not_numbers
  have distinctKeys := nodup_keys_of_totals countValue sumValue states distinct
  have perm := Dictionary.entries_ofList_perm distinctKeys
  have parts :
      ((ReservedName.count, countValue) :: (ReservedName.sum, sumValue) ::
          entries).filterMap (statedPart? readPart) =
        entries.filterMap (statedPart? readPart) := by
    rw [List.filterMap_cons, List.filterMap_cons, statedPart?, statedPart?, countNoPlace,
      sumNoPlace]
    rfl
  rw [distribution_eq_ok_iff, made, statedCount?, statedSum?,
    Dictionary.find?_ofList distinctKeys List.mem_cons_self,
    Dictionary.find?_ofList distinctKeys (List.mem_cons_of_mem _ List.mem_cons_self),
    Option.bind_some, Option.bind_some, counts, sums]
  refine ⟨?_, rfl, rfl, ?_⟩
  · intro entry member place isPlace
    rcases List.mem_cons.mp (perm.mem_iff.mp member) with rfl | behind
    · exact nomatch countNoPlace.symm.trans isPlace
    · rcases List.mem_cons.mp behind with rfl | isPart
      · exact nomatch sumNoPlace.symm.trans isPlace
      · exact (states entry isPart).read.2
  · have partsPerm := (perm.filterMap (statedPart? readPart)).symm
    rw [parts] at partsPerm
    exact Assembly.inOrder_eq_of_perm partsPerm distinct

end Whole
end LineMetrics
