import LineMetrics.Sliced.Points
import LineMetrics.Proofs.NumberText
import LineMetrics.Proofs.Reassembling

/-!
# Reading sliced points back

A point that was written for a data point of a gauge or a counter says that data point,
and one that was written for a slice says that slice, with its count as it is read
again: the levels of its tags are those of the place in the tree, and what selects the
slice is told from the attributes by its key.
-/

namespace LineMetrics

/-- The place of metrics under a resource and a scope. -/
def Placement.of (resource : Tags) (scope : Scope) : Placement :=
  ⟨Attribute.ofTags resource, some scope⟩

/-- The count of a slice, if it has one, is a binary64 number. -/
def Slice.IsExact : Slice -> Prop
  | .bucket _ count => count.toNat ≤ 2 ^ 53
  | .quantile .. => True
  | .total count _ => count.toNat ≤ 2 ^ 53

/-- A slice whose count is a binary64 number is read again as it was. -/
theorem Slice.restated_of_isExact {slice : Slice} (exactCount : slice.IsExact) :
    slice.restated = slice := by
  cases slice with
  | bucket bound count => rw [restated, restatedCount_of_le exactCount]
  | quantile place value => rfl
  | total count sum => rw [restated, restatedCount_of_le exactCount]

namespace Sliced

/-- Whenever it arrives, the point says this observation and no other one. -/
def Says (point : Point) (observation : Observation) : Prop :=
  point.time ≠ 0 ∧ ∀ now, observations now point = .ok [observation]

/-- The hint of a point with a slice. -/
def sliceHint (preferSummary : Bool) : TypeHint :=
  if preferSummary then .summary else .histogram

/-- The point that a slice is written as. -/
def slicePoint (point : Point) (metric : String) : Slice -> Point
  | .bucket bound total => bucketPoint point metric bound.keyText total
  | .quantile place value => quantilePoint point metric ⟨place, value⟩
  | .total count sum => totalPoint point metric count sum

/-- The stem of a key is found in front of its ending. -/
@[simp] theorem stem?_append (stem ending : String) :
    stem? ending (stem ++ ending) = some stem := by
  have isEnding : ending.toList.isSuffixOf (stem ++ ending).toList = true := by
    rw [String.toList_append, List.isSuffixOf_iff_suffix]
    exact List.suffix_append _ _
  rw [stem?, if_pos isEnding, String.toList_append, List.length_append,
    Nat.add_sub_cancel, List.take_left, String.ofList_toList]

/-- The field with the sum is not taken for one with the count. -/
@[simp] theorem stem?_countEnding_sum (stem : String) :
    stem? ReservedName.countEnding (stem ++ ReservedName.sumEnding) = none := by
  have notEnding :
      ReservedName.countEnding.toList.isSuffixOf (stem ++ ReservedName.sumEnding).toList =
        false := by
    rw [List.isSuffixOf, String.toList_append, List.reverse_append]
    rfl
  rw [stem?, notEnding, if_neg Bool.false_ne_true]

/-- A key with an ending is not empty. -/
theorem append_ne_empty (stem : String) {ending : String} (nonempty : ending ≠ "") :
    stem ++ ending ≠ "" := by
  intro empty
  have noCharacters := congrArg String.toList empty
  rw [String.toList_append] at noCharacters
  have noEnding := (List.append_eq_nil_iff.mp noCharacters).2
  exact nonempty (String.toList_inj.mp noEnding)

end Sliced

namespace Dictionary

/-- Nothing is lost if all entries satisfy the condition. -/
theorem filter_eq_self
    {dictionary : Dictionary α}
    {condition : String -> α -> Bool}
    (all : ∀ entry ∈ dictionary.entries, condition entry.1 entry.2 = true) :
    dictionary.filter condition = dictionary :=
  Dictionary.ext (List.filter_eq_self.mpr all)

/-- A key that is not there cannot be removed. -/
theorem erase_eq_self
    {dictionary : Dictionary α}
    {key : String}
    (absent : dictionary.find? key = none) :
    dictionary.erase key = dictionary := by
  apply ext_find?
  intro other
  rw [find?_erase]
  by_cases same : other = key
  · rw [if_pos same, same, absent]
  · rw [if_neg same]

/-- A new key is removed without a trace. -/
theorem erase_insert
    {dictionary : Dictionary α}
    {key : String}
    (value : α)
    (absent : dictionary.find? key = none) :
    (dictionary.insert key value).erase key = dictionary := by
  apply ext_find?
  intro other
  rw [find?_erase, find?_insert]
  by_cases same : other = key
  · rw [if_pos same, same, absent]
  · rw [if_neg same, if_neg same]

/-- Two entries stand in one of the two orders. -/
theorem entries_insert_insert
    {first second : String}
    (firstValue secondValue : α)
    (different : first ≠ second) :
    (((∅ : Dictionary α).insert first firstValue).insert second secondValue).entries =
        [(first, firstValue), (second, secondValue)] ∨
      (((∅ : Dictionary α).insert first firstValue).insert second secondValue).entries =
        [(second, secondValue), (first, firstValue)] := by
  rw [entries_insert, entries_insert, entries_empty]
  simp only [insertEntry]
  by_cases below : second < first
  · exact .inr (if_pos below)
  · rw [if_neg below, if_neg (Ne.symm different)]
    exact .inl rfl

end Dictionary

namespace Sliced

/-- A point whose fields all have keys is read as it is. -/
theorem observations_of_named
    {point : Point}
    (now : UInt64)
    (measured : point.measurement = ReservedName.prometheus)
    (named : ∀ entry ∈ point.fields.entries, entry.1 ≠ "") :
    observations now point = (observation point (point.timeOr now)).map ([·]) := by
  have kept : (point.fields.filter fun key _ => key ≠ "") = point.fields :=
    Dictionary.filter_eq_self fun entry member => decide_eq_true (named entry member)
  rw [observations, if_neg (not_not_intro measured), kept]

/-- A point with a time and fields that all have keys says what it is read as. -/
theorem says_of_observation
    {point : Point}
    {observation : Observation}
    (measured : point.measurement = ReservedName.prometheus)
    (timed : point.time ≠ 0)
    (named : ∀ entry ∈ point.fields.entries, entry.1 ≠ "")
    (read : Sliced.observation point point.time = .ok observation) :
    Says point observation := by
  refine ⟨timed, fun now => ?_⟩
  rw [observations_of_named now measured named, Point.timeOr, if_neg timed, read]
  rfl

/-- The hint of a point, if it has one, decides on its type. -/
theorem typeOf_of_hint {point : Point} (hinted : point.hint ≠ .untyped) :
    typeOf point = point.hint := by
  rw [typeOf, if_pos hinted]

/-- The tags of a bare point split into the levels of its place. -/
theorem split_tags_bare
    {levels : TagLevels}
    (separated : levels.Separated)
    (time : UInt64)
    (hint : TypeHint) :
    TagLevels.split
        (bare (.of levels.resource levels.scope) (Attribute.ofTags levels.attributes)
          time hint).tags =
      levels :=
  TagLevels.split_merge separated

/-- The point for a data point of a gauge or a counter says it. -/
theorem says_numberPoint
    {levels : TagLevels}
    {metric kind : String}
    {time : UInt64}
    {hint : TypeHint}
    {reading : NumberPoint -> Reading}
    (number : Number)
    (hinted : ∀ point : Point, point.hint = hint -> ∀ time,
      Sliced.observation point time = numberObservation kind reading point time)
    (separated : levels.Separated)
    (named : metric ≠ "")
    (timed : time ≠ 0) :
    Says
      ((bare (.of levels.resource levels.scope) (Attribute.ofTags levels.attributes)
        time hint).withField metric (.ofNumber number))
      (.under levels metric <|
        reading ⟨Attribute.ofTags levels.attributes, 0, time, some number⟩) := by
  have entries :
      ((bare (.of levels.resource levels.scope) (Attribute.ofTags levels.attributes)
        time hint).withField metric (.ofNumber number)).fields.entries =
        [(metric, .ofNumber number)] := rfl
  refine says_of_observation rfl timed ?_ ?_
  · intro entry member
    rw [entries, List.mem_singleton] at member
    rw [member]
    exact named
  · rw [hinted _ rfl, numberObservation, entries]
    dsimp only
    rw [FieldValue.toNumber_ofNumber]
    change Except.ok (Observation.under (TagLevels.split _) metric _) = _
    rw [Point.withField, split_tags_bare separated]
    rfl

/-- The slice in the fields of a point with some attributes. -/
def selectedSlice (attributes : Tags) (fields : Fields) : Except Error (String × Slice) :=
  match attributes.find? ReservedName.bucketBound,
      attributes.find? ReservedName.quantile with
  | some bound, _ => bucketSlice fields bound
  | none, some quantile => quantileSlice fields quantile
  | none, none => totalSlice fields

/-- The observation of a slice is that of the selected one, under the tags that do not
select it. -/
theorem sliceObservation_eq
    {point : Point}
    {levels : TagLevels}
    (preferSummary : Bool)
    (time : UInt64)
    (split : TagLevels.split point.tags = levels) :
    sliceObservation preferSummary point time =
      (selectedSlice levels.attributes point.fields).map fun (metric, slice) =>
        .under levels metric <|
          .slice preferSummary
            ⟨time,
              (levels.attributes.erase ReservedName.bucketBound).erase ReservedName.quantile⟩
            slice := by
  rw [sliceObservation, split]
  dsimp only
  rw [selectedSlice]
  cases levels.attributes.find? ReservedName.bucketBound with
  | some text => cases bucketSlice point.fields text <;> rfl
  | none =>
      cases levels.attributes.find? ReservedName.quantile with
      | some text => cases quantileSlice point.fields text <;> rfl
      | none => cases totalSlice point.fields <;> rfl

/-- The fields of a total are its count and its sum, in one order or the other. -/
theorem entries_totalFields
    {fields : Fields}
    {metric : String}
    {countValue sumValue : FieldValue}
    (made : fields =
      ((∅ : Fields).insert (metric ++ ReservedName.countEnding) countValue).insert
        (metric ++ ReservedName.sumEnding) sumValue) :
    fields.entries =
        [(metric ++ ReservedName.countEnding, countValue),
          (metric ++ ReservedName.sumEnding, sumValue)] ∨
      fields.entries =
        [(metric ++ ReservedName.sumEnding, sumValue),
          (metric ++ ReservedName.countEnding, countValue)] := by
  have different :
      metric ++ ReservedName.countEnding ≠ metric ++ ReservedName.sumEnding := by
    intro same
    have stem := stem?_countEnding_sum metric
    rw [<- same, stem?_append] at stem
    cases stem
  rw [made]
  exact Dictionary.entries_insert_insert countValue sumValue different

/-- The fields of a total have keys. -/
theorem named_totalFields
    {fields : Fields}
    {metric : String}
    {countValue sumValue : FieldValue}
    (made : fields =
      ((∅ : Fields).insert (metric ++ ReservedName.countEnding) countValue).insert
        (metric ++ ReservedName.sumEnding) sumValue) :
    ∀ entry ∈ fields.entries, entry.1 ≠ "" := by
  intro entry member
  rw [made] at member
  rcases Dictionary.key_of_mem_insertEntry member with rfl | earlier
  · exact append_ne_empty metric (by decide)
  · rw [List.mem_singleton.mp earlier]
    exact append_ne_empty metric (by decide)

/-- The fields of a total state it, in whichever order they stand. -/
theorem totalSlice_fields
    {fields : Fields}
    {metric : String}
    {countValue sumValue : FieldValue}
    {count : UInt64}
    {sum : Binary64}
    (counts : countValue.toCount (metric ++ ReservedName.countEnding) = .ok count)
    (sums : sumValue.toDouble (metric ++ ReservedName.sumEnding) = .ok sum)
    (made : fields =
      ((∅ : Fields).insert (metric ++ ReservedName.countEnding) countValue).insert
        (metric ++ ReservedName.sumEnding) sumValue) :
    totalSlice fields = .ok (metric, .total count sum) := by
  have found : fields.find? (metric ++ ReservedName.sumEnding) = some sumValue := by
    rw [made, Dictionary.find?_insert, if_pos rfl]
  rcases entries_totalFields made with entries | entries <;>
    simp [totalSlice, entries, found, counts, sums, bind, Except.bind]

/-- The field of a bucket states it. -/
theorem bucketSlice_fields
    {fields : Fields}
    {key metric : String}
    {bound : Binary64}
    {value : FieldValue}
    {count : UInt64}
    (stated : Binary64.ofKey? key = some bound)
    (counts : value.toCount (metric ++ ReservedName.bucketEnding) = .ok count)
    (made : fields.entries = [(metric ++ ReservedName.bucketEnding, value)]) :
    bucketSlice fields key = .ok (metric, .bucket bound count) := by
  rw [bucketSlice, stated]
  dsimp only
  rw [made, List.findSome?_cons, stem?_append]
  dsimp only [Option.map_some]
  rw [counts]
  rfl

/-- The field of a quantile states it. -/
theorem quantileSlice_fields
    {fields : Fields}
    {key metric : String}
    {place double : Binary64}
    {value : FieldValue}
    (stated : Binary64.ofFiniteKey? key = some place)
    (read : value.toDouble metric = .ok double)
    (made : fields.entries = [(metric, value)]) :
    quantileSlice fields key = .ok (metric, .quantile place double) := by
  rw [quantileSlice, stated]
  dsimp only
  rw [made]
  dsimp only
  rw [read]
  rfl

/-- A point of the type of a slice is read as one. -/
theorem observation_of_typeOf
    {point : Point}
    {preferSummary : Bool}
    (time : UInt64)
    (typed : typeOf point = sliceHint preferSummary) :
    observation point time = sliceObservation preferSummary point time := by
  rw [observation, typed]
  cases preferSummary <;> rfl

/-- The hint of a point with a slice makes it one. -/
theorem typeOf_of_sliceHint
    {point : Point}
    {preferSummary : Bool}
    (hinted : point.hint = sliceHint preferSummary) :
    typeOf point = sliceHint preferSummary := by
  rw [typeOf_of_hint, hinted]
  rw [hinted]
  cases preferSummary <;> decide

/-- The tag of a bucket and that of a quantile are on the level of the attributes, and
differ. -/
theorem selectors_apart :
    TagLevels.isAttributeLevel ReservedName.bucketBound = true ∧
      TagLevels.isAttributeLevel ReservedName.quantile = true ∧
      ReservedName.quantile ≠ ReservedName.bucketBound := by decide +kernel

/-- The point without fields that the slices of a series are added to. -/
def seriesPoint (preferSummary : Bool) (time : UInt64) (levels : TagLevels) : Point :=
  bare (.of levels.resource levels.scope) (Attribute.ofTags levels.attributes) time
    (sliceHint preferSummary)

/-- A point that is read as a slice of a series: it has the common measurement and a
time. -/
structure HoldsSlice (preferSummary : Bool) (time : UInt64) (point : Point) : Prop where
  measured : point.measurement = ReservedName.prometheus
  timed : point.time ≠ 0
  time : point.time = time
  typed : typeOf point = sliceHint preferSummary

variable {point : Point} {levels : TagLevels} {metric : String} {time : UInt64}
  {preferSummary : Bool}

/-- What is selected by the tags of a point with a slice is what the point says. -/
theorem HoldsSlice.says_of_selected
    {slice : Slice}
    (holds : HoldsSlice preferSummary time point)
    (named : ∀ entry ∈ point.fields.entries, entry.1 ≠ "")
    (split : TagLevels.split point.tags = levels)
    (selected : selectedSlice levels.attributes point.fields = .ok (metric, slice)) :
    Says point
      (.under levels metric <|
        .slice preferSummary
          ⟨time,
            (levels.attributes.erase ReservedName.bucketBound).erase ReservedName.quantile⟩
          slice) := by
  refine says_of_observation holds.measured holds.timed named ?_
  rw [observation_of_typeOf _ holds.typed, sliceObservation_eq preferSummary _ split,
    selected, holds.time]
  rfl

/-- A point with the fields of a total says it. -/
theorem HoldsSlice.says_total
    {countValue sumValue : FieldValue}
    {count : UInt64}
    {sum : Binary64}
    (holds : HoldsSlice preferSummary time point)
    (split : TagLevels.split point.tags = levels)
    (series : SeriesTags levels.attributes)
    (made : point.fields =
      ((∅ : Fields).insert (metric ++ ReservedName.countEnding) countValue).insert
        (metric ++ ReservedName.sumEnding) sumValue)
    (counts : countValue.toCount (metric ++ ReservedName.countEnding) = .ok count)
    (sums : sumValue.toDouble (metric ++ ReservedName.sumEnding) = .ok sum) :
    Says point
      (.under levels metric <|
        .slice preferSummary ⟨time, levels.attributes⟩ (.total count sum)) := by
  have selected :
      selectedSlice levels.attributes point.fields = .ok (metric, .total count sum) := by
    rw [selectedSlice, series.noBound, series.noQuantile]
    exact totalSlice_fields counts sums made
  have said := holds.says_of_selected (named_totalFields made) split selected
  rw [Dictionary.erase_eq_self series.noBound, Dictionary.erase_eq_self series.noQuantile]
    at said
  exact said

/-- A point with the tag and the field of a bucket says it. -/
theorem HoldsSlice.says_bucket
    {tags : Tags}
    {key : String}
    {bound : Binary64}
    {value : FieldValue}
    {count : UInt64}
    (holds : HoldsSlice preferSummary time point)
    (tagged : point.tags = tags.insert ReservedName.bucketBound key)
    (split : TagLevels.split tags = levels)
    (series : SeriesTags levels.attributes)
    (made : point.fields.entries = [(metric ++ ReservedName.bucketEnding, value)])
    (stated : Binary64.ofKey? key = some bound)
    (counts : value.toCount (metric ++ ReservedName.bucketEnding) = .ok count) :
    Says point
      (.under levels metric <|
        .slice preferSummary ⟨time, levels.attributes⟩ (.bucket bound count)) := by
  have named (entry : String × FieldValue) (member : entry ∈ point.fields.entries) :
      entry.1 ≠ "" := by
    rw [made] at member
    rw [List.mem_singleton.mp member]
    exact append_ne_empty metric (by decide)
  have splitHere :
      TagLevels.split point.tags =
        { levels with
          attributes := levels.attributes.insert ReservedName.bucketBound key } := by
    rw [tagged, TagLevels.split_insert_attribute _ _ selectors_apart.1, split]
  have selected :
      selectedSlice (levels.attributes.insert ReservedName.bucketBound key) point.fields =
        .ok (metric, .bucket bound count) := by
    rw [selectedSlice, Dictionary.find?_insert, if_pos rfl]
    exact bucketSlice_fields stated counts made
  have said := holds.says_of_selected named splitHere selected
  dsimp only at said
  rw [Dictionary.erase_insert _ series.noBound, Dictionary.erase_eq_self series.noQuantile]
    at said
  exact said

/-- A point with the tag and the field of a quantile says it. -/
theorem HoldsSlice.says_quantile
    {tags : Tags}
    {key : String}
    {place double : Binary64}
    {value : FieldValue}
    (holds : HoldsSlice preferSummary time point)
    (tagged : point.tags = tags.insert ReservedName.quantile key)
    (split : TagLevels.split tags = levels)
    (series : SeriesTags levels.attributes)
    (made : point.fields.entries = [(metric, value)])
    (nonempty : metric ≠ "")
    (stated : Binary64.ofFiniteKey? key = some place)
    (read : value.toDouble metric = .ok double) :
    Says point
      (.under levels metric <|
        .slice preferSummary ⟨time, levels.attributes⟩ (.quantile place double)) := by
  have named (entry : String × FieldValue) (member : entry ∈ point.fields.entries) :
      entry.1 ≠ "" := by
    rw [made] at member
    rw [List.mem_singleton.mp member]
    exact nonempty
  have splitHere :
      TagLevels.split point.tags =
        { levels with
          attributes := levels.attributes.insert ReservedName.quantile key } := by
    rw [tagged, TagLevels.split_insert_attribute _ _ selectors_apart.2.1, split]
  have noBound :
      (levels.attributes.insert ReservedName.quantile key).find?
        ReservedName.bucketBound = none := by
    rw [Dictionary.find?_insert, if_neg (Ne.symm selectors_apart.2.2), series.noBound]
  have selected :
      selectedSlice (levels.attributes.insert ReservedName.quantile key) point.fields =
        .ok (metric, .quantile place double) := by
    rw [selectedSlice, noBound, Dictionary.find?_insert, if_pos rfl]
    exact quantileSlice_fields stated read made
  have said := holds.says_of_selected named splitHere selected
  dsimp only at said
  rw [Dictionary.erase_eq_self noBound, Dictionary.erase_insert _ series.noQuantile]
    at said
  exact said

/-- The point for a slice says it as it is read again. -/
theorem says_slicePoint
    {slice : Slice}
    (preferSummary : Bool)
    (separated : levels.Separated)
    (series : SeriesTags levels.attributes)
    (timed : time ≠ 0)
    (readable : slice.IsReadable metric) :
    Says
      (slicePoint (seriesPoint preferSummary time levels) metric slice)
      (.under levels metric <|
        .slice preferSummary ⟨time, levels.attributes⟩ slice.restated) := by
  have split := split_tags_bare separated time (sliceHint preferSummary)
  cases slice with
  | bucket bound count =>
      exact HoldsSlice.says_bucket ⟨rfl, timed, rfl, typeOf_of_sliceHint rfl⟩ rfl split
        series rfl (Binary64.ofKey?_keyText readable) (FieldValue.toCount_writtenCount _ _)
  | quantile place value =>
      have stated : Binary64.ofFiniteKey? place.keyText = some place :=
        Binary64.ofFiniteKey?_keyText readable.1
      exact HoldsSlice.says_quantile ⟨rfl, timed, rfl, typeOf_of_sliceHint rfl⟩ rfl split
        series rfl readable.2 stated rfl
  | total count sum =>
      exact HoldsSlice.says_total ⟨rfl, timed, rfl, typeOf_of_sliceHint rfl⟩ split series rfl
        (FieldValue.toCount_writtenCount _ _) rfl

end Sliced
end LineMetrics
