import LineMetrics.Proofs.StatedValues

/-!
# What a sliced point contributes

A sliced point contributes one reading or nothing. Which one is said here by its tags and
fields alone: a gauge and a counter have a single number, a bucket has a bound as a tag and
a count, a quantile has a place as a tag and a value, and any other line of a distribution
has a count and a sum of one metric. Conversely, whatever is read from a point is what it
contributes in this sense.
-/

namespace LineMetrics

namespace Sliced

/-- The point has a tag or a field of a distribution. -/
def LooksSliced (point : Point) : Prop :=
  point.tags.contains ReservedName.bucketBound = true ∨
    point.tags.contains ReservedName.quantile = true ∨
    ∃ metric,
      point.fields.contains (metric ++ ReservedName.countEnding) = true ∨
        point.fields.contains (metric ++ ReservedName.sumEnding) = true

/-- The type that a point has by its hint. Without a hint it is a line of a histogram if it
looks like one, and otherwise a gauge. -/
inductive HasType (point : Point) : TypeHint -> Prop
  | hinted {type : TypeHint} (hint : point.hint = type) (typed : type ≠ .untyped) :
      HasType point type
  | sliced (hint : point.hint = .untyped) (sliced : LooksSliced point) :
      HasType point .histogram
  | plain (hint : point.hint = .untyped) (plain : ¬LooksSliced point) :
      HasType point .gauge

/-- Of the fields with the count of a bucket, that of the metric has the first key. -/
structure IsFirstBucket (fields : Fields) (metric : String) : Prop where
  bucket : fields.contains (metric ++ ReservedName.bucketEnding) = true
  first : ∀ other, fields.contains (other ++ ReservedName.bucketEnding) = true ->
    metric ++ ReservedName.bucketEnding ≤ other ++ ReservedName.bucketEnding

/-- The slice that tags and fields state for a metric. The tag of a bucket goes before that
of a quantile, and without either of them it is a total. -/
inductive StatesSlice (tags : Tags) (fields : Fields) (metric : String) : Slice -> Prop
  | bucket
      {text : String}
      {bound : Binary64}
      {count : UInt64}
      (tagged : tags.find? ReservedName.bucketBound = some text)
      (stated : Binary64.ofKey? text = some bound)
      (isFirst : IsFirstBucket fields metric)
      (counted : StatesCount fields (metric ++ ReservedName.bucketEnding) count) :
      StatesSlice tags fields metric (.bucket bound count)
  | quantile
      {text : String}
      {place double : Binary64}
      {value : FieldValue}
      (noBound : tags.find? ReservedName.bucketBound = none)
      (tagged : tags.find? ReservedName.quantile = some text)
      (stated : Binary64.ofFiniteKey? text = some place)
      (only : fields.entries = [(metric, value)])
      (isDouble : value.IsDouble double) :
      StatesSlice tags fields metric (.quantile place double)
  | total
      {count : UInt64}
      {sum : Binary64}
      (noBound : tags.find? ReservedName.bucketBound = none)
      (noQuantile : tags.find? ReservedName.quantile = none)
      (isFirst : IsFirstPair fields metric)
      (counted : StatesCount fields (metric ++ ReservedName.countEnding) count)
      (summed : StatesDouble fields (metric ++ ReservedName.sumEnding) sum) :
      StatesSlice tags fields metric (.total count sum)

/-- The tags of the series of a slice: the attributes but for what selects the slice. -/
def seriesTags (tags : Tags) : Tags :=
  tags.filter fun key _ =>
    TagLevels.isAttributeLevel key && key ≠ ReservedName.bucketBound &&
      key ≠ ReservedName.quantile

/-- A point states a slice of a data point of a metric. It is meant for a summary if the
point is one. -/
structure StatesPart
    (now : UInt64)
    (point : Point)
    (resource : Tags)
    (scope : Scope)
    (metric : String)
    (part : SeriesSlice) : Prop where
  measured : point.measurement = ReservedName.prometheus
  typed : HasType (keyed point) (sliceHint part.preferSummary)
  resource : resource = (TagLevels.byKey point.tags).resource
  scope : scope = (TagLevels.byKey point.tags).scope
  series : part.series = ⟨point.timeOr now, seriesTags point.tags⟩
  slice : StatesSlice point.tags (keyed point).fields metric part.slice

/-- What a sliced point contributes. -/
inductive Contributes (now : UInt64) (point : Point) : List Observation -> Prop
  | gauge
      {metric : String}
      {value : FieldValue}
      {number : Number}
      (measured : point.measurement = ReservedName.prometheus)
      (typed : HasType (keyed point) .gauge)
      (only : (keyed point).fields.entries = [(metric, value)])
      (isNumber : value.IsNumber number) :
      Contributes now point [.under (.byKey point.tags) metric <| .gauge {
        attributes := Attribute.ofTags (TagLevels.byKey point.tags).attributes
        time := point.timeOr now
        value := some number }]
  | sum
      {metric : String}
      {value : FieldValue}
      {number : Number}
      (measured : point.measurement = ReservedName.prometheus)
      (typed : HasType (keyed point) .sum)
      (only : (keyed point).fields.entries = [(metric, value)])
      (isNumber : value.IsNumber number) :
      Contributes now point [.under (.byKey point.tags) metric <| .sum .cumulative {
        attributes := Attribute.ofTags (TagLevels.byKey point.tags).attributes
        time := point.timeOr now
        value := some number }]
  | slice
      {resource : Tags}
      {scope : Scope}
      {metric : String}
      {part : SeriesSlice}
      (states : StatesPart now point resource scope metric part) :
      Contributes now point [⟨resource, scope, metric, part.toReading⟩]

/-! ## Types -/

/-- A key has an ending of the count or the sum of a distribution if something stands in
front of that ending. -/
theorem isTotalField_iff {key : String} :
    isTotalField key = true ↔
      ∃ metric, key = metric ++ ReservedName.countEnding ∨
        key = metric ++ ReservedName.sumEnding := by
  simp only [isTotalField, Bool.or_eq_true, Option.isSome_iff_exists, stem?_eq_some_iff,
    exists_or]

/-- A point looks like a line of a distribution by its tags or by the key of a field. -/
theorem looksSliced_iff (point : Point) :
    LooksSliced point ↔
      (point.tags.contains ReservedName.bucketBound = true ∨
          point.tags.contains ReservedName.quantile = true) ∨
        point.fields.keys.any isTotalField = true := by
  have fieldsAlike :
      point.fields.keys.any isTotalField = true ↔
        ∃ metric,
          point.fields.contains (metric ++ ReservedName.countEnding) = true ∨
            point.fields.contains (metric ++ ReservedName.sumEnding) = true := by
    simp only [List.any_eq_true, isTotalField_iff, Dictionary.mem_keys_iff]
    constructor
    · rintro ⟨key, there, metric, rfl | rfl⟩
      · exact ⟨metric, .inl there⟩
      · exact ⟨metric, .inr there⟩
    · rintro ⟨metric, there | there⟩
      · exact ⟨_, there, metric, .inl rfl⟩
      · exact ⟨_, there, metric, .inr rfl⟩
  rw [LooksSliced, fieldsAlike, or_assoc]

/-- A point without a hint that looks like a line of a distribution is one of a histogram. -/
theorem typeOf_of_looksSliced
    {point : Point}
    (unhinted : point.hint = .untyped)
    (looks : LooksSliced point) :
    typeOf point = .histogram := by
  rw [typeOf, if_neg (not_not_intro unhinted)]
  rcases (looksSliced_iff point).mp looks with tagged | total
  · rw [if_pos tagged]
  · rw [if_pos total, ite_self]

/-- A point without a hint that does not look like a line of a distribution is a gauge if it
has one field. -/
theorem typeOf_of_plain
    {point : Point}
    (unhinted : point.hint = .untyped)
    (plain : ¬LooksSliced point) :
    typeOf point = if point.fields.size = 1 then .gauge else .untyped := by
  obtain ⟨noTag, noTotal⟩ := not_or.mp (mt (looksSliced_iff point).mpr plain)
  rw [typeOf, if_neg (not_not_intro unhinted), if_neg noTag, if_neg noTotal]

/-- A point has the type that it is processed as. One that is not processed at all would be
a gauge. -/
theorem hasType_iff {point : Point} {type : TypeHint} :
    HasType point type ↔
      typeOf point = type ∧ type ≠ .untyped ∨ typeOf point = .untyped ∧ type = .gauge := by
  constructor
  · rintro (⟨rfl, typed⟩ | ⟨unhinted, looks⟩ | ⟨unhinted, plain⟩)
    · exact .inl ⟨typeOf_of_hint typed, typed⟩
    · exact .inl ⟨typeOf_of_looksSliced unhinted looks, nofun⟩
    · rw [typeOf_of_plain unhinted plain]
      split
      · exact .inl ⟨rfl, nofun⟩
      · exact .inr ⟨rfl, rfl⟩
  · intro processed
    by_cases unhinted : point.hint = .untyped
    · by_cases looks : LooksSliced point
      · rw [typeOf_of_looksSliced unhinted looks] at processed
        rcases processed with ⟨rfl, -⟩ | ⟨absurdly, -⟩
        · exact .sliced unhinted looks
        · cases absurdly
      · rw [typeOf_of_plain unhinted looks] at processed
        have isGauge : type = .gauge := by
          split at processed <;> rcases processed with ⟨rfl, typed⟩ | ⟨-, same⟩
          · rfl
          · exact same
          · exact absurd rfl typed
          · exact same
        rw [isGauge]
        exact .plain unhinted looks
    · rw [typeOf_of_hint unhinted] at processed
      rcases processed with ⟨hint, typed⟩ | ⟨absurdly, -⟩
      · exact .hinted hint typed
      · exact absurd absurdly unhinted

/-- A point with one field is processed. -/
theorem typeOf_ne_untyped
    {point : Point}
    {entry : String × FieldValue}
    (only : point.fields.entries = [entry]) :
    typeOf point ≠ .untyped := by
  intro unprocessed
  have isGauge : HasType point .gauge := hasType_iff.mpr (.inr ⟨unprocessed, rfl⟩)
  have single : point.fields.size = 1 := congrArg List.length only
  rcases isGauge with ⟨hint, -⟩ | _ | ⟨unhinted, plain⟩
  · rw [typeOf_of_hint (by rw [hint]; nofun), hint] at unprocessed
    cases unprocessed
  · rw [typeOf_of_plain unhinted plain, if_pos single] at unprocessed
    cases unprocessed

/-! ## Gauges and counters -/

/-- A gauge or a counter is read from the only field, exactly if it holds a number. -/
theorem numberObservation_eq_ok_iff
    {kind : String}
    {reading : NumberPoint -> Reading}
    {point : Point}
    {time : UInt64}
    {observation : Observation} :
    numberObservation kind reading point time = .ok observation ↔
      ∃ metric value number,
        point.fields.entries = [(metric, value)] ∧ value.IsNumber number ∧
          observation = .under (.byKey point.tags) metric (reading {
            attributes := Attribute.ofTags (TagLevels.byKey point.tags).attributes
            time := time
            value := some number }) := by
  rw [numberObservation, TagLevels.split_eq_byKey]
  constructor
  · intro read
    split at read
    · rename_i metric value entries
      obtain ⟨number, converted, made⟩ := exists_of_bind_eq_ok read
      exact ⟨metric, value, number, entries,
        (FieldValue.toNumber_eq_ok_iff metric value number).mp converted,
        (Except.ok.inj made).symm⟩
    · cases read
  · rintro ⟨metric, value, number, entries, isNumber, rfl⟩
    rw [entries]
    dsimp only
    rw [(FieldValue.toNumber_eq_ok_iff metric value number).mpr isNumber]
    rfl

/-! ## Slices -/

variable {fields : Fields} {metric text : String} {slice : Slice}

/-- The first field with the count of a bucket, with its metric. -/
def firstBucket? (fields : Fields) : Option (String × String × FieldValue) :=
  fields.entries.findSome? fun (key, value) =>
    (stem? ReservedName.bucketEnding key).map (·, key, value)

/-- The bucket that is found is the first one. -/
theorem of_firstBucket?
    {key : String}
    {value : FieldValue}
    (found : firstBucket? fields = some (metric, key, value)) :
    IsFirstBucket fields metric ∧ key = metric ++ ReservedName.bucketEnding ∧
      fields.find? key = some value := by
  obtain ⟨⟨here, hereValue⟩, member, isHere, least⟩ :=
    exists_least_of_findSome? found fields.ascending
  obtain ⟨stem, isStem, same⟩ := Option.map_eq_some_iff.mp isHere
  cases same
  rw [stem?_eq_some_iff] at isStem
  have foundHere := Dictionary.find?_eq_some_iff.mpr member
  refine ⟨⟨isStem ▸ congrArg Option.isSome foundHere, fun other there => ?_⟩, isStem,
    foundHere⟩
  obtain ⟨otherValue, foundOther⟩ := Option.isSome_iff_exists.mp there
  rw [<- isStem]
  refine least _ (Dictionary.find?_eq_some_iff.mp foundOther) ?_
  dsimp only
  rw [stem?_append]
  rfl

/-- The first bucket is found. -/
theorem firstBucket?_eq_some
    {value : FieldValue}
    (isFirst : IsFirstBucket fields metric)
    (found : fields.find? (metric ++ ReservedName.bucketEnding) = some value) :
    firstBucket? fields = some (metric, metric ++ ReservedName.bucketEnding, value) := by
  cases foundFirst : firstBucket? fields with
  | none =>
      have lacks := List.findSome?_eq_none_iff.mp foundFirst _
        (Dictionary.find?_eq_some_iff.mp found)
      dsimp only at lacks
      rw [stem?_append] at lacks
      cases lacks
  | some bucket =>
      obtain ⟨other, key, otherValue⟩ := bucket
      obtain ⟨otherFirst, rfl, foundOther⟩ := of_firstBucket? foundFirst
      obtain rfl : metric = other := eq_of_append_eq <|
        String.le_antisymm (isFirst.first other otherFirst.bucket)
          (otherFirst.first metric isFirst.bucket)
      rw [found] at foundOther
      rw [Option.some.inj foundOther]

/-- A bucket is read exactly if the tag states its bound and the first field its count. -/
theorem bucketSlice_eq_ok_iff :
    bucketSlice fields text = .ok (metric, slice) ↔
      ∃ bound count,
        slice = .bucket bound count ∧ Binary64.ofKey? text = some bound ∧
          IsFirstBucket fields metric ∧
          StatesCount fields (metric ++ ReservedName.bucketEnding) count := by
  constructor
  · intro read
    rw [bucketSlice] at read
    split at read
    · cases read
    · rename_i bound stated
      dsimp only at read
      split at read
      · cases read
      · rename_i stem key value found
        obtain ⟨count, converted, made⟩ := exists_of_bind_eq_ok read
        cases made
        obtain ⟨isFirst, rfl, foundValue⟩ := of_firstBucket? found
        exact ⟨bound, count, rfl, stated, isFirst, value, foundValue,
          (FieldValue.toCount_eq_ok_iff _ value count).mp converted⟩
  · rintro ⟨bound, count, rfl, stated, isFirst, value, foundValue, counts⟩
    have found := firstBucket?_eq_some isFirst foundValue
    rw [firstBucket?] at found
    rw [bucketSlice, stated]
    dsimp only
    rw [found]
    dsimp only
    rw [(FieldValue.toCount_eq_ok_iff _ value count).mpr counts]
    rfl

/-- A quantile is read exactly if the tag states its place and the only field its value. -/
theorem quantileSlice_eq_ok_iff :
    quantileSlice fields text = .ok (metric, slice) ↔
      ∃ place value double,
        slice = .quantile place double ∧ Binary64.ofFiniteKey? text = some place ∧
          fields.entries = [(metric, value)] ∧ value.IsDouble double := by
  constructor
  · intro read
    rw [quantileSlice] at read
    split at read
    · cases read
    · rename_i place stated
      split at read
      · cases read
      · rename_i key value entries
        obtain ⟨double, converted, made⟩ := exists_of_bind_eq_ok read
        cases made
        exact ⟨place, value, double, rfl, stated, entries,
          (FieldValue.toDouble_eq_ok_iff _ value double).mp converted⟩
      · cases read
  · rintro ⟨place, value, double, rfl, stated, entries, isDouble⟩
    exact quantileSlice_fields stated
      ((FieldValue.toDouble_eq_ok_iff _ value double).mpr isDouble) entries

/-- A total is read exactly if the first pair of fields states its count and its sum. -/
theorem totalSlice_eq_ok_iff :
    totalSlice fields = .ok (metric, slice) ↔
      ∃ count sum,
        slice = .total count sum ∧ IsFirstPair fields metric ∧
          StatesCount fields (metric ++ ReservedName.countEnding) count ∧
          StatesDouble fields (metric ++ ReservedName.sumEnding) sum := by
  constructor
  · intro read
    cases found : firstPair? fields with
    | none =>
        rw [totalSlice_of_no_pair (firstPair?_eq_none_iff.mp found)] at read
        cases read
    | some pair =>
        obtain ⟨name, key, countValue, sumValue⟩ := pair
        obtain ⟨isFirst, rfl, foundCount, foundSum⟩ := of_firstPair? found
        rw [totalSlice_of_isFirstPair isFirst foundCount foundSum] at read
        obtain ⟨count, counted, read⟩ := exists_of_bind_eq_ok read
        obtain ⟨sum, summed, made⟩ := exists_of_bind_eq_ok read
        cases made
        exact ⟨count, sum, rfl, isFirst,
          ⟨countValue, foundCount, (FieldValue.toCount_eq_ok_iff _ _ count).mp counted⟩,
          ⟨sumValue, foundSum, (FieldValue.toDouble_eq_ok_iff _ _ sum).mp summed⟩⟩
  · rintro ⟨count, sum, rfl, isFirst, ⟨countValue, foundCount, counted⟩, sumValue, foundSum,
      summed⟩
    rw [totalSlice_of_isFirstPair isFirst foundCount foundSum,
      (FieldValue.toCount_eq_ok_iff _ _ count).mpr counted]
    change (do let sum <- sumValue.toDouble _; .ok (metric, Slice.total count sum)) = _
    rw [(FieldValue.toDouble_eq_ok_iff _ _ sum).mpr summed]
    rfl

/-- The tags that select a slice are attributes. -/
theorem find?_selector (tags : Tags) :
    (TagLevels.byKey tags).attributes.find? ReservedName.bucketBound =
        tags.find? ReservedName.bucketBound ∧
      (TagLevels.byKey tags).attributes.find? ReservedName.quantile =
        tags.find? ReservedName.quantile := by
  obtain ⟨bucketLevel, quantileLevel, -⟩ := selectors_apart
  rw [TagLevels.byKey, Dictionary.find?_filter_key, Dictionary.find?_filter_key,
    if_pos bucketLevel, if_pos quantileLevel]
  exact ⟨rfl, rfl⟩

/-- A slice is selected exactly if it is stated. -/
theorem selectedSlice_eq_ok_iff {tags : Tags} :
    selectedSlice (TagLevels.byKey tags).attributes fields = .ok (metric, slice) ↔
      StatesSlice tags fields metric slice := by
  obtain ⟨sameBound, sameQuantile⟩ := find?_selector tags
  rw [selectedSlice, sameBound, sameQuantile]
  cases hasBound : tags.find? ReservedName.bucketBound with
  | some text =>
      refine bucketSlice_eq_ok_iff.trans ⟨?_, fun states => ?_⟩
      · rintro ⟨bound, count, rfl, stated, isFirst, counted⟩
        exact .bucket hasBound stated isFirst counted
      · rcases states with ⟨tagged, stated, isFirst, counted⟩ | ⟨noBound⟩ | ⟨noBound⟩
        · cases hasBound.symm.trans tagged
          exact ⟨_, _, rfl, stated, isFirst, counted⟩
        · cases hasBound.symm.trans noBound
        · cases hasBound.symm.trans noBound
  | none =>
      cases hasQuantile : tags.find? ReservedName.quantile with
      | some text =>
          refine quantileSlice_eq_ok_iff.trans ⟨?_, fun states => ?_⟩
          · rintro ⟨place, value, double, rfl, stated, only, isDouble⟩
            exact .quantile hasBound hasQuantile stated only isDouble
          · rcases states with ⟨tagged⟩ | ⟨-, tagged, stated, only, isDouble⟩ | ⟨-, noQuantile⟩
            · cases hasBound.symm.trans tagged
            · cases hasQuantile.symm.trans tagged
              exact ⟨_, _, _, rfl, stated, only, isDouble⟩
            · cases hasQuantile.symm.trans noQuantile
      | none =>
          refine totalSlice_eq_ok_iff.trans ⟨?_, fun states => ?_⟩
          · rintro ⟨count, sum, rfl, isFirst, counted, summed⟩
            exact .total hasBound hasQuantile isFirst counted summed
          · rcases states with ⟨tagged⟩ | ⟨-, tagged⟩ | ⟨-, -, isFirst, counted, summed⟩
            · cases hasBound.symm.trans tagged
            · cases hasQuantile.symm.trans tagged
            · exact ⟨_, _, rfl, isFirst, counted, summed⟩

/-- The tags of a series are the attributes without those that select a slice. -/
theorem erase_selectors (tags : Tags) :
    ((TagLevels.byKey tags).attributes.erase ReservedName.bucketBound).erase
        ReservedName.quantile =
      seriesTags tags := by
  apply Dictionary.ext_find?
  intro key
  rw [seriesTags, Dictionary.find?_erase, Dictionary.find?_erase, TagLevels.byKey,
    Dictionary.find?_filter_key, Dictionary.find?_filter_key]
  by_cases isQuantile : key = ReservedName.quantile
  · simp [isQuantile]
  · by_cases isBound : key = ReservedName.bucketBound
    · simp [isBound]
    · simp [isQuantile, isBound]

/-- A line of a distribution is read exactly as the slice that it states. -/
theorem sliceObservation_eq_ok_iff
    {preferSummary : Bool}
    {point : Point}
    {time : UInt64}
    {observation : Observation} :
    sliceObservation preferSummary point time = .ok observation ↔
      ∃ metric slice,
        StatesSlice point.tags point.fields metric slice ∧
          observation = .under (.byKey point.tags) metric
            (.slice preferSummary ⟨time, seriesTags point.tags⟩ slice) := by
  rw [sliceObservation_eq preferSummary time (TagLevels.split_eq_byKey point.tags),
    erase_selectors]
  constructor
  · intro read
    obtain ⟨⟨metric, slice⟩, selected, made⟩ := exists_of_map_eq_ok read
    exact ⟨metric, slice, selectedSlice_eq_ok_iff.mp selected, made.symm⟩
  · rintro ⟨metric, slice, states, rfl⟩
    rw [selectedSlice_eq_ok_iff.mpr states]
    rfl

/-! ## Points -/

variable {now : UInt64} {point : Point} {result : List Observation}

/-- A line of a distribution is read as the slice that the point states. -/
theorem contributes_of_sliceObservation
    {preferSummary : Bool}
    {observation : Observation}
    (measured : point.measurement = ReservedName.prometheus)
    (read : sliceObservation preferSummary (keyed point) (point.timeOr now) =
      .ok observation)
    (typed : HasType (keyed point) (sliceHint preferSummary)) :
    Contributes now point [observation] := by
  obtain ⟨metric, slice, stated, rfl⟩ := sliceObservation_eq_ok_iff.mp read
  have states : StatesPart now point _ _ metric
      ⟨preferSummary, ⟨point.timeOr now, seriesTags point.tags⟩, slice⟩ :=
    ⟨measured, typed, rfl, rfl, rfl, stated⟩
  exact .slice states

/-- What is read from a sliced point is what it contributes. -/
theorem contributes_of_observations (read : observations now point = .ok result) :
    Contributes now point result := by
  obtain ⟨observation, rfl⟩ := exists_observation read
  obtain ⟨measured, readKeyed⟩ := observations_eq_ok_iff.mp read
  have typed {type : TypeHint} (processed : typeOf (keyed point) = type)
      (isType : type ≠ .untyped) : HasType (keyed point) type :=
    hasType_iff.mpr (.inl ⟨processed, isType⟩)
  rw [Sliced.observation] at readKeyed
  split at readKeyed
  · cases readKeyed
  · rename_i processed
    obtain ⟨metric, value, number, only, isNumber, rfl⟩ :=
      numberObservation_eq_ok_iff.mp readKeyed
    exact .gauge measured (typed processed (by decide)) only isNumber
  · rename_i processed
    obtain ⟨metric, value, number, only, isNumber, rfl⟩ :=
      numberObservation_eq_ok_iff.mp readKeyed
    exact .sum measured (typed processed (by decide)) only isNumber
  · rename_i processed
    exact contributes_of_sliceObservation measured readKeyed (typed processed (by decide))
  · rename_i processed
    exact contributes_of_sliceObservation measured readKeyed (typed processed (by decide))

/-- A slice that a point states is read from it. -/
theorem StatesPart.observations_eq
    {resource : Tags}
    {scope : Scope}
    {metric : String}
    {part : SeriesSlice}
    (states : StatesPart now point resource scope metric part) :
    observations now point = .ok [⟨resource, scope, metric, part.toReading⟩] := by
  obtain ⟨preferSummary, series, slice⟩ := part
  obtain ⟨measured, typed, rfl, rfl, rfl, stated⟩ := states
  have processed : typeOf (keyed point) = sliceHint preferSummary := by
    rcases hasType_iff.mp typed with ⟨processed, -⟩ | ⟨-, isGauge⟩
    · exact processed
    · cases preferSummary <;> cases isGauge
  rw [observations_eq_ok_iff, observation_of_typeOf _ processed]
  exact ⟨measured, sliceObservation_eq_ok_iff.mpr ⟨metric, slice, stated, rfl⟩⟩

/-- What is read from a sliced point is exactly what it contributes. -/
theorem observations_eq_ok_iff_contributes :
    observations now point = .ok result ↔ Contributes now point result := by
  refine ⟨contributes_of_observations, fun contributes => ?_⟩
  have processed {type : TypeHint} {entry : String × FieldValue}
      (only : (keyed point).fields.entries = [entry])
      (typed : HasType (keyed point) type) : typeOf (keyed point) = type := by
    rcases hasType_iff.mp typed with ⟨processed, -⟩ | ⟨unprocessed, -⟩
    · exact processed
    · exact absurd unprocessed (typeOf_ne_untyped only)
  cases contributes with
  | gauge measured typed only isNumber =>
      rw [observations_eq_ok_iff, observation, processed only typed]
      exact ⟨measured, numberObservation_eq_ok_iff.mpr ⟨_, _, _, only, isNumber, rfl⟩⟩
  | sum measured typed only isNumber =>
      rw [observations_eq_ok_iff, observation, processed only typed]
      exact ⟨measured, numberObservation_eq_ok_iff.mpr ⟨_, _, _, only, isNumber, rfl⟩⟩
  | slice states => exact states.observations_eq

end Sliced
end LineMetrics
