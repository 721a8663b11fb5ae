import LineMetrics.Proofs.SeriesPoints

/-!
# Lines with counts and sums

A sliced point without a tag for a bucket or a quantile has to state the count and the sum
of a metric. Of the metrics for which it has both, the one whose count comes first is
recorded, and everything else that it says is lost without a word, a count or a sum that
stands alone no less than a whole pair of another metric. A line is refused as unpaired only
if it has no pair at all.
-/

namespace LineMetrics

/-- In a list with ascending keys, what is found first is found under the least of the keys
under which something is found. -/
theorem exists_least_of_findSome?
    {α β : Type}
    {find : α -> Option β}
    {key : α -> String}
    {elements : List α}
    {result : β}
    (found : elements.findSome? find = some result)
    (ascending : elements.Pairwise fun left right => key left < key right) :
    ∃ element ∈ elements, find element = some result ∧
      ∀ other ∈ elements, (find other).isSome = true -> key element ≤ key other := by
  obtain ⟨before, element, behind, rfl, here, noneBefore⟩ := List.findSome?_eq_some_iff.mp found
  refine ⟨element, List.mem_append_right _ (.head _), here, fun other member isFound => ?_⟩
  rcases List.mem_append.mp member with inFront | fromHere
  · rw [noneBefore other inFront] at isFound
    cases isFound
  · rcases List.mem_cons.mp fromHere with rfl | later
    · exact String.le_refl _
    · have below := (List.pairwise_cons.mp (List.pairwise_append.mp ascending).2.1).1 _ later
      exact String.not_lt.mp (String.lt_asymm below)

namespace Sliced

/-- The fields have a count and a sum of the metric. -/
def IsPair (fields : Fields) (metric : String) : Prop :=
  fields.contains (metric ++ ReservedName.countEnding) = true ∧
    fields.contains (metric ++ ReservedName.sumEnding) = true

/-- Of the metrics with a count and a sum, this one has the count with the first key. -/
structure IsFirstPair (fields : Fields) (metric : String) : Prop where
  pair : IsPair fields metric
  first : ∀ other, IsPair fields other ->
    metric ++ ReservedName.countEnding ≤ other ++ ReservedName.countEnding

/-- Why fields without a pair are refused: the first count lacks its sum, or else the first
sum lacks its count, or else there is neither. -/
def unpairedCause (fields : Fields) : Error :=
  match fields.keys.findSome? (stem? ReservedName.countEnding),
      fields.keys.findSome? (stem? ReservedName.sumEnding) with
  | some metric, _ =>
      .unpairedTotal ReservedName.countEnding metric ReservedName.sumEnding
  | none, some metric =>
      .unpairedTotal ReservedName.sumEnding metric ReservedName.countEnding
  | none, none => .unknownValueType fields.keys

/-- The fields with counts, each with its metric in front. -/
def countFields (fields : Fields) : List (String × String × FieldValue) :=
  fields.entries.filterMap fun (key, value) =>
    (stem? ReservedName.countEnding key).map (·, key, value)

/-- The first field with a count for which there is a sum, with its metric and the sum. -/
def firstPair? (fields : Fields) : Option (String × String × FieldValue × FieldValue) :=
  (countFields fields).findSome? fun (metric, key, count) =>
    (fields.find? (metric ++ ReservedName.sumEnding)).map (metric, key, count, ·)

/-- A stem is what stands in front of the ending. -/
theorem stem?_eq_some_iff {ending key stem : String} :
    stem? ending key = some stem ↔ key = stem ++ ending := by
  constructor
  · intro found
    rw [stem?] at found
    split at found
    · rename_i isEnding
      rw [List.isSuffixOf_iff_suffix] at isEnding
      obtain ⟨front, whole⟩ := isEnding
      rw [<- Option.some.inj found, <- String.toList_inj, String.toList_append,
        String.toList_ofList, <- whole, List.length_append, Nat.add_sub_cancel,
        List.take_left]
    · cases found
  · rintro rfl
    exact stem?_append stem ending

/-- Different stems have different keys. -/
theorem eq_of_append_eq
    {ending stem other : String}
    (same : stem ++ ending = other ++ ending) :
    stem = other := by
  have found := stem?_append stem ending
  rw [same, stem?_append] at found
  exact (Option.some.inj found).symm

variable {fields : Fields} {metric key : String} {count sum : FieldValue}

/-- A field with a count is one whose key ends so. -/
theorem mem_countFields_iff :
    (metric, key, count) ∈ countFields fields ↔
      key = metric ++ ReservedName.countEnding ∧ fields.find? key = some count := by
  rw [countFields, List.mem_filterMap]
  constructor
  · rintro ⟨⟨other, value⟩, member, found⟩
    obtain ⟨stem, isStem, same⟩ := Option.map_eq_some_iff.mp found
    cases same
    exact ⟨stem?_eq_some_iff.mp isStem, Dictionary.find?_eq_some_iff.mpr member⟩
  · rintro ⟨rfl, found⟩
    refine ⟨(_, count), Dictionary.find?_eq_some_iff.mp found, ?_⟩
    dsimp only
    rw [stem?_append, Option.map_some]

/-- The fields with counts have ascending keys. -/
theorem pairwise_countFields (fields : Fields) :
    (countFields fields).Pairwise fun left right => left.2.1 < right.2.1 := by
  rw [countFields, List.pairwise_filterMap]
  refine fields.ascending.imp fun {left right} below first firstFound second secondFound => ?_
  obtain ⟨stem, -, rfl⟩ := Option.map_eq_some_iff.mp firstFound
  obtain ⟨other, -, rfl⟩ := Option.map_eq_some_iff.mp secondFound
  exact below

/-- Without a pair of a count and a sum, none is found, and the other way round. -/
theorem firstPair?_eq_none_iff :
    firstPair? fields = none ↔ ∀ metric, ¬IsPair fields metric := by
  rw [firstPair?, List.findSome?_eq_none_iff]
  constructor
  · rintro noSum metric ⟨hasCount, hasSum⟩
    obtain ⟨count, foundCount⟩ := Option.isSome_iff_exists.mp hasCount
    obtain ⟨sum, foundSum⟩ := Option.isSome_iff_exists.mp hasSum
    have lacks := noSum _ (mem_countFields_iff.mpr ⟨rfl, foundCount⟩)
    dsimp only at lacks
    rw [foundSum] at lacks
    cases lacks
  · rintro noPair ⟨metric, key, count⟩ member
    obtain ⟨rfl, foundCount⟩ := mem_countFields_iff.mp member
    dsimp only
    cases foundSum : fields.find? (metric ++ ReservedName.sumEnding) with
    | none => rfl
    | some sum =>
        exact absurd ⟨congrArg Option.isSome foundCount, congrArg Option.isSome foundSum⟩
          (noPair metric)

/-- The pair that is found is the first one. -/
theorem of_firstPair?
    (found : firstPair? fields = some (metric, key, count, sum)) :
    IsFirstPair fields metric ∧ key = metric ++ ReservedName.countEnding ∧
      fields.find? (metric ++ ReservedName.countEnding) = some count ∧
      fields.find? (metric ++ ReservedName.sumEnding) = some sum := by
  obtain ⟨⟨name, other, value⟩, member, here, least⟩ :=
    exists_least_of_findSome? found (pairwise_countFields fields)
  obtain ⟨foundSum, foundSumIs, same⟩ := Option.map_eq_some_iff.mp here
  cases same
  obtain ⟨rfl, foundCount⟩ := mem_countFields_iff.mp member
  refine ⟨⟨⟨congrArg Option.isSome foundCount, congrArg Option.isSome foundSumIs⟩, ?_⟩,
    rfl, foundCount, foundSumIs⟩
  rintro other ⟨hasCount, hasSum⟩
  obtain ⟨otherCount, foundOther⟩ := Option.isSome_iff_exists.mp hasCount
  exact least _ (mem_countFields_iff.mpr ⟨rfl, foundOther⟩) (Option.isSome_map.trans hasSum)

/-- The fields of the first pair are found. -/
theorem firstPair?_eq_some
    (isFirst : IsFirstPair fields metric)
    (foundCount : fields.find? (metric ++ ReservedName.countEnding) = some count)
    (foundSum : fields.find? (metric ++ ReservedName.sumEnding) = some sum) :
    firstPair? fields = some (metric, metric ++ ReservedName.countEnding, count, sum) := by
  cases found : firstPair? fields with
  | none => exact absurd isFirst.pair (firstPair?_eq_none_iff.mp found metric)
  | some pair =>
      obtain ⟨other, key, otherCount, otherSum⟩ := pair
      obtain ⟨otherFirst, rfl, foundOther, foundOtherSum⟩ := of_firstPair? found
      obtain rfl : metric = other := eq_of_append_eq <|
        String.le_antisymm (isFirst.first other otherFirst.pair)
          (otherFirst.first metric isFirst.pair)
      rw [foundCount] at foundOther
      rw [foundSum] at foundOtherSum
      rw [Option.some.inj foundOther, Option.some.inj foundOtherSum]

/-- A line states the total of its first pair. -/
theorem totalSlice_of_isFirstPair
    (isFirst : IsFirstPair fields metric)
    (foundCount : fields.find? (metric ++ ReservedName.countEnding) = some count)
    (foundSum : fields.find? (metric ++ ReservedName.sumEnding) = some sum) :
    totalSlice fields =
      (do
        let count <- count.toCount (metric ++ ReservedName.countEnding)
        let sum <- sum.toDouble (metric ++ ReservedName.sumEnding)
        .ok (metric, .total count sum)) := by
  have found := firstPair?_eq_some isFirst foundCount foundSum
  rw [firstPair?, countFields] at found
  rw [totalSlice]
  dsimp only at found ⊢
  rw [found]

/-- The first field with a count has the first key that ends so. -/
theorem map_fst_head?_countFields (fields : Fields) :
    (countFields fields).head?.map Prod.fst =
      fields.keys.findSome? (stem? ReservedName.countEnding) := by
  rw [countFields, List.head?_filterMap, Dictionary.keys, List.findSome?_map,
    List.map_findSome?]
  congr 1
  funext entry
  dsimp only [Function.comp_apply]
  cases stem? ReservedName.countEnding entry.1 <;> rfl

/-- A line without a pair is refused. -/
theorem totalSlice_of_no_pair (noPair : ∀ metric, ¬IsPair fields metric) :
    totalSlice fields = .error (unpairedCause fields) := by
  have found := firstPair?_eq_none_iff.mpr noPair
  have firstCount := map_fst_head?_countFields fields
  rw [unpairedCause, <- firstCount, totalSlice]
  rw [firstPair?] at found
  rw [countFields] at found ⊢
  dsimp only at found ⊢
  rw [found]
  cases fields.entries.filterMap fun entry : String × FieldValue =>
      (stem? ReservedName.countEnding entry.1).map fun stem => (stem, entry.1, entry.2) with
  | nil =>
      cases fields.keys.findSome? (stem? ReservedName.sumEnding) <;> rfl
  | cons first rest => rfl

/-- A point that has to state the count and the sum of a metric: it is processed as a
histogram or a summary, and has no tag for a bucket or a quantile. -/
structure IsTotalLine (point : Point) : Prop where
  measured : point.measurement = ReservedName.prometheus
  typed : typeOf (keyed point) = .histogram ∨ typeOf (keyed point) = .summary
  noBound : point.tags.find? ReservedName.bucketBound = none
  noQuantile : point.tags.find? ReservedName.quantile = none

/-- The point with no fields but the count and the sum of a metric. -/
def onlyPair (metric : String) (point : Point) : Point :=
  { point with
    fields := point.fields.filter fun key _ =>
      key = metric ++ ReservedName.countEnding || key = metric ++ ReservedName.sumEnding }

/-- The series that a point belongs to by its time and its tags. -/
def seriesOf (now : UInt64) (point : Point) : Series :=
  ⟨point.timeOr now, (TagLevels.split point.tags).attributes⟩

variable {now : UInt64} {point : Point}

/-- The observation of a total line is that of its total. -/
theorem IsTotalLine.observations_eq (line : IsTotalLine point) (now : UInt64) :
    observations now point =
      (totalSlice (keyed point).fields).map fun (metric, slice) =>
        [.under (TagLevels.split point.tags) metric <|
          .slice (typeOf (keyed point) = .summary) (seriesOf now point) slice] := by
  have typed : typeOf (keyed point) = sliceHint (typeOf (keyed point) = .summary) := by
    rcases line.typed with histogram | summary
    · rw [histogram]
      rfl
    · rw [summary]
      rfl
  have noBound :
      (TagLevels.split point.tags).attributes.find? ReservedName.bucketBound = none := by
    rw [TagLevels.find?_attributes_split, line.noBound, ite_self]
  have noQuantile :
      (TagLevels.split point.tags).attributes.find? ReservedName.quantile = none := by
    rw [TagLevels.find?_attributes_split, line.noQuantile, ite_self]
  have sameTags : TagLevels.split (keyed point).tags = TagLevels.split point.tags := rfl
  rw [observations, if_neg (not_not_intro line.measured)]
  change (observation (keyed point) (point.timeOr now)).map ([·]) = _
  rw [observation_of_typeOf _ typed, sliceObservation_eq _ _ sameTags, selectedSlice, noBound,
    noQuantile, Dictionary.erase_eq_self noBound, Dictionary.erase_eq_self noQuantile]
  cases totalSlice (keyed point).fields <;> rfl

/-- A field of the pair is found in a point with only that pair. -/
theorem find?_onlyPair (metric key : String) (point : Point) :
    (keyed (onlyPair metric point)).fields.find? key =
      if key = metric ++ ReservedName.countEnding ∨ key = metric ++ ReservedName.sumEnding then
        (keyed point).fields.find? key
      else none := by
  rw [keyed, keyed, onlyPair]
  dsimp only
  rw [Dictionary.find?_filter, Dictionary.find?_filter, Dictionary.find?_filter]
  cases point.fields.find? key with
  | none => rw [Option.filter_none, Option.filter_none, ite_self]
  | some value =>
      by_cases ofPair :
          key = metric ++ ReservedName.countEnding ∨ key = metric ++ ReservedName.sumEnding
      · simp [ofPair, Option.filter_some]
      · rw [not_or] at ofPair
        simp [ofPair, Option.filter_some]

/-- A point with only the pair has the same count. -/
theorem find?_onlyPair_count (metric : String) (point : Point) :
    (keyed (onlyPair metric point)).fields.find? (metric ++ ReservedName.countEnding) =
      (keyed point).fields.find? (metric ++ ReservedName.countEnding) :=
  (find?_onlyPair metric _ point).trans (if_pos (.inl rfl))

/-- A point with only the pair has the same sum. -/
theorem find?_onlyPair_sum (metric : String) (point : Point) :
    (keyed (onlyPair metric point)).fields.find? (metric ++ ReservedName.sumEnding) =
      (keyed point).fields.find? (metric ++ ReservedName.sumEnding) :=
  (find?_onlyPair metric _ point).trans (if_pos (.inr rfl))

/-- The first pair is found in a point with only that pair, and is its first one. -/
theorem isFirstPair_onlyPair
    (isFirst : IsFirstPair (keyed point).fields metric) :
    IsFirstPair (keyed (onlyPair metric point)).fields metric := by
  refine ⟨⟨?_, ?_⟩, fun other otherPair => ?_⟩
  · rw [Dictionary.contains, find?_onlyPair_count]
    exact isFirst.pair.1
  · rw [Dictionary.contains, find?_onlyPair_sum]
    exact isFirst.pair.2
  · have hasCount := otherPair.1
    rw [Dictionary.contains, find?_onlyPair] at hasCount
    split at hasCount
    · rename_i ofPair
      rcases ofPair with isCount | isSum
      · exact isCount ▸ String.le_refl _
      · have noCount := stem?_countEnding_sum metric
        rw [<- isSum, stem?_append] at noCount
        cases noCount
    · cases hasCount

/-- A point with a pair and no tag for a slice is processed as its hint says, or else as a
histogram. -/
theorem typeOf_of_isPair
    (point : Point)
    (noBound : point.tags.find? ReservedName.bucketBound = none)
    (noQuantile : point.tags.find? ReservedName.quantile = none)
    (pair : IsPair point.fields metric) :
    typeOf point = if point.hint ≠ .untyped then point.hint else .histogram := by
  have noTag :
      ¬(point.tags.contains ReservedName.bucketBound = true ∨
        point.tags.contains ReservedName.quantile = true) := by
    rw [Dictionary.contains, Dictionary.contains, noBound, noQuantile]
    decide
  have total : point.fields.keys.any isTotalField = true := by
    obtain ⟨value, found⟩ := Option.isSome_iff_exists.mp pair.1
    refine List.any_eq_true.mpr ⟨_, List.mem_map.mpr
      ⟨_, Dictionary.find?_eq_some_iff.mp found, rfl⟩, ?_⟩
    rw [isTotalField, stem?_append]
    rfl
  rw [typeOf, if_neg noTag, if_pos total]

/-- A line says the same with only its first pair. -/
theorem IsTotalLine.observations_onlyPair
    (line : IsTotalLine point)
    (isFirst : IsFirstPair (keyed point).fields metric)
    (now : UInt64) :
    observations now (onlyPair metric point) = observations now point := by
  have onlyFirst := isFirstPair_onlyPair isFirst
  have sameType : typeOf (keyed (onlyPair metric point)) = typeOf (keyed point) := by
    rw [typeOf_of_isPair (keyed point) line.noBound line.noQuantile isFirst.pair,
      typeOf_of_isPair (keyed (onlyPair metric point)) line.noBound line.noQuantile
        onlyFirst.pair]
    rfl
  have onlyLine : IsTotalLine (onlyPair metric point) :=
    ⟨line.measured, sameType ▸ line.typed, line.noBound, line.noQuantile⟩
  obtain ⟨count, foundCount⟩ := Option.isSome_iff_exists.mp isFirst.pair.1
  obtain ⟨sum, foundSum⟩ := Option.isSome_iff_exists.mp isFirst.pair.2
  have onlyCount := (find?_onlyPair_count metric point).trans foundCount
  have onlySum := (find?_onlyPair_sum metric point).trans foundSum
  rw [onlyLine.observations_eq, line.observations_eq, sameType,
    totalSlice_of_isFirstPair onlyFirst onlyCount onlySum,
    totalSlice_of_isFirstPair isFirst foundCount foundSum]
  rfl

/-- What a line says is the total of its first pair. -/
theorem IsTotalLine.exists_total
    {result : List Observation}
    (line : IsTotalLine point)
    (read : observations now point = .ok result) :
    ∃ metric countValue sumValue count sum,
      IsFirstPair (keyed point).fields metric ∧
        (keyed point).fields.find? (metric ++ ReservedName.countEnding) = some countValue ∧
        countValue.toCount (metric ++ ReservedName.countEnding) = .ok count ∧
        (keyed point).fields.find? (metric ++ ReservedName.sumEnding) = some sumValue ∧
        sumValue.toDouble (metric ++ ReservedName.sumEnding) = .ok sum ∧
        result = [.under (TagLevels.split point.tags) metric <|
          .slice (typeOf (keyed point) = .summary) (seriesOf now point)
            (.total count sum)] := by
  rw [line.observations_eq] at read
  obtain ⟨⟨metric, slice⟩, sliced, rfl⟩ := exists_of_map_eq_ok read
  cases found : firstPair? (keyed point).fields with
  | none =>
      rw [totalSlice_of_no_pair (firstPair?_eq_none_iff.mp found)] at sliced
      cases sliced
  | some pair =>
      obtain ⟨name, key, countValue, sumValue⟩ := pair
      obtain ⟨isFirst, rfl, foundCount, foundSum⟩ := of_firstPair? found
      rw [totalSlice_of_isFirstPair isFirst foundCount foundSum] at sliced
      obtain ⟨count, readCount, sliced⟩ := exists_of_bind_eq_ok sliced
      obtain ⟨sum, readSum, made⟩ := exists_of_bind_eq_ok sliced
      cases made
      exact ⟨metric, countValue, sumValue, count, sum, isFirst, foundCount, readCount, foundSum,
        readSum, rfl⟩

end Sliced

namespace LastSlices

/-- A total that comes last is that of the data point. -/
theorem point_append_total
    (series : Series)
    (parts : List SeriesSlice)
    (preferSummary : Bool)
    (count : UInt64)
    (sum : Binary64) :
    let point := point series (parts ++ [⟨preferSummary, series, .total count sum⟩])
    point.count = count ∧ point.sum? = some sum := by
  have total :
      total? (slicesOf series (parts ++ [⟨preferSummary, series, .total count sum⟩])) =
        some (count, sum) := by
    rw [total?, slicesOf, List.filter_append, List.filter_singleton, decide_eq_true rfl,
      List.map_append, List.filterMap_append]
    exact List.getLast?_concat
  dsimp only
  rw [point]
  split
  · rw [DistributionPoint.count, DistributionPoint.sum?, summaryPoint, total]
    exact ⟨rfl, rfl⟩
  · rw [DistributionPoint.count, DistributionPoint.sum?, histogramPoint, LastSlices.count,
      total]
    exact ⟨rfl, rfl⟩

end LastSlices

namespace Batch

open Grouping

/-- A point that has to state the count and the sum of a metric is refused as unpaired if it
has both for no metric, and otherwise is taken as if it had only those of its first pair.
A refused point leaves the batch as it was. After one that is accepted, the data point of
its series has the count and the sum of that pair. -/
theorem add_totalLine
    (arrivals : List Arrival)
    (now : UInt64)
    {point : Point}
    (line : Sliced.IsTotalLine point) :
    let batch := ((empty .sliced).run arrivals).1
    let fields := (Sliced.keyed point).fields
    ((∀ metric, ¬Sliced.IsPair fields metric) ->
      batch.add now point = (batch, some (Sliced.unpairedCause fields))) ∧
    (∀ metric, Sliced.IsFirstPair fields metric ->
      batch.add now point = batch.add now (Sliced.onlyPair metric point)) ∧
    ((batch.add now point).2 ≠ none -> (batch.add now point).1 = batch) ∧
    ((batch.add now point).2 = none ->
      ∃ metric countValue sumValue count sum data,
        Sliced.IsFirstPair fields metric ∧
          fields.find? (metric ++ ReservedName.countEnding) = some countValue ∧
          countValue.toCount (metric ++ ReservedName.countEnding) = .ok count ∧
          fields.find? (metric ++ ReservedName.sumEnding) = some sumValue ∧
          sumValue.toDouble (metric ++ ReservedName.sumEnding) = .ok sum ∧
          (∀ other,
            MetricTree.HoldsSeries (batch.add now point).1.finish
              (.of (TagLevels.split point.tags).resource (TagLevels.split point.tags).scope)
              metric (Sliced.seriesOf now point) other ↔ other = data) ∧
          data.count = count ∧ data.sum? = some sum) := by
  intro batch fields
  have schema : batch.schema = .sliced := by
    change ((empty .sliced).run arrivals).1.schema = .sliced
    rw [run_fst, schema_recordAll]
    rfl
  refine ⟨fun noPair => ?_, fun metric isFirst => ?_, fun refused => ?_, fun accepted => ?_⟩
  · have read : observations .sliced now point = .error (Sliced.unpairedCause fields) := by
      change Sliced.observations now point = _
      rw [line.observations_eq, Sliced.totalSlice_of_no_pair noPair]
      rfl
    rw [add, schema, read]
  · have same : observations .sliced now (Sliced.onlyPair metric point) =
        observations .sliced now point := line.observations_onlyPair isFirst now
    rw [add, add, schema, same]
  · obtain ⟨error, isError⟩ := Option.ne_none_iff_exists'.mp refused
    exact add_eq_self_of_refused isError
  · cases read : observations .sliced now point with
    | error error =>
        rw [add, schema, read] at accepted
        cases accepted
    | ok result =>
        have said : Sliced.observations now point = .ok result := read
        obtain ⟨metric, countValue, sumValue, count, sum, isFirst, foundCount, readCount,
          foundSum, readSum, rfl⟩ := line.exists_total said
        have parts := acceptedParts_append_singleton arrivals ⟨now, point⟩ accepted said rfl
        dsimp only [Observation.under] at parts
        have finished : (batch.add now point).1 =
            ((empty .sliced).run (arrivals ++ [⟨now, point⟩])).1 := by
          rw [run_append]
          rfl
        refine ⟨metric, countValue, sumValue, count, sum,
          LastSlices.point (Sliced.seriesOf now point)
            (acceptedParts (arrivals ++ [⟨now, point⟩]) (TagLevels.split point.tags).resource
              (TagLevels.split point.tags).scope metric),
          isFirst, foundCount, readCount, foundSum, readSum, fun other => ?_, ?_⟩
        · rw [finished, holdsSeries_run_iff, parts, and_iff_right]
          exact List.mem_map.mpr ⟨_, List.mem_append_right _ (.head _), rfl⟩
        · rw [parts]
          exact LastSlices.point_append_total _ _ _ count sum

/-- A line behind a bucket of its series, with a count that stands alone between those of two
metrics, records the first one. -/
theorem add_totalLine_lag :
    let arrivals : List Arrival := [⟨9, {
      measurement := "prometheus"
      tags := .ofList [("le", "1")]
      fields := .ofList [("lag_bucket", .int 3)]
      time := 5 }⟩]
    let point : Point := {
      measurement := "prometheus"
      fields := .ofList [("lag_count", .int 4), ("lag_sum", .int 7), ("size_count", .int 2),
        ("wait_count", .int 1), ("wait_sum", .int 1)]
      time := 5 }
    let batch := ((empty .sliced).run arrivals).1
    Sliced.IsTotalLine point ∧
      (batch.add 9 point).2 = none ∧
      ∃ metric count sum data,
        Sliced.IsFirstPair (Sliced.keyed point).fields metric ∧
          (∀ other, MetricTree.HoldsSeries (batch.add 9 point).1.finish (.of ∅ ⟨"", ""⟩) metric
            ⟨5, ∅⟩ other ↔ other = data) ∧
          data.count = count ∧ data.sum? = some sum := by
  intro arrivals point batch
  have line : Sliced.IsTotalLine point := ⟨rfl, .inl (by decide +kernel), rfl, rfl⟩
  have accepted : (batch.add 9 point).2 = none := by decide +kernel
  obtain ⟨metric, countValue, sumValue, count, sum, data, isFirst, -, -, -, -, holds, counts,
    sums⟩ := (add_totalLine arrivals 9 line).2.2.2 accepted
  exact ⟨line, accepted, metric, count, sum, data, isFirst, holds, counts, sums⟩

/-- A line with the count and the sum of one metric is accepted although it has a count
without a sum, or a count and a sum of another metric as well, and only the first pair leaves
a metric in the tree. -/
theorem add_totalLine_lost_fields :
    let point (fields : List (String × FieldValue)) : Point := {
      measurement := "prometheus"
      fields := .ofList fields
      time := 5
      hint := .histogram }
    let unpaired := point [("a_count", .int 1), ("b_count", .int 2), ("b_sum", .int 3)]
    let twoPairs := point
      [("a_count", .int 1), ("a_sum", .int 1), ("b_count", .int 2), ("b_sum", .int 3)]
    let added (point : Point) :=
      let (batch, answer) := (empty .sliced).add 9 point
      (answer, batch.finish.placedMetrics.map fun placed => placed.2.name)
    (Sliced.IsTotalLine unpaired ∧
        unpaired.fields.contains "a_count" = true ∧
        unpaired.fields.contains "a_sum" = false ∧
        added unpaired = (none, ["b"])) ∧
      Sliced.IsTotalLine twoPairs ∧
        Sliced.IsPair twoPairs.fields "a" ∧
        Sliced.IsPair twoPairs.fields "b" ∧
        added twoPairs = (none, ["a"]) := by
  intro point unpaired twoPairs added
  refine ⟨⟨⟨rfl, .inl rfl, rfl, rfl⟩, rfl, rfl, ?_⟩, ⟨rfl, .inl rfl, rfl, rfl⟩,
    ⟨by decide, by decide⟩, ⟨by decide, by decide⟩, ?_⟩
  · decide +kernel
  · decide +kernel

end Batch
end LineMetrics
