import LineMetrics.Proofs.Rewriting
import LineMetrics.Proofs.SlicedPoints
import LineMetrics.Proofs.WholeReadings

/-!
# Distributions as points state them

A distribution can be stated by one whole point, or by sliced points: one line with the
count and the sum, one for each part, and perhaps one for an infinite bucket. Each line
says one slice, whichever spelling its key has and whatever hint it carries.
-/

namespace LineMetrics

namespace FieldValue

/-- A value is read as a count in whichever field it stands. -/
theorem toCount_field
    {field : String}
    {value : FieldValue}
    {count : UInt64}
    (other : String)
    (read : value.toCount field = .ok count) :
    value.toCount other = .ok count := by
  cases value with
  | int value =>
      rw [toCount] at read ⊢
      split at read
      · cases read
      · rename_i atLeastZero
        rw [if_neg atLeastZero]
        exact read
  | uint value => exact read
  | float value =>
      rw [toCount] at read ⊢
      split at read
      · rename_i isCount
        rw [if_pos isCount]
        exact read
      · cases read
  | text value => cases read
  | bool value => cases read

/-- A value is read as a binary64 number in whichever field it stands. -/
theorem toDouble_field
    {field : String}
    {value : FieldValue}
    {double : Binary64}
    (other : String)
    (read : value.toDouble field = .ok double) :
    value.toDouble other = .ok double := by
  cases value <;> first | exact read | cases read

end FieldValue

/-- The hint at a distribution. -/
def Distribution.hint : Distribution -> TypeHint
  | .histogram => .histogram
  | .summary => .summary

/-- A distribution of one data point in the form in which points state it: the keys of
its parts are places, and one more count may stand for an infinite bucket. -/
structure StatedDistribution where
  metric : String
  tags : Tags
  time : UInt64
  count : FieldValue
  sum : FieldValue
  parts : List (String × FieldValue)
  closing : Option FieldValue := none

namespace StatedDistribution

/-- The whole point that states the distribution. -/
def wholePoint (kind : Distribution) (stated : StatedDistribution) : Point where
  measurement := stated.metric
  tags := stated.tags
  fields :=
    .ofList <|
      (ReservedName.count, stated.count) :: (ReservedName.sum, stated.sum) :: stated.parts
  time := stated.time
  hint := kind.hint

/-- A sliced point without a hint. -/
def line (stated : StatedDistribution) (tags : Tags) (fields : Fields) : Point where
  measurement := ReservedName.prometheus
  tags := tags
  fields := fields
  time := stated.time

/-- The sliced point with the count and the sum. -/
def totalLine (stated : StatedDistribution) : Point :=
  stated.line stated.tags <|
    ((∅ : Fields).insert (stated.metric ++ ReservedName.countEnding) stated.count).insert
      (stated.metric ++ ReservedName.sumEnding) stated.sum

/-- The sliced point with a bucket. -/
def bucketLine (stated : StatedDistribution) (key : String) (value : FieldValue) : Point :=
  stated.line (stated.tags.insert ReservedName.bucketBound key)
    ((∅ : Fields).insert (stated.metric ++ ReservedName.bucketEnding) value)

/-- The sliced point with a quantile. -/
def quantileLine (stated : StatedDistribution) (key : String) (value : FieldValue) : Point :=
  stated.line (stated.tags.insert ReservedName.quantile key)
    ((∅ : Fields).insert stated.metric value)

/-- The sliced point with one part. -/
def partLine (stated : StatedDistribution) (kind : Distribution) (part : String × FieldValue) :
    Point :=
  match kind with
  | .histogram => stated.bucketLine part.1 part.2
  | .summary => stated.quantileLine part.1 part.2

/-- The sliced points that state the distribution. -/
def lines (kind : Distribution) (stated : StatedDistribution) : List Point :=
  stated.totalLine ::
    (stated.parts.map (stated.partLine kind) ++
      stated.closing.toList.map (stated.bucketLine ReservedName.infiniteBound))

/-- A hint that a sliced point of the distribution may have. One that asks for a summary
would turn a histogram into one. -/
def MayHint (kind : Distribution) (hint : TypeHint) : Prop :=
  hint = .untyped ∨ hint = .histogram ∨ hint = .summary ∧ kind = .summary

instance (kind : Distribution) (hint : TypeHint) : Decidable (MayHint kind hint) :=
  inferInstanceAs (Decidable (_ ∨ _ ∨ _ ∧ _))

/-- The value of a part can be read. -/
def canRead (kind : Distribution) (part : String × FieldValue) : Bool :=
  match kind with
  | .histogram => (part.2.toCount part.1).isOk
  | .summary => (part.2.toDouble part.1).isOk

/-- The distribution can be read: its parts stand at numerically different finite places,
its values can be read, and its tags do not select a slice. -/
structure IsReadable (kind : Distribution) (stated : StatedDistribution) : Prop where
  noBound : stated.tags.find? ReservedName.bucketBound = none
  noQuantile : stated.tags.find? ReservedName.quantile = none
  timed : stated.time ≠ 0
  count : (stated.count.toCount ReservedName.count).isOk
  sum : (stated.sum.toDouble ReservedName.sum).isOk
  nonempty : stated.parts ≠ []
  finite : ∀ part ∈ stated.parts, (Binary64.ofFiniteKey? part.1).isSome
  different : (stated.parts.filterMap fun part => Binary64.ofFiniteKey? part.1).Pairwise
    fun left right => left.sameNumber right = false
  values : ∀ part ∈ stated.parts, canRead kind part
  closing : ∀ value ∈ stated.closing, (value.toCount ReservedName.bucketEnding).isOk
  named : kind = .summary -> stated.metric ≠ ""

end StatedDistribution

namespace Whole

variable {α : Type} {readPart : String -> FieldValue -> Except Error α}

/-- A field whose key is a finite number and whose value can be read states a part. -/
theorem statesPart_of_read
    {entry : String × FieldValue}
    (finite : (Binary64.ofFiniteKey? entry.1).isSome)
    (read : (readPart entry.1 entry.2).isOk) :
    StatesPart readPart entry := by
  obtain ⟨place, isPlace⟩ := Option.isSome_iff_exists.mp finite
  obtain ⟨part, value⟩ := exists_of_isOk read
  rw [StatesPart, statedPart?, isPlace, value]
  exact ⟨(place, part), rfl⟩

/-- What states parts states them one by one. -/
theorem forall₂_statedPart?
    {entries : List (String × FieldValue)}
    (states : ∀ entry ∈ entries, StatesPart readPart entry) :
    List.Forall₂ (fun entry part => statedPart? readPart entry = some part) entries
      (entries.filterMap (statedPart? readPart)) := by
  induction entries with
  | nil => exact .nil
  | cons entry entries inductionHypothesis =>
      obtain ⟨⟨part, stated⟩, others⟩ := List.forall_mem_cons.mp states
      rw [List.filterMap_cons, stated]
      exact .cons stated (inductionHypothesis others)

/-- Fields with numerically different keys state parts at different places. -/
theorem pairwise_statedPart?
    {entries : List (String × FieldValue)}
    (different : (entries.filterMap fun entry => Binary64.ofFiniteKey? entry.1).Pairwise
      fun left right => left.sameNumber right = false) :
    (entries.filterMap (statedPart? readPart)).Pairwise fun left right =>
      left.1.sameNumber right.1 = false := by
  rw [List.pairwise_filterMap] at different ⊢
  apply different.imp
  intro left right apart first firstStated second secondStated
  exact apart _ (statedPart?_eq_some firstStated).1 _ (statedPart?_eq_some secondStated).1

end Whole

namespace StatedDistribution

variable {kind : Distribution} {stated : StatedDistribution}

/-- The levels of the tags. -/
def levels (stated : StatedDistribution) : TagLevels := TagLevels.split stated.tags

/-- The series of the data point. -/
def series (stated : StatedDistribution) : Series := ⟨stated.time, stated.levels.attributes⟩

/-- The attributes of the data point do not select a slice. -/
theorem IsReadable.seriesTags (readable : stated.IsReadable kind) :
    Sliced.SeriesTags stated.levels.attributes := by
  refine ⟨(TagLevels.separated_split stated.tags).attributes, ?_, ?_⟩
  · rw [levels, TagLevels.find?_attributes_split, readable.noBound, ite_self]
  · rw [levels, TagLevels.find?_attributes_split, readable.noQuantile, ite_self]

/-- The count can be read in any field. -/
theorem IsReadable.exists_count (readable : stated.IsReadable kind) :
    ∃ count, ∀ field, stated.count.toCount field = .ok count := by
  obtain ⟨count, read⟩ := exists_of_isOk readable.count
  exact ⟨count, fun field => FieldValue.toCount_field field read⟩

/-- The sum can be read in any field. -/
theorem IsReadable.exists_sum (readable : stated.IsReadable kind) :
    ∃ sum, ∀ field, stated.sum.toDouble field = .ok sum := by
  obtain ⟨sum, read⟩ := exists_of_isOk readable.sum
  exact ⟨sum, fun field => FieldValue.toDouble_field field read⟩

/-- The count of an infinite bucket can be read in any field. -/
theorem IsReadable.exists_closing
    {value : FieldValue}
    (readable : stated.IsReadable kind)
    (closing : stated.closing = some value) :
    ∃ count, ∀ field, value.toCount field = .ok count := by
  obtain ⟨count, read⟩ := exists_of_isOk (readable.closing value closing)
  exact ⟨count, fun field => FieldValue.toCount_field field read⟩

/-- Points that have the form of a line, whatever hint they may have, say a slice. -/
def SaysLine
    (kind : Distribution)
    (stated : StatedDistribution)
    (line : Point)
    (slice : Slice) : Prop :=
  ∀ point : Point, { point with hint := .untyped } = line -> MayHint kind point.hint ->
    ∃ preferSummary,
      (preferSummary = true -> kind = .summary) ∧
        Sliced.Says point
          (.under stated.levels stated.metric <|
            .slice preferSummary stated.series slice)

/-- Points that have the form of a line that looks like a histogram hold a slice. -/
theorem exists_holdsSlice
    {point line : Point}
    (readable : stated.IsReadable kind)
    (same : { point with hint := .untyped } = line)
    (measured : line.measurement = ReservedName.prometheus)
    (timed : line.time = stated.time)
    (typed : Sliced.typeOf line = .histogram)
    (mayHint : MayHint kind point.hint) :
    ∃ preferSummary,
      (preferSummary = true -> kind = .summary) ∧
        Sliced.HoldsSlice preferSummary stated.time point := by
  subst same
  have hasTime : point.time ≠ 0 := fun none => readable.timed (timed.symm.trans none)
  rcases mayHint with untyped | histogram | ⟨summary, isSummary⟩
  · refine ⟨false, nofun, measured, hasTime, timed, ?_⟩
    rw [<- untyped] at typed
    exact typed
  · exact ⟨false, nofun, measured, hasTime, timed, Sliced.typeOf_of_sliceHint histogram⟩
  · exact ⟨true, fun _ => isSummary, measured, hasTime, timed,
      Sliced.typeOf_of_sliceHint summary⟩

/-- A point with the tag of a bucket or a quantile looks like a histogram. -/
theorem typeOf_line_of_tag
    (stated : StatedDistribution)
    {tags : Tags}
    (fields : Fields)
    (selects : tags.contains ReservedName.bucketBound = true ∨
      tags.contains ReservedName.quantile = true) :
    Sliced.typeOf (stated.line tags fields) = .histogram := by
  have noHint : (stated.line tags fields).hint = .untyped := rfl
  rw [Sliced.typeOf, if_neg (not_not_intro noHint)]
  exact if_pos selects

/-- A new tag is there. -/
theorem contains_insert (tags : Tags) (key value : String) :
    (tags.insert key value).contains key = true := by
  rw [Dictionary.contains, Dictionary.find?_insert, if_pos rfl]
  rfl

/-- The point with a bucket says it. -/
theorem IsReadable.says_bucketLine
    {key : String}
    {value : FieldValue}
    {bound : Binary64}
    {count : UInt64}
    (readable : stated.IsReadable kind)
    (place : Binary64.ofKey? key = some bound)
    (counts : ∀ field, value.toCount field = .ok count) :
    SaysLine kind stated (stated.bucketLine key value) (.bucket bound count) := by
  intro point same mayHint
  have typed := typeOf_line_of_tag stated
    ((∅ : Fields).insert (stated.metric ++ ReservedName.bucketEnding) value)
    (.inl (contains_insert stated.tags ReservedName.bucketBound key))
  obtain ⟨preferSummary, prefers, holds⟩ :=
    exists_holdsSlice readable same rfl rfl typed mayHint
  have tagged : point.tags = stated.tags.insert ReservedName.bucketBound key :=
    congrArg Point.tags same
  have fields : point.fields.entries =
      [(stated.metric ++ ReservedName.bucketEnding, value)] :=
    congrArg (fun point : Point => point.fields.entries) same
  exact ⟨preferSummary, prefers,
    holds.says_bucket tagged rfl readable.seriesTags fields place (counts _)⟩

/-- The point with a quantile says it. -/
theorem IsReadable.says_quantileLine
    {key : String}
    {value : FieldValue}
    {place double : Binary64}
    (readable : stated.IsReadable kind)
    (named : stated.metric ≠ "")
    (isPlace : Binary64.ofFiniteKey? key = some place)
    (doubles : ∀ field, value.toDouble field = .ok double) :
    SaysLine kind stated (stated.quantileLine key value) (.quantile place double) := by
  intro point same mayHint
  have typed := typeOf_line_of_tag stated
    ((∅ : Fields).insert stated.metric value)
    (.inr (contains_insert stated.tags ReservedName.quantile key))
  obtain ⟨preferSummary, prefers, holds⟩ :=
    exists_holdsSlice readable same rfl rfl typed mayHint
  have tagged : point.tags = stated.tags.insert ReservedName.quantile key :=
    congrArg Point.tags same
  have fields : point.fields.entries = [(stated.metric, value)] :=
    congrArg (fun point : Point => point.fields.entries) same
  exact ⟨preferSummary, prefers,
    holds.says_quantile tagged rfl readable.seriesTags fields named isPlace (doubles _)⟩

/-- The point with the count and the sum looks like a histogram. -/
theorem typeOf_totalLine
    (noBound : stated.tags.find? ReservedName.bucketBound = none)
    (noQuantile : stated.tags.find? ReservedName.quantile = none) :
    Sliced.typeOf stated.totalLine = .histogram := by
  have noTag :
      ¬(stated.totalLine.tags.contains ReservedName.bucketBound = true ∨
        stated.totalLine.tags.contains ReservedName.quantile = true) := by
    rw [totalLine, line, Dictionary.contains, Dictionary.contains, noBound, noQuantile]
    decide
  have total : stated.totalLine.fields.keys.any Sliced.isTotalField = true := by
    have found :
        (stated.metric ++ ReservedName.sumEnding, stated.sum) ∈
          stated.totalLine.fields.entries := by
      rw [<- Dictionary.find?_eq_some_iff, totalLine, line, Dictionary.find?_insert,
        if_pos rfl]
    refine List.any_eq_true.mpr ⟨_, List.mem_map_of_mem found, ?_⟩
    rw [Sliced.isTotalField, Sliced.stem?_append, Option.isSome_some, Bool.or_true]
  have noHint : stated.totalLine.hint = .untyped := rfl
  rw [Sliced.typeOf, if_neg (not_not_intro noHint), if_neg noTag, if_pos total]

/-- The point with the count and the sum says them. -/
theorem IsReadable.says_totalLine
    {count : UInt64}
    {sum : Binary64}
    (readable : stated.IsReadable kind)
    (counts : ∀ field, stated.count.toCount field = .ok count)
    (sums : ∀ field, stated.sum.toDouble field = .ok sum) :
    SaysLine kind stated stated.totalLine (.total count sum) := by
  intro point same mayHint
  obtain ⟨preferSummary, prefers, holds⟩ :=
    exists_holdsSlice readable same rfl rfl
      (typeOf_totalLine readable.noBound readable.noQuantile) mayHint
  have tagged : TagLevels.split point.tags = stated.levels :=
    congrArg (fun point : Point => TagLevels.split point.tags) same
  exact ⟨preferSummary, prefers,
    holds.says_total tagged readable.seriesTags (congrArg Point.fields same) (counts _)
      (sums _)⟩

/-- A whole point with a time is observed at that time. -/
theorem timeOr_wholePoint (timed : stated.time ≠ 0) (now : UInt64) :
    (stated.wholePoint kind).timeOr now = stated.time := by
  rw [Point.timeOr]
  exact if_neg timed

/-- The whole point has the count, the sum and the parts as its fields. -/
theorem fields_wholePoint (stated : StatedDistribution) (kind : Distribution) :
    (stated.wholePoint kind).fields =
      .ofList ((ReservedName.count, stated.count) :: (ReservedName.sum, stated.sum) ::
        stated.parts) := rfl

/-- The whole point of a histogram says its buckets in order. -/
theorem says_wholePoint_histogram
    {count : UInt64}
    {sum : Binary64}
    {buckets : List (Binary64 × UInt64)}
    (timed : stated.time ≠ 0)
    (read : Whole.distribution .histogram (fun key value => value.toCount key)
      (stated.wholePoint .histogram) = .ok (count, sum, buckets))
    (ordered : OrderedPlaces (buckets.map Prod.fst)) :
    Batch.Says .whole (stated.wholePoint .histogram)
      (.under stated.levels stated.metric <| .histogram <|
        .ofBuckets (Attribute.ofTags stated.levels.attributes) stated.time count (some sum)
          buckets) := by
  intro now
  have typed : Whole.typeOf (stated.wholePoint .histogram) = .histogram :=
    if_pos (show TypeHint.histogram ≠ .untyped by decide)
  change Whole.observations now (stated.wholePoint .histogram) = _
  rw [Whole.observations, typed, timeOr_wholePoint timed]
  dsimp only
  rw [Whole.histogramObservation_eq_ok_iff.mpr ⟨count, sum, buckets, read, ordered, rfl⟩]
  rfl

/-- The whole point of a summary says its quantiles in order. -/
theorem says_wholePoint_summary
    {count : UInt64}
    {sum : Binary64}
    {quantiles : List (Binary64 × Binary64)}
    (timed : stated.time ≠ 0)
    (read : Whole.distribution .summary (fun key value => value.toDouble key)
      (stated.wholePoint .summary) = .ok (count, sum, quantiles)) :
    Batch.Says .whole (stated.wholePoint .summary)
      (.under stated.levels stated.metric <| .summary <|
        .ofQuantiles (Attribute.ofTags stated.levels.attributes) stated.time count sum
          quantiles) := by
  intro now
  have typed : Whole.typeOf (stated.wholePoint .summary) = .summary :=
    if_pos (show TypeHint.summary ≠ .untyped by decide)
  change Whole.observations now (stated.wholePoint .summary) = _
  rw [Whole.observations, typed, timeOr_wholePoint timed]
  dsimp only
  rw [Whole.summaryObservation_eq_ok_iff.mpr ⟨count, sum, quantiles, read, rfl⟩]
  rfl

end StatedDistribution
end LineMetrics
