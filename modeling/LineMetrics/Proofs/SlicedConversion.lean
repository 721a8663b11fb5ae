import LineMetrics.Proofs.WholeRoundTrip

/-!
# Whole readings as sliced points

What whole points say of a metric is written as sliced points. A gauge or a counter says
its number again, without the start time of a counter. A data point of a distribution is
cut into slices of its series, unless one of its attributes would select a slice: then
the point with its count and its sum is taken for something else, and is refused.
-/

namespace LineMetrics

namespace MetricKind

/-- The kind of a metric of whole points once it is made of sliced points. -/
def sliced : MetricKind -> MetricKind
  | .whole _ => .assembled
  | kind => kind

end MetricKind

namespace Series

/-- The series of a data point with some attributes. -/
def of (time : UInt64) (attributes : List Attribute) : Series :=
  ⟨time, TagLevels.addAttributes ∅ attributes⟩

@[simp] theorem time_of (time : UInt64) (attributes : List Attribute) :
    (of time attributes).time = time := rfl

/-- The time and the attributes of the data point of a series. -/
def place (series : Series) : UInt64 × List Attribute :=
  (series.time, Attribute.ofTags series.attributes)

end Series

/-- The attributes are tags that stand on the level of attributes. -/
def AreAttributes (attributes : List Attribute) : Prop :=
  ∃ tags : Tags, attributes = Attribute.ofTags tags ∧
    ∀ key, tags.contains key -> TagLevels.isAttributeLevel key

/-- The tags of attributes that are tags. -/
theorem addAttributes_ofTags
    {tags : Tags}
    (attributes : ∀ key, tags.contains key -> TagLevels.isAttributeLevel key) :
    TagLevels.addAttributes ∅ (Attribute.ofTags tags) = tags := by
  apply Dictionary.ext_find?
  intro key
  rw [TagLevels.find?_addAttributes_ofTags, Dictionary.find?_empty]
  by_cases noKey : key = ""
  · subst noKey
    have absent : tags.contains "" ≠ true := fun present => by cases attributes "" present
    rw [if_pos rfl]
    exact (Option.not_isSome_iff_eq_none.mp absent).symm
  · rw [if_neg noKey, Option.or_none]

namespace AreAttributes

variable {attributes : List Attribute}

/-- The tags of attributes stand on their level. -/
theorem contains
    (areAttributes : AreAttributes attributes)
    (time : UInt64) :
    ∀ key, (Series.of time attributes).attributes.contains key ->
      TagLevels.isAttributeLevel key := by
  obtain ⟨tags, rfl, level⟩ := areAttributes
  rw [Series.of, addAttributes_ofTags level]
  exact level

/-- The attributes are found again in their series. -/
theorem ofTags_series (areAttributes : AreAttributes attributes) (time : UInt64) :
    Attribute.ofTags (Series.of time attributes).attributes = attributes := by
  obtain ⟨tags, rfl, level⟩ := areAttributes
  rw [Series.of, addAttributes_ofTags level]

/-- The series of a data point stands at its time and attributes. -/
theorem place_series (areAttributes : AreAttributes attributes) (time : UInt64) :
    (Series.of time attributes).place = (time, attributes) :=
  congrArg (time, ·) (areAttributes.ofTags_series time)

end AreAttributes

namespace Attribute

/-- The attributes of a series would select a slice exactly if it has one of the two tags
that do. -/
theorem any_isSelector_ofTags (tags : Tags) :
    (ofTags tags).any isSelector = true ↔
      tags.contains ReservedName.bucketBound = true ∨
        tags.contains ReservedName.quantile = true := by
  have holds (key : String) :
      (∃ value, (key, value) ∈ tags.entries) ↔ tags.contains key = true := by
    rw [Dictionary.contains, Option.isSome_iff_exists]
    exact exists_congr fun value => Dictionary.find?_eq_some_iff.symm
  rw [ofTags, List.any_map, List.any_eq_true, <- holds, <- holds]
  constructor
  · rintro ⟨⟨key, value⟩, member, selects⟩
    rcases Bool.or_eq_true_iff.mp selects with isBound | isQuantile
    · exact .inl ⟨value, of_decide_eq_true isBound ▸ member⟩
    · exact .inr ⟨value, of_decide_eq_true isQuantile ▸ member⟩
  · rintro (⟨value, member⟩ | ⟨value, member⟩)
    · exact ⟨_, member, by simp [isSelector, ofText]⟩
    · exact ⟨_, member, by simp [isSelector, ofText]⟩

end Attribute

/-- Attributes none of which would select a slice are those of a series. -/
theorem AreAttributes.seriesTags
    {attributes : List Attribute}
    (areAttributes : AreAttributes attributes)
    (noSelector : attributes.any Attribute.isSelector = false)
    (time : UInt64) :
    Sliced.SeriesTags (Series.of time attributes).attributes := by
  rw [<- areAttributes.ofTags_series time, Bool.eq_false_iff, ne_eq,
    Attribute.any_isSelector_ofTags, not_or] at noSelector
  obtain ⟨noBound, noQuantile⟩ := noSelector
  exact ⟨areAttributes.contains time, Option.not_isSome_iff_eq_none.mp noBound,
    Option.not_isSome_iff_eq_none.mp noQuantile⟩

namespace Sliced

/-- Whenever it arrives, the point says nothing. -/
def Refuses (point : Point) : Prop := ∀ now, ∃ error, observations now point = .error error

/-- The field with the count or the sum of a distribution is not taken for one of a
bucket. -/
theorem stem?_bucketEnding_total (stem : String) :
    stem? ReservedName.bucketEnding (stem ++ ReservedName.countEnding) = none ∧
      stem? ReservedName.bucketEnding (stem ++ ReservedName.sumEnding) = none := by
  have notEnding (ending : String)
      (differs : ReservedName.bucketEnding.toList.isSuffixOf
        (stem ++ ending).toList = false) :
      stem? ReservedName.bucketEnding (stem ++ ending) = none := by
    rw [stem?, differs, if_neg Bool.false_ne_true]
  constructor
  · apply notEnding
    rw [List.isSuffixOf, String.toList_append, List.reverse_append]
    rfl
  · apply notEnding
    rw [List.isSuffixOf, String.toList_append, List.reverse_append]
    rfl

/-- No slice is found in the fields of a total if a tag selects a bucket or a quantile. -/
theorem selectedSlice_total
    {attributes : Tags}
    {fields : Fields}
    {metric : String}
    {countValue sumValue : FieldValue}
    (selects : attributes.contains ReservedName.bucketBound = true ∨
      attributes.contains ReservedName.quantile = true)
    (made : fields =
      ((∅ : Fields).insert (metric ++ ReservedName.countEnding) countValue).insert
        (metric ++ ReservedName.sumEnding) sumValue) :
    ∃ error, selectedSlice attributes fields = .error error := by
  obtain ⟨noCount, noSum⟩ := stem?_bucketEnding_total metric
  have entries := entries_totalFields made
  rw [selectedSlice]
  rw [Dictionary.contains, Dictionary.contains] at selects
  cases bound : attributes.find? ReservedName.bucketBound with
  | some text =>
      dsimp only
      rw [bucketSlice]
      cases Binary64.ofKey? text with
      | none => exact ⟨_, rfl⟩
      | some number =>
          refine ⟨.unpairedBucket text, ?_⟩
          rcases entries with entries | entries <;> simp [entries, noCount, noSum]
  | none =>
      cases quantile : attributes.find? ReservedName.quantile with
      | some text =>
          dsimp only
          rw [quantileSlice]
          cases Binary64.ofFiniteKey? text with
          | none => exact ⟨_, rfl⟩
          | some number =>
              refine ⟨.fieldCount "quantile" 2, ?_⟩
              rcases entries with entries | entries <;> simp [entries]
      | none =>
          rw [bound, quantile] at selects
          simp at selects

/-- The point with the total of a data point is refused if one of the attributes selects a
bucket or a quantile. -/
theorem refuses_totalPoint
    {resource : Tags}
    {attributes : List Attribute}
    (preferSummary : Bool)
    (scope : Scope)
    (metric : String)
    (time count : UInt64)
    (sum : Binary64)
    (separated : ∀ key, resource.contains key -> TagLevels.isResourceLevel key)
    (areAttributes : AreAttributes attributes)
    (selects : attributes.any Attribute.isSelector = true) :
    Refuses
      (totalPoint (bare (.of resource scope) attributes time (sliceHint preferSummary))
        metric count sum) := by
  obtain ⟨tags, rfl, level⟩ := areAttributes
  have levels : TagLevels.Separated ⟨resource, scope, tags⟩ := ⟨separated, level⟩
  have split := split_tags_bare levels time (sliceHint preferSummary)
  generalize point_eq : totalPoint
    (bare (.of resource scope) (Attribute.ofTags tags) time (sliceHint preferSummary))
    metric count sum = point
  have made : point.fields =
      ((∅ : Fields).insert (metric ++ ReservedName.countEnding)
        (.float (.ofNat count.toNat))).insert (metric ++ ReservedName.sumEnding)
          (.float sum) := point_eq ▸ rfl
  have typed : typeOf point = sliceHint preferSummary := typeOf_of_sliceHint (point_eq ▸ rfl)
  have splitHere : TagLevels.split point.tags = ⟨resource, scope, tags⟩ := point_eq ▸ split
  obtain ⟨error, none⟩ :=
    selectedSlice_total ((Attribute.any_isSelector_ofTags tags).mp selects) made
  intro now
  refine ⟨error, ?_⟩
  rw [observations_of_named now (point_eq ▸ rfl) (named_totalFields made),
    observation_of_typeOf _ typed, sliceObservation_eq _ _ splitHere, none]
  rfl

/-- The points of the slices of a data point say them as they are read again, if none of
the attributes would select a slice. -/
theorem forall₂_says_cut
    {resource : Tags}
    {scope : Scope}
    {metric : String}
    {time : UInt64}
    {attributes : List Attribute}
    {slices : List Slice}
    (preferSummary : Bool)
    (separated : ∀ key, resource.contains key -> TagLevels.isResourceLevel key)
    (timed : time ≠ 0)
    (areAttributes : AreAttributes attributes)
    (noSelector : attributes.any Attribute.isSelector = false)
    (readable : ∀ slice ∈ slices, slice.IsReadable metric) :
    List.Forall₂ Says
      (slices.map (slicePoint
        (bare (.of resource scope) attributes time (sliceHint preferSummary)) metric))
      ((Grouping.partsOf preferSummary (.of time attributes)
        (slices.map Slice.restated)).map fun part =>
          ⟨resource, scope, metric, part.toReading⟩) := by
  simpa only [areAttributes.ofTags_series, Series.time_of] using
    forall₂_says_slices preferSummary separated timed
      (areAttributes.seriesTags noSelector time) readable

end Sliced

/-- A data point of a histogram as a whole point with a time says it. -/
structure HistogramPoint.IsStated (point : HistogramPoint) : Prop where
  timed : point.time ≠ 0
  areAttributes : AreAttributes point.attributes
  wellFormed : point.WellFormed

/-- A data point of a summary as a whole point with a time says it. -/
structure SummaryPoint.IsStated (point : SummaryPoint) : Prop where
  timed : point.time ≠ 0
  areAttributes : AreAttributes point.attributes
  finite : ∀ quantile ∈ point.quantiles, quantile.quantile.isFinite = true

/-- The slices of its series that a data point is cut into, as they are read again. -/
def HistogramPoint.cut (point : HistogramPoint) : List SeriesSlice :=
  Grouping.partsOf false (.of point.time point.attributes) (point.slices.map Slice.restated)

/-- The slices of its series that a data point is cut into, as they are read again. -/
def SummaryPoint.cut (point : SummaryPoint) : List SeriesSlice :=
  Grouping.partsOf true (.of point.time point.attributes) (point.slices.map Slice.restated)

namespace Reading

/-- What sliced points say that are written for a whole reading. -/
def converted : Reading -> List Reading
  | .sum temporality point => [.sum temporality point.withoutStart]
  | .histogram point => point.cut.map SeriesSlice.toReading
  | .summary point => point.cut.map SeriesSlice.toReading
  | reading => [reading]

/-- A reading is converted to something. -/
theorem converted_ne_nil (reading : Reading) : reading.converted ≠ [] := by
  cases reading <;> exact List.cons_ne_nil _ _

/-- A reading is converted to readings of one kind. -/
theorem kind_of_mem_converted
    {reading other : Reading}
    (member : other ∈ reading.converted) :
    other.kind = reading.kind.sliced := by
  cases reading with
  | gauge point =>
      cases List.mem_singleton.mp member
      rfl
  | sum temporality point =>
      cases List.mem_singleton.mp member
      rfl
  | histogram point =>
      obtain ⟨part, -, rfl⟩ := List.mem_map.mp member
      rfl
  | summary point =>
      obtain ⟨part, -, rfl⟩ := List.mem_map.mp member
      rfl
  | slice preferSummary series slice =>
      cases List.mem_singleton.mp member
      rfl

/-- A gauge and a counter with running totals are converted one reading at a time. -/
theorem flatMap_converted
    {readings : List Reading}
    (isNumber : ∀ reading ∈ readings,
      reading.kind = .gauge ∨ reading.kind = .sum .cumulative) :
    readings.flatMap converted = readings.map withoutRunningStart := by
  rw [List.map_eq_flatMap]
  apply List.flatMap_congr
  intro reading member
  cases reading with
  | gauge point => rfl
  | sum temporality point =>
      rcases isNumber _ member with isGauge | isSum
      · cases isGauge
      · cases isSum
        rfl
  | histogram point => rcases isNumber _ member with other | other <;> cases other
  | summary point => rcases isNumber _ member with other | other <;> cases other
  | slice preferSummary series slice =>
      rcases isNumber _ member with other | other <;> cases other

end Reading

namespace Whole

variable {readings : List Reading}

/-- Histograms that whole points with a time say are stated. -/
theorem exists_histograms
    (sameKind : ∀ reading ∈ readings, reading.kind = .whole .histogram)
    (canSay : ∀ reading ∈ readings, CanSay reading) :
    ∃ points : List HistogramPoint,
      readings = points.map .histogram ∧ ∀ point ∈ points, point.IsStated := by
  induction readings with
  | nil => exact ⟨[], rfl, List.forall_mem_nil _⟩
  | cons reading readings inductionHypothesis =>
      obtain ⟨isHistogram, sameKindBehind⟩ := List.forall_mem_cons.mp sameKind
      obtain ⟨⟨time, timed, reads⟩, canSayBehind⟩ := List.forall_mem_cons.mp canSay
      obtain ⟨points, rfl, stated⟩ := inductionHypothesis sameKindBehind canSayBehind
      cases reads with
      | gauge => cases isHistogram
      | sum => cases isHistogram
      | histogram tags count sum buckets attributes finite ordered =>
          refine ⟨_ :: points, rfl, List.forall_mem_cons.mpr ⟨?_, stated⟩⟩
          exact ⟨timed, ⟨tags, rfl, attributes⟩, ordered, finite,
            .inr (HistogramPoint.length_counts_ofBuckets _ _ _ _ _)⟩
      | summary => cases isHistogram

/-- Summaries that whole points with a time say are stated. -/
theorem exists_summaries
    (sameKind : ∀ reading ∈ readings, reading.kind = .whole .summary)
    (canSay : ∀ reading ∈ readings, CanSay reading) :
    ∃ points : List SummaryPoint,
      readings = points.map .summary ∧ ∀ point ∈ points, point.IsStated := by
  induction readings with
  | nil => exact ⟨[], rfl, List.forall_mem_nil _⟩
  | cons reading readings inductionHypothesis =>
      obtain ⟨isSummary, sameKindBehind⟩ := List.forall_mem_cons.mp sameKind
      obtain ⟨⟨time, timed, reads⟩, canSayBehind⟩ := List.forall_mem_cons.mp canSay
      obtain ⟨points, rfl, stated⟩ := inductionHypothesis sameKindBehind canSayBehind
      cases reads with
      | gauge => cases isSummary
      | sum => cases isSummary
      | histogram => cases isSummary
      | summary tags count sum quantiles attributes finite ascending =>
          refine ⟨_ :: points, rfl, List.forall_mem_cons.mpr ⟨?_, stated⟩⟩
          exact ⟨timed, ⟨tags, rfl, attributes⟩,
            List.forall_mem_map.mpr (List.forall_mem_map.mp finite)⟩

/-- The data of histograms that came as wholes. -/
theorem dataOf_histograms (points : List HistogramPoint) :
    Grouping.dataOf (.whole .histogram) (points.map .histogram) =
      .histogram points Temporality.cumulative.code := by
  rw [Grouping.dataOf, List.filterMap_map]
  exact congrArg (MetricData.histogram · _) List.filterMap_some

/-- The data of summaries that came as wholes. -/
theorem dataOf_summaries (points : List SummaryPoint) :
    Grouping.dataOf (.whole .summary) (points.map .summary) = .summary points := by
  rw [Grouping.dataOf, List.filterMap_map]
  exact congrArg MetricData.summary List.filterMap_some

section Metric

variable {resource : Tags} {scope : Scope} {metric : String}

/-- The sliced points that are written for data say readings, unless an attribute would
select a slice. Then one of the points is refused. -/
def WritesSliced
    (resource : Tags)
    (scope : Scope)
    (metric : String)
    (data : MetricData)
    (readings : List Reading) : Prop :=
  ∃ points,
    Sliced.points (.of resource scope) metric data = .ok points ∧
      (data.hasSelector = false ->
        List.Forall₂ Sliced.Says points
          (readings.map fun reading => ⟨resource, scope, metric, reading⟩)) ∧
      (data.hasSelector = true -> ∃ point ∈ points, Sliced.Refuses point)

/-- Data that are not distributions are written as points that say readings. -/
theorem WritesSliced.of_said
    {data : MetricData}
    (said : ∃ points,
      Sliced.points (.of resource scope) metric data = .ok points ∧
        List.Forall₂ Sliced.Says points
          (readings.map fun reading => ⟨resource, scope, metric, reading⟩))
    (noSelector : data.hasSelector = false) :
    WritesSliced resource scope metric data readings := by
  obtain ⟨points, success, said⟩ := said
  refine ⟨points, success, fun _ => said, fun selects => ?_⟩
  rw [noSelector] at selects
  cases selects

/-- The number of a gauge is said. -/
theorem saysNumber_gauge
    {reading : Reading}
    (separated : ∀ key, resource.contains key -> TagLevels.isResourceLevel key)
    (named : metric ≠ "")
    (isGauge : reading.kind = .gauge)
    (canSay : CanSay reading) :
    Sliced.SaysNumber resource metric .gauge reading reading.withoutRunningStart := by
  obtain ⟨time, timed, reads⟩ := canSay
  cases reads with
  | gauge tags number attributes =>
      exact ⟨tags, 0, time, number, rfl, rfl, fun _ => ⟨separated, attributes⟩, timed, named⟩
  | sum => cases isGauge
  | histogram => cases isGauge
  | summary => cases isGauge

/-- The number of a counter is said without its start time. -/
theorem saysNumber_counter
    {reading : Reading}
    (separated : ∀ key, resource.contains key -> TagLevels.isResourceLevel key)
    (named : metric ≠ "")
    (isSum : reading.kind = .sum .cumulative)
    (canSay : CanSay reading) :
    Sliced.SaysNumber resource metric (.sum .cumulative) reading
      reading.withoutRunningStart := by
  obtain ⟨time, timed, reads⟩ := canSay
  cases reads with
  | gauge => cases isSum
  | sum temporality tags start number attributes unmarked =>
      cases isSum
      exact ⟨tags, start, time, number, rfl, rfl, fun _ => ⟨separated, attributes⟩, timed,
        named⟩
  | histogram => cases isSum
  | summary => cases isSum

/-- The points of a gauge say it. -/
theorem writesSliced_gauge
    (separated : ∀ key, resource.contains key -> TagLevels.isResourceLevel key)
    (named : metric ≠ "")
    (sameKind : ∀ reading ∈ readings, reading.kind = .gauge)
    (canSay : ∀ reading ∈ readings, CanSay reading) :
    WritesSliced resource scope metric (Grouping.dataOf .gauge readings)
      (readings.flatMap Reading.converted) := by
  rw [Reading.flatMap_converted fun reading member => .inl (sameKind reading member)]
  refine .of_said (Sliced.exists_gaugePoints fun reading member => ?_) rfl
  exact saysNumber_gauge separated named (sameKind reading member) (canSay reading member)

/-- The points of a counter with running totals say it without its start times. -/
theorem writesSliced_counter
    (separated : ∀ key, resource.contains key -> TagLevels.isResourceLevel key)
    (named : metric ≠ "")
    (sameKind : ∀ reading ∈ readings, reading.kind = .sum .cumulative)
    (canSay : ∀ reading ∈ readings, CanSay reading) :
    WritesSliced resource scope metric (Grouping.dataOf (.sum .cumulative) readings)
      (readings.flatMap Reading.converted) := by
  rw [Reading.flatMap_converted fun reading member => .inr (sameKind reading member)]
  refine .of_said (Sliced.exists_counterPoints fun reading member => ?_) rfl
  exact saysNumber_counter separated named (sameKind reading member) (canSay reading member)

/-- The points of the data points of a distribution say the slices that these are cut into,
unless an attribute would select one. -/
theorem writesSliced_distribution
    {α : Type}
    {points : List α}
    {slices : α -> List Slice}
    {time : α -> UInt64}
    {attributes : α -> List Attribute}
    {data : MetricData}
    (preferSummary : Bool)
    (separated : ∀ key, resource.contains key -> TagLevels.isResourceLevel key)
    (timed : ∀ point ∈ points, time point ≠ 0)
    (areAttributes : ∀ point ∈ points, AreAttributes (attributes point))
    (readable : ∀ point ∈ points, ∀ slice ∈ slices point, slice.IsReadable metric)
    (hasTotal : ∀ point ∈ points, ∃ count sum, .total count sum ∈ slices point)
    (selects : data.hasSelector =
      points.any fun point => (attributes point).any Attribute.isSelector)
    (success : Sliced.points (.of resource scope) metric data =
      .ok (points.flatMap fun point => (slices point).map
        (Sliced.slicePoint
          (Sliced.bare (.of resource scope) (attributes point) (time point)
            (Sliced.sliceHint preferSummary))
          metric))) :
    WritesSliced resource scope metric data
      (points.flatMap fun point =>
        (Grouping.partsOf preferSummary (.of (time point) (attributes point))
          ((slices point).map Slice.restated)).map SeriesSlice.toReading) := by
  refine ⟨_, success, fun noSelector => ?_, fun someSelector => ?_⟩
  · rw [selects, List.any_eq_false] at noSelector
    rw [List.map_flatMap]
    refine forall₂_flatMap fun point member => ?_
    rw [List.map_map]
    exact Sliced.forall₂_says_cut preferSummary separated (timed point member)
      (areAttributes point member) (Bool.eq_false_iff.mpr (noSelector point member))
      (readable point member)
  · rw [selects, List.any_eq_true] at someSelector
    obtain ⟨point, member, selected⟩ := someSelector
    obtain ⟨count, sum, isTotal⟩ := hasTotal point member
    exact ⟨_, List.mem_flatMap.mpr ⟨point, member, List.mem_map_of_mem isTotal⟩,
      Sliced.refuses_totalPoint preferSummary scope metric (time point) count sum separated
        (areAttributes point member) selected⟩

/-- The points of a histogram say the slices that its data points are cut into, unless an
attribute would select one. -/
theorem writesSliced_histogram
    (separated : ∀ key, resource.contains key -> TagLevels.isResourceLevel key)
    (sameKind : ∀ reading ∈ readings, reading.kind = .whole .histogram)
    (canSay : ∀ reading ∈ readings, CanSay reading) :
    WritesSliced resource scope metric (Grouping.dataOf (.whole .histogram) readings)
      (readings.flatMap Reading.converted) := by
  obtain ⟨points, rfl, stated⟩ := exists_histograms sameKind canSay
  rw [dataOf_histograms, List.flatMap_map]
  exact writesSliced_distribution false separated
    (fun point member => (stated point member).timed)
    (fun point member => (stated point member).areAttributes)
    (fun point member =>
      Sliced.readable_histogram_slices metric (stated point member).wellFormed)
    (fun _ _ => ⟨_, _, List.mem_cons_self⟩) rfl
    (Sliced.points_histograms _ metric fun point member => (stated point member).wellFormed)

/-- The points of a summary say the slices that its data points are cut into, unless an
attribute would select one. -/
theorem writesSliced_summary
    (separated : ∀ key, resource.contains key -> TagLevels.isResourceLevel key)
    (named : metric ≠ "")
    (sameKind : ∀ reading ∈ readings, reading.kind = .whole .summary)
    (canSay : ∀ reading ∈ readings, CanSay reading) :
    WritesSliced resource scope metric (Grouping.dataOf (.whole .summary) readings)
      (readings.flatMap Reading.converted) := by
  obtain ⟨points, rfl, stated⟩ := exists_summaries sameKind canSay
  rw [dataOf_summaries, List.flatMap_map]
  exact writesSliced_distribution true separated
    (fun point member => (stated point member).timed)
    (fun point member => (stated point member).areAttributes)
    (fun point member => Sliced.readable_summary_slices fun quantile isThere =>
      ⟨(stated point member).finite quantile isThere, named⟩)
    (fun _ _ => ⟨_, _, List.mem_cons_self⟩) rfl (Sliced.points_summaries _ metric points)

/-- The points of a metric with readings that whole points can hold, other than a delta,
say what these are converted to, unless an attribute would select a slice. -/
theorem writesSliced_dataOf
    {kind : MetricKind}
    (separated : ∀ key, resource.contains key -> TagLevels.isResourceLevel key)
    (named : metric ≠ "")
    (nonempty : readings ≠ [])
    (running : kind ≠ .sum .delta)
    (sameKind : ∀ reading ∈ readings, reading.kind = kind)
    (canSay : ∀ reading ∈ readings, CanSay reading) :
    WritesSliced resource scope metric (Grouping.dataOf kind readings)
      (readings.flatMap Reading.converted) := by
  cases kind with
  | gauge => exact writesSliced_gauge separated named sameKind canSay
  | sum temporality =>
      cases temporality with
      | delta => exact absurd rfl running
      | cumulative => exact writesSliced_counter separated named sameKind canSay
  | whole distribution =>
      cases distribution with
      | histogram => exact writesSliced_histogram separated sameKind canSay
      | summary => exact writesSliced_summary separated named sameKind canSay
  | assembled =>
      obtain ⟨first, member⟩ := List.exists_mem_of_ne_nil readings nonempty
      have isSlice := sameKind first member
      obtain ⟨time, -, reads⟩ := canSay first member
      cases reads <;> cases isSlice

end Metric

end Whole
end LineMetrics
