import LineMetrics.Proofs.InstantText
import LineMetrics.Proofs.StatedDistributions
import LineMetrics.Whole.Restoring

/-!
# Reading whole points back

A point that was written for a data point says that data point: the levels of its tags
are those of the place in the tree, the number of a gauge or a counter stands in its value
field, and a distribution has its count, its sum and a field for each of its parts. A
delta is marked by a tag that is taken out again, and its start time is read from text.
Nothing keeps the start time of a running total.
-/

namespace LineMetrics

/-- The reading without its start time, if it is one of a running total. -/
def Reading.withoutRunningStart : Reading -> Reading
  | .sum .cumulative point => .sum .cumulative point.withoutStart
  | reading => reading

namespace SummaryPoint

/-- The quantiles, each with its value. -/
def pairs (point : SummaryPoint) : List (Binary64 × Binary64) :=
  point.quantiles.map fun quantile => (quantile.quantile, quantile.value)

@[simp] theorem map_fst_pairs (point : SummaryPoint) :
    point.pairs.map Prod.fst = point.quantiles.map Quantile.quantile := List.map_map

@[simp] theorem pairs_ofQuantiles
    (attributes : List Attribute)
    (time count : UInt64)
    (sum : Binary64)
    (quantiles : List (Binary64 × Binary64)) :
    (ofQuantiles attributes time count sum quantiles).pairs = quantiles :=
  List.map_map.trans (List.map_id quantiles)

/-- A data point is made of its quantiles. -/
theorem ofQuantiles_pairs (point : SummaryPoint) (noStart : point.start = 0) :
    ofQuantiles point.attributes point.time point.count point.sum point.pairs = point := by
  rw [ofQuantiles, pairs, List.map_map, <- noStart]
  exact congrArg (fun quantiles => { point with quantiles }) (List.map_id point.quantiles)

end SummaryPoint

namespace Whole

variable {levels : TagLevels} {metric : String} {time : UInt64}

/-- The conversion of a data point succeeds, and the point says this observation. -/
def Conveys (conversion : Except Error Point) (observation : Observation) : Prop :=
  ∃ point, conversion = .ok point ∧ Batch.Says .whole point observation

/-- The hint of a point, if it has one, decides on its type. -/
theorem typeOf_of_hint {point : Point} (hinted : point.hint ≠ .untyped) :
    typeOf point = point.hint := if_pos hinted

/-- A point with a number in its value field has that one observation. -/
theorem numberObservations_of_value
    {point : Point}
    {valueField : String}
    {number : Number}
    (time start : UInt64)
    (reading : NumberPoint -> Reading)
    (split : TagLevels.split point.tags = levels)
    (found : point.fields.find? valueField = some (.ofNumber number)) :
    numberObservations point time valueField start reading =
      .ok [.under levels point.measurement <|
        reading ⟨Attribute.ofTags levels.attributes, start, time, some number⟩] := by
  rw [numberObservations, numbers, found, split]
  dsimp only
  rw [FieldValue.toNumber_ofNumber]
  rfl

/-- A point of a gauge says its number. -/
theorem says_gauge
    {point : Point}
    {number : Number}
    (hinted : point.hint = .gauge)
    (timed : point.time ≠ 0)
    (split : TagLevels.split point.tags = levels)
    (found : point.fields.find? ReservedName.gauge = some (.ofNumber number)) :
    Batch.Says .whole point
      (.under levels point.measurement <|
        .gauge ⟨Attribute.ofTags levels.attributes, 0, point.time, some number⟩) := by
  intro now
  change observations now point = _
  rw [observations, typeOf_of_hint (by rw [hinted]; decide), hinted, Point.timeOr,
    if_neg timed]
  exact numberObservations_of_value point.time 0 .gauge split found

/-- A data point of a gauge is conveyed. -/
theorem conveys_gaugePoint
    (number : Number)
    (separated : levels.Separated)
    (timed : time ≠ 0) :
    Conveys
      (gaugePoint (.of levels.resource levels.scope) metric
        ⟨Attribute.ofTags levels.attributes, 0, time, some number⟩)
      (.under levels metric <|
        .gauge ⟨Attribute.ofTags levels.attributes, 0, time, some number⟩) :=
  ⟨_, rfl, says_gauge rfl timed (TagLevels.split_merge separated) <|
    (Dictionary.find?_insert _ _ _ _).trans (if_pos rfl)⟩

/-- A point of a counter has one observation, with the temporality that its tags select and
the start time that its fields state. -/
theorem observations_counter
    {point : Point}
    {number : Number}
    (now : UInt64)
    (hinted : point.hint = .sum)
    (found : point.fields.find? ReservedName.counter = some (.ofNumber number)) :
    let levels := TagLevels.split (point.tags.erase ReservedName.temporality)
    observations now point =
      .ok [.under levels point.measurement <|
        .sum (temporalityOf point.tags)
          ⟨Attribute.ofTags levels.attributes, startOf point.fields, point.timeOr now,
            some number⟩] := by
  rw [observations, typeOf_of_hint (by rw [hinted]; decide), hinted]
  exact numberObservations_of_value _ _ (.sum _) rfl found

/-- A point of a counter says its number, with the temporality that its tags select and
the start time that its fields state. -/
theorem says_counter
    {point : Point}
    {number : Number}
    {temporality : Temporality}
    {start : UInt64}
    (hinted : point.hint = .sum)
    (timed : point.time ≠ 0)
    (split : TagLevels.split (point.tags.erase ReservedName.temporality) = levels)
    (selected : temporalityOf point.tags = temporality)
    (started : startOf point.fields = start)
    (found : point.fields.find? ReservedName.counter = some (.ofNumber number)) :
    Batch.Says .whole point
      (.under levels point.measurement <|
        .sum temporality
          ⟨Attribute.ofTags levels.attributes, start, point.time, some number⟩) := by
  intro now
  change observations now point = _
  rw [observations_counter now hinted found, split, selected, started, Point.timeOr,
    if_neg timed]

/-- Merged tags have no tag for the temporality if the attributes have none. -/
theorem find?_temporality_merge
    (separated : levels.Separated)
    (unmarked : levels.attributes.find? ReservedName.temporality = none) :
    (TagLevels.merge (Attribute.ofTags levels.resource) (some levels.scope)
        (Attribute.ofTags levels.attributes)).find? ReservedName.temporality = none := by
  have level : TagLevels.isAttributeLevel ReservedName.temporality = true := by
    decide +kernel
  have found := TagLevels.find?_attributes_split
    (TagLevels.merge (Attribute.ofTags levels.resource) (some levels.scope)
      (Attribute.ofTags levels.attributes)) ReservedName.temporality
  rw [TagLevels.split_merge separated, unmarked, if_pos level] at found
  exact found.symm

/-- The temporality of a counter without a tag for it. -/
theorem temporalityOf_of_unmarked
    {tags : Tags}
    (unmarked : tags.find? ReservedName.temporality = none) :
    temporalityOf tags = .cumulative := by
  rw [temporalityOf, unmarked]
  rfl

/-- A data point of a running total is conveyed without its start time. -/
theorem conveys_cumulativePoint
    (number : Number)
    (start : UInt64)
    (separated : levels.Separated)
    (unmarked : levels.attributes.find? ReservedName.temporality = none)
    (timed : time ≠ 0) :
    Conveys
      (counterPoint (.of levels.resource levels.scope) metric .cumulative
        ⟨Attribute.ofTags levels.attributes, start, time, some number⟩)
      (.under levels metric <|
        .sum .cumulative ⟨Attribute.ofTags levels.attributes, 0, time, some number⟩) := by
  have noTag := find?_temporality_merge separated unmarked
  refine ⟨_, rfl, says_counter rfl timed ?_ (temporalityOf_of_unmarked noTag) rfl ?_⟩
  · exact (congrArg TagLevels.split (Dictionary.erase_eq_self noTag)).trans
      (TagLevels.split_merge separated)
  · exact (Dictionary.find?_insert _ _ _ _).trans (if_pos rfl)

/-- A marked point differs by its tag for the temporality and a field for its start
time, which it has unless the start time is zero. -/
theorem markDelta_eq (start : UInt64) (point : Point) :
    markDelta start point =
      { point with
        tags := point.tags.insert ReservedName.temporality ReservedName.delta
        fields :=
          if start = 0 then point.fields
          else point.fields.insert ReservedName.startTime (.text (Instant.text start)) } := by
  rw [markDelta]
  split <;> rfl

/-- The start time of a delta is read from its text, up to the latest instant. -/
theorem startOf_text
    {fields : Fields}
    (start : UInt64)
    (noStart : fields.find? ReservedName.startTime = none) :
    startOf
        (if start = 0 then fields
        else fields.insert ReservedName.startTime (.text (Instant.text start))) =
      UInt64.ofNat (min start.toNat Instant.latest) := by
  split
  · rename_i zero
    rw [startOf, noStart, zero]
    rfl
  · rw [startOf, Dictionary.find?_insert, if_pos rfl]
    dsimp only
    rw [Instant.ofFieldValue_text]
    rfl

/-- Marked tags select delta temporality. -/
theorem temporalityOf_insert_delta (tags : Tags) :
    temporalityOf (tags.insert ReservedName.temporality ReservedName.delta) = .delta := by
  rw [temporalityOf, Dictionary.find?_insert, if_pos rfl, if_pos rfl]

/-- A field for the start time leaves the value of a counter as it is. -/
theorem find?_counter_insert_start (fields : Fields) (start : UInt64) (value : FieldValue) :
    (if start = 0 then fields else fields.insert ReservedName.startTime value).find?
        ReservedName.counter =
      fields.find? ReservedName.counter := by
  have different : ReservedName.counter ≠ ReservedName.startTime := by decide
  rw [apply_ite (Dictionary.find? · ReservedName.counter), Dictionary.find?_insert,
    if_neg different, ite_self]

/-- A data point of a delta is conveyed with its start time. -/
theorem conveys_deltaPoint
    {start : UInt64}
    (number : Number)
    (fits : start.toNat < 2 ^ 63)
    (separated : levels.Separated)
    (unmarked : levels.attributes.find? ReservedName.temporality = none)
    (timed : time ≠ 0) :
    Conveys
      (counterPoint (.of levels.resource levels.scope) metric .delta
        ⟨Attribute.ofTags levels.attributes, start, time, some number⟩)
      (.under levels metric <|
        .sum .delta ⟨Attribute.ofTags levels.attributes, start, time, some number⟩) := by
  have noTag := find?_temporality_merge separated unmarked
  refine ⟨_, rfl, ?_⟩
  rw [markDelta_eq]
  refine says_counter rfl timed ?_ ?_
    ((startOf_text start rfl).trans (Instant.ofNat_min_latest fits)) ?_
  · exact (congrArg TagLevels.split (Dictionary.erase_insert _ noTag)).trans
      (TagLevels.split_merge separated)
  · exact temporalityOf_insert_delta _
  · exact (find?_counter_insert_start _ _ _).trans
      ((Dictionary.find?_insert _ _ _ _).trans (if_pos rfl))

/-- Parts are added as fields. -/
theorem withParts_eq (point : Point) (parts : List (Binary64 × Binary64)) :
    withParts point parts =
      { point with
        fields :=
          (parts.map fun part => (part.1.keyText, FieldValue.float part.2)).foldl
            (fun fields entry => fields.insert entry.1 entry.2) point.fields } := by
  rw [List.foldl_map]
  induction parts generalizing point with
  | nil => rfl
  | cons part parts inductionHypothesis =>
      rw [List.foldl_cons]
      exact inductionHypothesis (point.withField part.1.keyText (.float part.2))

/-- The fields of the parts of a distribution. -/
def partFields (parts : List (Binary64 × Binary64)) : List (String × FieldValue) :=
  parts.map fun part => (part.1.keyText, .float part.2)

/-- The fields of a written distribution are its count, its sum and its parts. -/
theorem fields_distributionPoint
    {point : Point}
    (noFields : point.fields = ∅)
    (count : UInt64)
    (sum : Binary64)
    (parts : List (Binary64 × Binary64)) :
    (distributionPoint point count sum parts).fields =
      .ofList ((ReservedName.count, .float (.ofNat count.toNat)) ::
        (ReservedName.sum, .float sum) :: partFields parts) := by
  rw [distributionPoint, withParts_eq, Point.withField, Point.withField, noFields]
  rfl

/-- No part stands under the key of the count or under that of the sum. -/
theorem key_of_mem_partFields
    {parts : List (Binary64 × Binary64)}
    {entry : String × FieldValue}
    (member : entry ∈ partFields parts) :
    entry.1 ≠ ReservedName.count ∧ entry.1 ≠ ReservedName.sum := by
  obtain ⟨part, -, rfl⟩ := List.mem_map.mp member
  exact ⟨part.1.keyText_ne (by decide) (by decide), part.1.keyText_ne (by decide) (by decide)⟩

/-- Parts at different finite places have different keys. -/
theorem nodup_keys_partFields
    {parts : List (Binary64 × Binary64)}
    (finite : ∀ place ∈ parts.map Prod.fst, place.isFinite = true)
    (distinct : (parts.map Prod.fst).Nodup) :
    ((partFields parts).map Prod.fst).Nodup := by
  have keys : (partFields parts).map Prod.fst = (parts.map Prod.fst).map Binary64.keyText := by
    rw [partFields, List.map_map, List.map_map]
    rfl
  rw [keys]
  exact distinct.map_on fun left member right _ same =>
    Binary64.eq_of_keyText_eq (Binary64.isNaN_of_isFinite (finite left member)) same

/-- A written distribution with parts at different finite places has a field for its count,
for its sum and for each of them. -/
theorem entries_distributionPoint
    {point : Point}
    {parts : List (Binary64 × Binary64)}
    (noFields : point.fields = ∅)
    (count : UInt64)
    (sum : Binary64)
    (finite : ∀ place ∈ parts.map Prod.fst, place.isFinite = true)
    (distinct : (parts.map Prod.fst).Nodup) :
    (distributionPoint point count sum parts).fields.entries.Perm
      ((ReservedName.count, .float (.ofNat count.toNat)) ::
        (ReservedName.sum, .float sum) :: partFields parts) := by
  rw [fields_distributionPoint noFields]
  exact Dictionary.entries_ofList_perm <| nodup_keys_cons_totals _ _
    (fun entry member => (key_of_mem_partFields member).1)
    (fun entry member => (key_of_mem_partFields member).2)
    (nodup_keys_partFields finite distinct)

/-- The distribution that is written for a data point. -/
def writtenDistribution
    (levels : TagLevels)
    (metric : String)
    (time count : UInt64)
    (sum : Binary64)
    (parts : List (Binary64 × Binary64)) : StatedDistribution where
  metric := metric
  tags :=
    TagLevels.merge (Attribute.ofTags levels.resource) (some levels.scope)
      (Attribute.ofTags levels.attributes)
  time := time
  count := .float (.ofNat count.toNat)
  sum := .float sum
  parts := parts.map fun part => (part.1.keyText, .float part.2)

/-- The point of a data point states the written distribution. -/
theorem distributionPoint_eq
    (kind : Distribution)
    (levels : TagLevels)
    (metric : String)
    (time count : UInt64)
    (sum : Binary64)
    (parts : List (Binary64 × Binary64)) :
    distributionPoint
        (bare (.of levels.resource levels.scope) metric (Attribute.ofTags levels.attributes)
          time kind.hint)
        count sum parts =
      (writtenDistribution levels metric time count sum parts).wholePoint kind := by
  rw [distributionPoint, withParts_eq]
  rfl

variable {α : Type} {readPart : String -> FieldValue -> Except Error α}

/-- A written distribution states its count, its sum and its parts, if these stand at
different finite places in ascending order and their values can be read back. -/
theorem distribution_written
    {kind : Distribution}
    {count : UInt64}
    {sum : Binary64}
    {parts : List (Binary64 × α)}
    (write : α -> Binary64)
    (small : count.toNat ≤ 2 ^ 53)
    (finite : ∀ part ∈ parts, part.1.isFinite = true)
    (ascending : parts.Pairwise fun left right => left.1.totalLE right.1)
    (distinct : (parts.map Prod.fst).Nodup)
    (readable : ∀ part ∈ parts,
      readPart part.1.keyText (.float (write part.2)) = .ok part.2) :
    distribution kind readPart
        ((writtenDistribution levels metric time count sum
          (parts.map fun part => (part.1, write part.2))).wholePoint kind) =
      .ok (count, sum, parts) := by
  have stated (part : Binary64 × α) (member : part ∈ parts) :
      statedPart? readPart (part.1.keyText, .float (write part.2)) = some part := by
    rw [statedPart?, Binary64.ofFiniteKey?_keyText (finite part member), Option.bind_some,
      readable part member]
    rfl
  generalize described : writtenDistribution levels metric time count sum
    (parts.map fun part => (part.1, write part.2)) = written
  have entries :
      written.parts = parts.map fun part => (part.1.keyText, .float (write part.2)) := by
    rw [<- described]
    exact List.map_map
  have statedParts : written.parts.filterMap (statedPart? readPart) = parts := by
    rw [entries, List.filterMap_map, Function.comp_def, List.filterMap_congr stated,
      List.filterMap_some]
  have states : ∀ entry ∈ written.parts, StatesPart readPart entry := by
    rw [entries]
    exact List.forall_mem_map.mpr fun part member => ⟨part, stated part member⟩
  have counts : written.count.toCount ReservedName.count = .ok count := by
    rw [<- described]
    exact FieldValue.toCount_ofNat _ small
  have sums : written.sum.toDouble ReservedName.sum = .ok sum := by
    rw [<- described]
    rfl
  rw [distribution_ofList kind (written.fields_wholePoint kind) counts sums states
    (by rw [statedParts]; exact distinct), statedParts, Assembly.inOrder_of_pairwise ascending]

/-- The levels of a written distribution are those of its place. -/
theorem levels_writtenDistribution
    (separated : levels.Separated)
    (count : UInt64)
    (sum : Binary64)
    (parts : List (Binary64 × Binary64)) :
    (writtenDistribution levels metric time count sum parts).levels = levels :=
  TagLevels.split_merge separated

/-- Counts that sum up to the count of the data point are found again in their running
totals. -/
theorem ofBuckets_runningTotals
    {point : HistogramPoint}
    (wellFormed : point.WellFormed)
    (someBuckets : point.counts.isEmpty = false)
    (sumsUp : Buckets.sum point.counts = point.count.toNat)
    (noStart : point.start = 0) :
    HistogramPoint.ofBuckets point.attributes point.time point.count point.sum
        point.runningTotals =
      point := by
  obtain ⟨bounds, totals⟩ := wellFormed.runningTotals_eq someBuckets
  have counts := Buckets.perBucket_cumulative_take (wellFormed.length_counts someBuckets) sumsUp
  rw [HistogramPoint.ofBuckets, bounds, totals, counts, <- noStart]

/-- The distribution that is written for a data point of a histogram. -/
def writtenHistogram
    (levels : TagLevels)
    (metric : String)
    (point : HistogramPoint) : StatedDistribution :=
  writtenDistribution levels metric point.time point.count (point.sum.getD .zero)
    (point.runningTotals.map fun bucket => (bucket.1, .ofNat bucket.2.toNat))

/-- A data point of a histogram with buckets is written as its distribution. -/
theorem histogramPoint_eq
    {point : HistogramPoint}
    (metric : String)
    (attributes : point.attributes = Attribute.ofTags levels.attributes)
    (length : point.counts.length = point.bounds.length + 1) :
    histogramPoint (.of levels.resource levels.scope) metric point =
      .ok ((writtenHistogram levels metric point).wholePoint .histogram) := by
  have parts :
      point.bounds.zip
          ((Buckets.cumulative (point.counts.take point.bounds.length)).map fun total =>
            Binary64.ofNat total.toNat) =
        point.runningTotals.map fun bucket => (bucket.1, Binary64.ofNat bucket.2.toNat) :=
    List.zip_map_right
  rw [histogramPoint, HistogramPoint.totals_eq metric length, writtenHistogram,
    <- distributionPoint_eq, <- parts, attributes]
  rfl

/-- A data point of a histogram with buckets is conveyed, if it has a sum, its counts sum
up to its count, and that is small. -/
theorem conveys_histogramPoint
    {point : HistogramPoint}
    {sum : Binary64}
    (separated : levels.Separated)
    (attributes : point.attributes = Attribute.ofTags levels.attributes)
    (noStart : point.start = 0)
    (timed : point.time ≠ 0)
    (hasSum : point.sum = some sum)
    (wellFormed : point.WellFormed)
    (someBuckets : point.counts.isEmpty = false)
    (fits : point.fitsWhole = true) :
    Conveys (histogramPoint (.of levels.resource levels.scope) metric point)
      (.under levels metric (.histogram point)) := by
  rw [HistogramPoint.fitsWhole, Bool.and_eq_true, decide_eq_true_eq, decide_eq_true_eq] at fits
  obtain ⟨sumsUp, small⟩ := fits
  have ordered := wellFormed.ordered_runningTotals someBuckets
  have finite := wellFormed.finite_runningTotals
  have readable (bucket : Binary64 × UInt64) (member : bucket ∈ point.runningTotals) :
      (FieldValue.float (.ofNat bucket.2.toNat)).toCount bucket.1.keyText = .ok bucket.2 :=
    FieldValue.toCount_ofNat _ <|
      Nat.le_trans (HistogramPoint.toNat_le_of_mem_runningTotals sumsUp member) small
  have read :
      distribution .histogram (fun key value => value.toCount key)
          ((writtenHistogram levels metric point).wholePoint .histogram) =
        .ok (point.count, point.sum.getD .zero, point.runningTotals) :=
    distribution_written (fun total : UInt64 => Binary64.ofNat total.toNat) small finite
      (ordered.imp And.left) (nodup_finite_places finite (ordered.imp And.right)) readable
  have inOrder : OrderedPlaces (point.runningTotals.map Prod.fst) := by
    rw [(wellFormed.runningTotals_eq someBuckets).1]
    exact wellFormed.bounds
  have timedThere : (writtenHistogram levels metric point).time ≠ 0 := timed
  have said := StatedDistribution.says_wholePoint_histogram timedThere read inOrder
  have there : (writtenHistogram levels metric point).levels = levels :=
    levels_writtenDistribution separated _ _ _
  have sum : some (point.sum.getD .zero) = point.sum := by rw [hasSum, Option.getD_some]
  rw [there, <- attributes, sum] at said
  have same : HistogramPoint.ofBuckets point.attributes
      (writtenHistogram levels metric point).time point.count point.sum point.runningTotals =
        point := ofBuckets_runningTotals wellFormed someBuckets sumsUp noStart
  rw [same] at said
  exact ⟨_, histogramPoint_eq metric attributes (wellFormed.length_counts someBuckets), said⟩

/-- The distribution that is written for a data point of a summary. -/
def writtenSummary
    (levels : TagLevels)
    (metric : String)
    (point : SummaryPoint) : StatedDistribution :=
  writtenDistribution levels metric point.time point.count point.sum point.pairs

/-- A data point of a summary is written as its distribution. -/
theorem summaryPoint_eq
    {point : SummaryPoint}
    (metric : String)
    (attributes : point.attributes = Attribute.ofTags levels.attributes) :
    summaryPoint (.of levels.resource levels.scope) metric point =
      (writtenSummary levels metric point).wholePoint .summary := by
  rw [summaryPoint, writtenSummary, <- distributionPoint_eq, attributes]
  rfl

/-- A data point of a summary is conveyed, if its quantiles are finite and in order, none
is repeated, and its count is small. -/
theorem conveys_summaryPoint
    {point : SummaryPoint}
    (separated : levels.Separated)
    (attributes : point.attributes = Attribute.ofTags levels.attributes)
    (noStart : point.start = 0)
    (timed : point.time ≠ 0)
    (finite : ∀ place ∈ point.pairs.map Prod.fst, place.isFinite = true)
    (ascending : (point.pairs.map Prod.fst).Pairwise fun left right =>
      left.totalLE right = true)
    (fits : point.fitsWhole = true) :
    Conveys (.ok (summaryPoint (.of levels.resource levels.scope) metric point))
      (.under levels metric (.summary point)) := by
  rw [SummaryPoint.fitsWhole, Bool.and_eq_true, decide_eq_true_eq, decide_eq_true_eq] at fits
  obtain ⟨small, distinct⟩ := fits
  rw [<- point.map_fst_pairs] at distinct
  have stated :
      distribution .summary (fun key value => value.toDouble key)
          ((writtenDistribution levels metric point.time point.count point.sum
            (point.pairs.map fun pair => (pair.1, id pair.2))).wholePoint .summary) =
        .ok (point.count, point.sum, point.pairs) :=
    distribution_written id small (List.forall_mem_map.mp finite)
      (List.pairwise_map.mp ascending) distinct fun _ _ => rfl
  have kept : (point.pairs.map fun pair => (pair.1, id pair.2)) = point.pairs :=
    List.map_id point.pairs
  rw [kept] at stated
  have timedThere : (writtenSummary levels metric point).time ≠ 0 := timed
  have said := StatedDistribution.says_wholePoint_summary timedThere stated
  have there : (writtenSummary levels metric point).levels = levels :=
    levels_writtenDistribution separated _ _ _
  have same : SummaryPoint.ofQuantiles point.attributes
      (writtenSummary levels metric point).time point.count point.sum point.pairs = point :=
    point.ofQuantiles_pairs noStart
  rw [there, <- attributes, same] at said
  exact ⟨_, congrArg Except.ok (summaryPoint_eq metric attributes), said⟩

end Whole
end LineMetrics
