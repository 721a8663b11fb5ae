import LineMetrics.Proofs.StatedDistributions
import Mathlib.Data.List.Perm.Basic

/-!
# Whole and sliced points agree on distributions

A distribution that can be read makes the same tree whether one whole point states it or
sliced points do, in any order. On both ways its parts end up in order with the count
and the sum. An infinite bucket on top changes nothing, because the count closes the
buckets.
-/

namespace LineMetrics

namespace Grouping

/-- Elements with one key are one group. -/
theorem groups_of_keyed
    {α κ : Type}
    [DecidableEq κ]
    {key : α -> κ}
    {group : κ}
    {members : List α}
    (nonempty : members ≠ [])
    (keyed : ∀ element ∈ members, key element = group) :
    groups key members = [(group, members)] := by
  have one := groups_append_of_keyed nonempty keyed
    (fun element (none : element ∈ []) => absurd none List.not_mem_nil)
  rw [List.append_nil, groups_nil] at one
  exact one

/-- Readings of one kind of one metric are consistent. -/
theorem consistent_of_readings
    {kind : MetricKind}
    {readings : List Reading}
    (levels : TagLevels)
    (metric : String)
    (sameKind : ∀ reading ∈ readings, reading.kind = kind) :
    Consistent (readings.map (.under levels metric)) := by
  intro left leftMember right rightMember _
  obtain ⟨first, firstMember, rfl⟩ := List.mem_map.mp leftMember
  obtain ⟨second, secondMember, rfl⟩ := List.mem_map.mp rightMember
  exact (sameKind first firstMember).trans (sameKind second secondMember).symm

/-- Readings of one kind of one metric make a tree with this metric. -/
theorem tree_of_metric
    {kind : MetricKind}
    {readings : List Reading}
    (levels : TagLevels)
    (metric : String)
    (nonempty : readings ≠ [])
    (sameKind : ∀ reading ∈ readings, reading.kind = kind) :
    tree (readings.map (.under levels metric)) =
      [⟨some (Attribute.ofTags levels.resource),
        [⟨some levels.scope, [⟨metric, some (dataOf kind readings)⟩]⟩]⟩] := by
  have someObservation : readings.map (Observation.under levels metric) ≠ [] :=
    fun none => nonempty (List.map_eq_nil_iff.mp none)
  have keyed {κ : Type} (key : Observation -> κ) (group : κ)
      (same : ∀ reading, key (.under levels metric reading) = group) :
      ∀ observation ∈ readings.map (Observation.under levels metric),
        key observation = group := by
    intro observation member
    obtain ⟨reading, -, rfl⟩ := List.mem_map.mp member
    exact same reading
  rw [tree, (consistent_of_readings levels metric sameKind).accepted_eq,
    groups_of_keyed someObservation (keyed _ levels.resource fun _ => rfl),
    List.map_singleton]
  dsimp only
  rw [resourceOf, groups_of_keyed someObservation (keyed _ levels.scope fun _ => rfl),
    List.map_singleton]
  dsimp only
  rw [scopeOf, groups_of_keyed someObservation (keyed _ metric fun _ => rfl),
    List.map_singleton]
  dsimp only
  have ownReadings :
      (readings.map (Observation.under levels metric)).map Observation.reading =
        readings := by
    rw [List.map_map]
    exact List.map_id readings
  rw [metricOf, ownReadings]
  cases readings with
  | nil => exact absurd rfl nonempty
  | cons first rest =>
      rw [List.map_cons, List.head?_cons, Option.map_some]
      rw [show (Observation.under levels metric first).reading.kind = kind from
        sameKind first (.head _)]

end Grouping

namespace StatedDistribution

open Grouping

variable {kind : Distribution} {stated : StatedDistribution}

/-- The slices of a distribution: the total, the parts, and the infinite bucket. -/
def slicesOf
    (count : UInt64)
    (sum : Binary64)
    (parts : List Slice)
    (closing : Option UInt64) : List Slice :=
  .total count sum :: (parts ++ closing.toList.map (.bucket .infinity))

/-- A slice of a data point whose kind is not changed by it. -/
def PartOf (kind : Distribution) (stated : StatedDistribution) (part : SeriesSlice) : Prop :=
  part.series = stated.series ∧ (part.preferSummary = true -> kind = .summary)

/-- Points that have the form of lines, in any order, say the slices of the lines. -/
theorem exists_parts_of_lines
    {lines : List Arrival}
    {slices : List Slice}
    (saying : List.Forall₂ (SaysLine kind stated) (stated.lines kind) slices)
    (arranged : (lines.map fun arrival => { arrival.point with hint := .untyped }).Perm
      (stated.lines kind))
    (mayHint : ∀ arrival ∈ lines, MayHint kind arrival.point.hint) :
    ∃ parts : List SeriesSlice,
      (parts.map SeriesSlice.slice).Perm slices ∧
        (∀ part ∈ parts, PartOf kind stated part) ∧
        List.Forall₂ (Batch.Says .sliced) (lines.map Arrival.point)
          ((parts.map SeriesSlice.toReading).map (.under stated.levels stated.metric)) := by
  obtain ⟨said, lineSays, perm⟩ := List.perm_comp_forall₂ arranged saying
  suffices each : ∃ parts : List SeriesSlice,
      parts.map SeriesSlice.slice = said ∧ (∀ part ∈ parts, PartOf kind stated part) ∧
        List.Forall₂ (Batch.Says .sliced) (lines.map Arrival.point)
          ((parts.map SeriesSlice.toReading).map (.under stated.levels stated.metric)) by
    obtain ⟨parts, rfl, partsOf, saysAll⟩ := each
    exact ⟨parts, perm, partsOf, saysAll⟩
  clear arranged perm saying
  induction lines generalizing said with
  | nil =>
      cases lineSays
      exact ⟨[], rfl, nofun, .nil⟩
  | cons arrival lines inductionHypothesis =>
      obtain ⟨mayHintHere, mayHintBehind⟩ := List.forall_mem_cons.mp mayHint
      cases lineSays with
      | cons here behind =>
          obtain ⟨parts, slices, partsOf, others⟩ := inductionHypothesis mayHintBehind _ behind
          obtain ⟨preferSummary, prefers, first⟩ := here arrival.point rfl mayHintHere
          refine ⟨⟨preferSummary, stated.series, _⟩ :: parts, ?_, ?_, .cons first.2 others⟩
          · rw [List.map_cons, slices]
          · exact List.forall_mem_cons.mpr ⟨⟨rfl, prefers⟩, partsOf⟩

/-- The assembly of slices for different slots lists them, in whichever order they
came. -/
theorem assemble_of_perm
    {parts : List SeriesSlice}
    {slices : List Slice}
    {count : UInt64}
    {sum : Binary64}
    (perm : (parts.map SeriesSlice.slice).Perm slices)
    (different : slices.Pairwise fun left right => left.sameSlot right = false)
    (total : slices.filterMap Slice.total? = [(count, sum)]) :
    (assemble parts).count = some count ∧ (assemble parts).sum = some sum ∧
      (assemble parts).buckets.Perm (slices.filterMap Slice.bucket?) ∧
      (assemble parts).quantiles.Perm (slices.filterMap Slice.quantile?) := by
  have differentParts : DifferentSlots parts := by
    exact List.pairwise_map.mp <| (perm.pairwise_iff fun {left right} apart =>
      (Slice.sameSlot_comm right left).trans apart).mpr different
  have ofParts {α : Type} (view : Slice -> Option α) :
      (parts.filterMap fun part => view part.slice).Perm (slices.filterMap view) := by
    have viewed := perm.filterMap view
    rw [List.filterMap_map] at viewed
    exact viewed
  have totals := ofParts Slice.total?
  rw [total, List.perm_singleton] at totals
  rw [assemble_eq differentParts, totals]
  exact ⟨rfl, rfl, ofParts Slice.bucket?, ofParts Slice.quantile?⟩

/-- Slices of one series make the data point of that series. -/
theorem groups_series
    {parts : List SeriesSlice}
    (nonempty : parts ≠ [])
    (partsOf : ∀ part ∈ parts, PartOf kind stated part) :
    groups SeriesSlice.series parts = [(stated.series, parts)] :=
  groups_of_keyed nonempty fun part member => (partsOf part member).1

/-- The slices of a distribution are for different slots if its parts are, and are no
infinite buckets. -/
theorem pairwise_slicesOf
    {parts : List Slice}
    (count : UInt64)
    (sum : Binary64)
    (closing : Option UInt64)
    (different : parts.Pairwise fun left right => left.sameSlot right = false)
    (noTotal : ∀ part ∈ parts, part.total? = none)
    (finite : ∀ part ∈ parts, ∀ other, part.sameSlot (.bucket .infinity other) = false) :
    (slicesOf count sum parts closing).Pairwise fun left right =>
      left.sameSlot right = false := by
  refine List.pairwise_cons.mpr ⟨?_, List.pairwise_append.mpr ⟨different, ?_, ?_⟩⟩
  · intro slice member
    rcases List.mem_append.mp member with isPart | isClosing
    · have isNoTotal := noTotal slice isPart
      cases slice <;> first | rfl | cases isNoTotal
    · obtain ⟨other, -, rfl⟩ := List.mem_map.mp isClosing
      rfl
  · cases closing with
    | none => exact .nil
    | some other => exact List.pairwise_singleton _ _
  · intro part partMember slice member
    obtain ⟨other, -, rfl⟩ := List.mem_map.mp member
    exact finite part partMember other

/-- A distribution has one total. -/
theorem filterMap_total?_slicesOf
    {parts : List Slice}
    (count : UInt64)
    (sum : Binary64)
    (closing : Option UInt64)
    (noTotal : ∀ part ∈ parts, part.total? = none) :
    (slicesOf count sum parts closing).filterMap Slice.total? = [(count, sum)] := by
  rw [slicesOf, List.filterMap_cons, List.filterMap_append,
    List.filterMap_eq_nil_iff.mpr noTotal]
  cases closing <;> rfl

/-- The slices of a distribution have no quantile if its parts have none. -/
theorem not_isQuantile_of_mem_slicesOf
    {slice : Slice}
    {count : UInt64}
    {sum : Binary64}
    {parts : List Slice}
    {closing : Option UInt64}
    (member : slice ∈ slicesOf count sum parts closing)
    (noQuantile : ∀ part ∈ parts, part.isQuantile = false) :
    slice.isQuantile = false := by
  rcases List.mem_cons.mp member with rfl | behind
  · rfl
  · rcases List.mem_append.mp behind with isPart | isClosing
    · exact noQuantile slice isPart
    · obtain ⟨other, -, rfl⟩ := List.mem_map.mp isClosing
      rfl

/-- Slices that make up a distribution are there. -/
theorem ne_nil_of_perm
    {parts : List SeriesSlice}
    {slices : List Slice}
    (perm : (parts.map SeriesSlice.slice).Perm slices)
    (nonempty : slices ≠ []) :
    parts ≠ [] := by
  rintro rfl
  exact nonempty perm.nil_eq.symm

/-- Slices of a histogram without a quantile make no summary. -/
theorem makesSummary_histogram
    {parts : List SeriesSlice}
    (partsOf : ∀ part ∈ parts, PartOf .histogram stated part)
    (noQuantile : ∀ part ∈ parts, part.slice.isQuantile = false) :
    makesSummary parts = false := by
  rw [makesSummary, List.any_eq_false]
  intro part member
  have unpreferred : part.preferSummary = false := by
    rw [Bool.eq_false_iff]
    intro prefers
    cases (partsOf part member).2 prefers
  rw [unpreferred, noQuantile part member]
  exact Bool.false_ne_true

/-- The buckets of a distribution are its parts and the infinite bucket. -/
theorem filterMap_bucket?_slicesOf
    (count : UInt64)
    (sum : Binary64)
    (buckets : List (Binary64 × UInt64))
    (closing : Option UInt64) :
    (slicesOf count sum (buckets.map fun bucket => .bucket bucket.1 bucket.2)
        closing).filterMap Slice.bucket? =
      buckets ++ closing.toList.map (Binary64.infinity, ·) := by
  rw [slicesOf, List.filterMap_cons, List.filterMap_append, List.filterMap_map]
  cases closing <;> simp [Slice.bucket?, Function.comp_def]

/-- The quantiles of a distribution are its parts. -/
theorem filterMap_quantile?_slicesOf
    (count : UInt64)
    (sum : Binary64)
    (quantiles : List (Binary64 × Binary64))
    (closing : Option UInt64) :
    (slicesOf count sum (quantiles.map fun quantile => .quantile quantile.1 quantile.2)
        closing).filterMap Slice.quantile? = quantiles := by
  rw [slicesOf, List.filterMap_cons, List.filterMap_append, List.filterMap_map]
  cases closing <;> simp [Slice.quantile?, Function.comp_def]

/-- The slices of a histogram make the data point that a whole point says. -/
theorem assembledData_histogram
    {parts : List SeriesSlice}
    {count : UInt64}
    {sum : Binary64}
    {buckets : List (Binary64 × UInt64)}
    {closing : Option UInt64}
    (perm : (parts.map SeriesSlice.slice).Perm
      (slicesOf count sum (buckets.map fun bucket => .bucket bucket.1 bucket.2) closing))
    (partsOf : ∀ part ∈ parts, PartOf .histogram stated part)
    (finite : ∀ bucket ∈ buckets, bucket.1.isFinite = true)
    (apart : buckets.Pairwise fun left right => left.1.sameNumber right.1 = false)
    (nonempty : buckets ≠ []) :
    assembledData parts =
      .histogram
        [.ofBuckets (Attribute.ofTags stated.levels.attributes) stated.time count (some sum)
          (Assembly.inOrder buckets)]
        Temporality.cumulative.code := by
  have isBucket (P : Slice -> Prop) (each : ∀ bucket ∈ buckets, P (.bucket bucket.1 bucket.2)) :
      ∀ part ∈ buckets.map (fun bucket => Slice.bucket bucket.1 bucket.2), P part :=
    List.forall_mem_map.mpr each
  have noTotal := isBucket (fun part => part.total? = none) fun _ _ => rfl
  have different := pairwise_slicesOf count sum closing (List.pairwise_map.mpr apart) noTotal
    (isBucket _ fun bucket member _ => Binary64.sameNumber_infinity (finite bucket member))
  obtain ⟨counts, sums, listed, -⟩ := assemble_of_perm perm different
    (filterMap_total?_slicesOf count sum closing noTotal)
  have infinite : ∀ bucket ∈ closing.toList.map (Binary64.infinity, ·),
      bucket.1 = Binary64.infinity :=
    List.forall_mem_map.mpr fun _ _ => rfl
  rw [filterMap_bucket?_slicesOf] at listed
  have inOrder := Assembly.finiteBuckets_of_perm listed
    (nodup_closed_places finite (nodup_finite_places finite apart)) finite infinite
  have noSummary : makesSummary parts = false := makesSummary_histogram partsOf
    fun part member => not_isQuantile_of_mem_slicesOf
      (perm.mem_iff.mp (List.mem_map_of_mem member)) (isBucket _ fun _ _ => rfl)
  have someBuckets : (Assembly.inOrder buckets).isEmpty = false := by
    rw [List.isEmpty_eq_false_iff]
    intro none
    have arranged := Assembly.inOrder_perm buckets
    rw [none] at arranged
    exact nonempty arranged.nil_eq.symm
  rw [assembledData_eq, noSummary, if_neg Bool.false_ne_true,
    groups_series (ne_nil_of_perm perm (List.cons_ne_nil _ _)) partsOf, List.map_singleton,
    Assembly.toHistogramPoint, inOrder, Assembly.countOrLast, counts, sums, someBuckets]
  rfl

/-- The slices of a summary make the data point that a whole point says. -/
theorem assembledData_summary
    {parts : List SeriesSlice}
    {count : UInt64}
    {sum : Binary64}
    {quantiles : List (Binary64 × Binary64)}
    {closing : Option UInt64}
    (perm : (parts.map SeriesSlice.slice).Perm
      (slicesOf count sum
        (quantiles.map fun quantile => .quantile quantile.1 quantile.2) closing))
    (partsOf : ∀ part ∈ parts, PartOf .summary stated part)
    (finite : ∀ quantile ∈ quantiles, quantile.1.isFinite = true)
    (apart : quantiles.Pairwise fun left right => left.1.sameNumber right.1 = false)
    (nonempty : quantiles ≠ []) :
    assembledData parts =
      .summary
        [.ofQuantiles (Attribute.ofTags stated.levels.attributes) stated.time count sum
          (Assembly.inOrder quantiles)] := by
  have isQuantile (P : Slice -> Prop)
      (each : ∀ quantile ∈ quantiles, P (.quantile quantile.1 quantile.2)) :
      ∀ part ∈ quantiles.map (fun quantile => Slice.quantile quantile.1 quantile.2), P part :=
    List.forall_mem_map.mpr each
  have noTotal := isQuantile (fun part => part.total? = none) fun _ _ => rfl
  have different := pairwise_slicesOf count sum closing (List.pairwise_map.mpr apart) noTotal
    (isQuantile _ fun _ _ _ => rfl)
  obtain ⟨counts, sums, -, listed⟩ := assemble_of_perm perm different
    (filterMap_total?_slicesOf count sum closing noTotal)
  rw [filterMap_quantile?_slicesOf] at listed
  have inOrder :=
    Assembly.inOrder_eq_of_perm listed.symm (nodup_finite_places finite apart)
  have summary : makesSummary parts = true := by
    obtain ⟨quantile, member⟩ := List.exists_mem_of_ne_nil quantiles nonempty
    have isSlice : Slice.quantile quantile.1 quantile.2 ∈ parts.map SeriesSlice.slice := by
      refine perm.mem_iff.mpr (List.mem_cons_of_mem _ (List.mem_append_left _ ?_))
      exact List.mem_map_of_mem member
    obtain ⟨part, partMember, same⟩ := List.mem_map.mp isSlice
    refine List.any_eq_true.mpr ⟨part, partMember, ?_⟩
    rw [same, Slice.isQuantile, Bool.or_true]
  rw [assembledData_eq, summary, if_pos rfl,
    groups_series (ne_nil_of_perm perm (List.cons_ne_nil _ _)) partsOf, List.map_singleton,
    Assembly.toSummaryPoint, counts, sums, <- inOrder]
  rfl

/-- The sliced points of a distribution say its slices, if those with its parts do. -/
theorem IsReadable.says_lines
    {count : UInt64}
    {sum : Binary64}
    {parts : List Slice}
    (readable : stated.IsReadable kind)
    (counts : ∀ field, stated.count.toCount field = .ok count)
    (sums : ∀ field, stated.sum.toDouble field = .ok sum)
    (sayParts : List.Forall₂ (SaysLine kind stated) (stated.parts.map (stated.partLine kind))
      parts) :
    ∃ closing,
      List.Forall₂ (SaysLine kind stated) (stated.lines kind)
        (slicesOf count sum parts closing) := by
  have total := readable.says_totalLine counts sums
  cases closing : stated.closing with
  | none =>
      refine ⟨none, .cons total ?_⟩
      rw [closing]
      exact List.rel_append sayParts .nil
  | some value =>
      obtain ⟨infinite, infiniteCounts⟩ := readable.exists_closing closing
      have isInfinity : Binary64.ofKey? ReservedName.infiniteBound = some .infinity := by
        decide
      refine ⟨some infinite, .cons total ?_⟩
      rw [closing]
      exact List.rel_append sayParts
        (.cons (readable.says_bucketLine isInfinity infiniteCounts) .nil)

/-- The data of one reading of a distribution, and the slices that make the same data. -/
structure Agrees
    (kind : Distribution)
    (stated : StatedDistribution)
    (reading : Reading)
    (slices : List Slice) : Prop where
  whole : Batch.Says .whole (stated.wholePoint kind)
    (.under stated.levels stated.metric reading)
  sliced : List.Forall₂ (SaysLine kind stated) (stated.lines kind) slices
  same : ∀ parts : List SeriesSlice, (parts.map SeriesSlice.slice).Perm slices ->
    (∀ part ∈ parts, PartOf kind stated part) ->
      assembledData parts = dataOf reading.kind [reading]

/-- The parts of a histogram can be read. -/
theorem IsReadable.states_buckets (readable : stated.IsReadable .histogram) :
    ∀ part ∈ stated.parts,
      Whole.StatesPart (fun key value => value.toCount key) part :=
  fun part member =>
    Whole.statesPart_of_read (readable.finite part member) (readable.values part member)

/-- The parts of a summary can be read. -/
theorem IsReadable.states_quantiles (readable : stated.IsReadable .summary) :
    ∀ part ∈ stated.parts,
      Whole.StatesPart (fun key value => value.toDouble key) part :=
  fun part member =>
    Whole.statesPart_of_read (readable.finite part member) (readable.values part member)

/-- A distribution states some part. -/
theorem IsReadable.statedParts_ne_nil
    {α : Type}
    {readPart : String -> FieldValue -> Except Error α}
    (readable : stated.IsReadable kind)
    (states : ∀ part ∈ stated.parts, Whole.StatesPart readPart part) :
    stated.parts.filterMap (Whole.statedPart? readPart) ≠ [] := by
  intro none
  have lengths := (Whole.forall₂_statedPart? states).length_eq
  rw [none] at lengths
  exact readable.nonempty (List.length_eq_zero_iff.mp lengths)

/-- A histogram that can be read is one reading of a whole point, and the slices of
sliced points make the same data. -/
theorem IsReadable.exists_agrees_histogram (readable : stated.IsReadable .histogram) :
    ∃ reading slices, Agrees .histogram stated reading slices := by
  obtain ⟨count, counts⟩ := readable.exists_count
  obtain ⟨sum, sums⟩ := readable.exists_sum
  have states := readable.states_buckets
  have someBuckets := readable.statedParts_ne_nil states
  have apart : (stated.parts.filterMap
      (Whole.statedPart? fun key value => value.toCount key)).Pairwise fun left right =>
        left.1.sameNumber right.1 = false := Whole.pairwise_statedPart? readable.different
  have finite : ∀ bucket ∈ stated.parts.filterMap
      (Whole.statedPart? fun key value => value.toCount key), bucket.1.isFinite = true :=
    fun _ => Whole.isFinite_of_mem_statedParts
  have read :=
    Whole.distribution_ofList .histogram (stated.fields_wholePoint .histogram) (counts _)
      (sums _) states (nodup_finite_places finite apart)
  have ordered := Assembly.orderedPlaces_inOrder (List.pairwise_map.mpr apart)
  have sayParts :
      List.Forall₂ (SaysLine .histogram stated) (stated.parts.map (stated.partLine .histogram))
        ((stated.parts.filterMap (Whole.statedPart? fun key value => value.toCount key)).map
          fun bucket => .bucket bucket.1 bucket.2) := by
    rw [List.forall₂_map_left_iff, List.forall₂_map_right_iff]
    refine (Whole.forall₂_statedPart? states).imp fun part bucket isStated => ?_
    obtain ⟨isPlace, isCount⟩ := Whole.statedPart?_eq_some isStated
    exact readable.says_bucketLine (Option.filter_eq_some_iff.mp isPlace).1
      fun field => FieldValue.toCount_field field isCount
  obtain ⟨closing, sayLines⟩ := readable.says_lines counts sums sayParts
  refine ⟨_, _, says_wholePoint_histogram readable.timed read ordered, sayLines, ?_⟩
  exact fun parts perm partsOf =>
    assembledData_histogram perm partsOf finite apart someBuckets

/-- A summary that can be read is one reading of a whole point, and the slices of sliced
points make the same data. -/
theorem IsReadable.exists_agrees_summary (readable : stated.IsReadable .summary) :
    ∃ reading slices, Agrees .summary stated reading slices := by
  obtain ⟨count, counts⟩ := readable.exists_count
  obtain ⟨sum, sums⟩ := readable.exists_sum
  have states := readable.states_quantiles
  have someQuantiles := readable.statedParts_ne_nil states
  have apart : (stated.parts.filterMap
      (Whole.statedPart? fun key value => value.toDouble key)).Pairwise fun left right =>
        left.1.sameNumber right.1 = false := Whole.pairwise_statedPart? readable.different
  have finite : ∀ quantile ∈ stated.parts.filterMap
      (Whole.statedPart? fun key value => value.toDouble key), quantile.1.isFinite = true :=
    fun _ => Whole.isFinite_of_mem_statedParts
  have read :=
    Whole.distribution_ofList .summary (stated.fields_wholePoint .summary) (counts _)
      (sums _) states (nodup_finite_places finite apart)
  have sayParts :
      List.Forall₂ (SaysLine .summary stated) (stated.parts.map (stated.partLine .summary))
        ((stated.parts.filterMap (Whole.statedPart? fun key value => value.toDouble key)).map
          fun quantile => .quantile quantile.1 quantile.2) := by
    rw [List.forall₂_map_left_iff, List.forall₂_map_right_iff]
    refine (Whole.forall₂_statedPart? states).imp fun part quantile isStated => ?_
    obtain ⟨isPlace, isDouble⟩ := Whole.statedPart?_eq_some isStated
    exact readable.says_quantileLine (readable.named rfl) isPlace
      fun field => FieldValue.toDouble_field field isDouble
  obtain ⟨closing, sayLines⟩ := readable.says_lines counts sums sayParts
  refine ⟨_, _, says_wholePoint_summary readable.timed read, sayLines, ?_⟩
  exact fun parts perm partsOf =>
    assembledData_summary perm partsOf finite apart someQuantiles

end StatedDistribution

namespace Batch

open Grouping StatedDistribution

/-- A distribution that can be read makes the same tree whether one whole point states it
or sliced points do, in any order and with any hints that do not turn it into another
kind. A batch accepts all of these points. -/
theorem run_whole_eq_run_sliced
    (kind : Distribution)
    (stated : StatedDistribution)
    (now : UInt64)
    (lines : List Arrival)
    (readable : stated.IsReadable kind)
    (arranged : (lines.map fun arrival => { arrival.point with hint := .untyped }).Perm
      (stated.lines kind))
    (mayHint : ∀ arrival ∈ lines, MayHint kind arrival.point.hint) :
    let whole := (empty .whole).run [⟨now, stated.wholePoint kind⟩]
    let sliced := (empty .sliced).run lines
    (∀ answer ∈ whole.2, answer = none) ∧ (∀ answer ∈ sliced.2, answer = none) ∧
      whole.1.finish = sliced.1.finish := by
  intro whole sliced
  have agrees : ∃ reading slices, Agrees kind stated reading slices := by
    cases kind with
    | histogram => exact readable.exists_agrees_histogram
    | summary => exact readable.exists_agrees_summary
  obtain ⟨reading, slices, agrees⟩ := agrees
  obtain ⟨parts, perm, partsOf, sayParts⟩ :=
    exists_parts_of_lines agrees.sliced arranged mayHint
  have nonempty : parts.map SeriesSlice.toReading ≠ [] := by
    have someSlice : slices ≠ [] := by
      rintro rfl
      cases agrees.sliced
    exact fun none => ne_nil_of_perm perm someSlice (List.map_eq_nil_iff.mp none)
  have sliceKinds : ∀ other ∈ parts.map SeriesSlice.toReading, other.kind = .assembled :=
    List.forall_mem_map.mpr fun _ _ => rfl
  have ownKind : ∀ other ∈ [reading], other.kind = reading.kind :=
    fun other member => congrArg Reading.kind (List.mem_singleton.mp member)
  have sayWhole :
      List.Forall₂ (Says .whole) ([⟨now, stated.wholePoint kind⟩].map Arrival.point)
        ([reading].map (.under stated.levels stated.metric)) := .cons agrees.whole .nil
  obtain ⟨wholeAccepted, wholeFinish⟩ :=
    run_of_says sayWhole (consistent_of_readings _ _ ownKind)
  obtain ⟨slicedAccepted, slicedFinish⟩ :=
    run_of_says sayParts (consistent_of_readings _ _ sliceKinds)
  refine ⟨wholeAccepted, slicedAccepted, wholeFinish.trans (.trans ?_ slicedFinish.symm)⟩
  rw [tree_of_metric _ _ (List.cons_ne_nil _ _) ownKind,
    tree_of_metric _ _ nonempty sliceKinds, <- agrees.same parts perm partsOf, dataOf,
    Reading.filterMap_slice?_toReading]

/-- A histogram with counts that decrease, under keys in two spellings, and its slices in
another order with an infinite bucket. -/
theorem run_whole_eq_run_sliced_decreasing_counts :
    let stated : StatedDistribution := {
      metric := "lag"
      tags := .ofList [("host.name", "a"), ("zone", "b")]
      time := 5
      count := .int 4
      sum := .float (.ofNat 7)
      parts := [("10", .int 3), ("1.50", .uint 9), ("-0", .int 5)]
      closing := some (.int 1) }
    let arrivals (points : List Point) : List Arrival := points.map fun point => ⟨9, point⟩
    let lines := arrivals ((stated.lines .histogram).reverse.map fun point =>
      { point with hint := .histogram })
    let lag : HistogramPoint := {
      attributes := [.ofText "zone" "b"]
      time := 5
      count := 4
      sum := some ⟨0x401C000000000000⟩
      counts := [5, 9, 3, 4]
      bounds := [⟨0x8000000000000000⟩, ⟨0x3FF8000000000000⟩, ⟨0x4024000000000000⟩] }
    let tree : MetricTree := [⟨some [.ofText "host.name" "a"], [⟨some ⟨"", ""⟩, [
      ⟨"lag", some <| .histogram [lag] Temporality.cumulative.code⟩]⟩]⟩]
    stated.IsReadable .histogram ∧
      (lines.map fun arrival => { arrival.point with hint := .untyped }).Perm
        (stated.lines .histogram) ∧
      (∀ arrival ∈ lines, MayHint .histogram arrival.point.hint) ∧
      ((empty .whole).run [⟨9, stated.wholePoint .histogram⟩]).1.finish = tree ∧
      ((empty .sliced).run lines).1.finish = tree := by
  intro stated arrivals lines lag tree
  have readable : stated.IsReadable .histogram := by
    constructor <;> decide +kernel
  have arranged : (lines.map fun arrival => { arrival.point with hint := .untyped }).Perm
      (stated.lines .histogram) := by decide +kernel
  have mayHint : ∀ arrival ∈ lines, MayHint .histogram arrival.point.hint := by
    decide +kernel
  have agree := run_whole_eq_run_sliced .histogram stated 9 lines readable arranged mayHint
  have made : ((empty .whole).run [⟨9, stated.wholePoint .histogram⟩]).1.finish = tree := by
    decide +kernel
  exact ⟨readable, arranged, mayHint, made, agree.2.2.symm.trans made⟩

end Batch
end LineMetrics
