import LineMetrics.Proofs.HistogramShape

/-!
# Distributions from their last slices

A data point that is assembled from slices depends on nothing but the accepted slices
of its series, and of those only the last one for each place and the last total matter.
This is said here of the whole list of slices, without any assembly that is changed as
they come. Only the choice between a histogram and a summary looks at all series of the
metric.
-/

namespace LineMetrics

variable {α : Type}

namespace LastSlices

/-- The value that came last for a place, or for one that is numerically equal. -/
def lastFor? (place : Binary64) (received : List (Binary64 × α)) : Option α :=
  (received.reverse.find? fun entry => entry.1.sameNumber place).map Prod.snd

/-- The numerically different places, each in the form in which it came first. -/
def places : List (Binary64 × α) -> List Binary64
  | [] => []
  | entry :: received =>
      entry.1 :: (places received).filter fun place => !entry.1.sameNumber place

/-- The numerically different places, each with the value that came last for it. -/
def lastValues (received : List (Binary64 × α)) : List (Binary64 × α) :=
  (places received).filterMap fun place =>
    (lastFor? place received).map fun value => (place, value)

/-- The finite bounds in ascending order, each with the count that came last for it. -/
def buckets (slices : List Slice) : List (Binary64 × UInt64) :=
  (Assembly.inOrder (lastValues (slices.filterMap Slice.bucket?))).filter fun bucket =>
    bucket.1.isFinite

/-- The count that came last for the bucket that holds every observation. -/
def infiniteBucket? (slices : List Slice) : Option UInt64 :=
  lastFor? .infinity (slices.filterMap Slice.bucket?)

/-- The count and the sum that came last. -/
def total? (slices : List Slice) : Option (UInt64 × Binary64) :=
  (slices.filterMap Slice.total?).getLast?

/-- The number of observations: that of the last total, or else that of the last infinite
bucket, or else that of the greatest finite bound, or else none. -/
def count (slices : List Slice) : UInt64 :=
  match total? slices, infiniteBucket? slices, (buckets slices).getLast? with
  | some (count, _), _, _ => count
  | none, some count, _ => count
  | none, none, some (_, count) => count
  | none, none, none => 0

/-- The data point of a histogram from the slices of a series. -/
def histogramPoint (series : Series) (slices : List Slice) : HistogramPoint where
  attributes := Attribute.ofTags series.attributes
  time := series.time
  count := count slices
  sum := (total? slices).map Prod.snd
  counts :=
    if buckets slices = [] ∧ infiniteBucket? slices = none then []
    else Buckets.perBucket ((buckets slices).map Prod.snd ++ [count slices])
  bounds := (buckets slices).map Prod.fst

/-- The data point of a summary from the slices of a series. -/
def summaryPoint (series : Series) (slices : List Slice) : SummaryPoint where
  attributes := Attribute.ofTags series.attributes
  time := series.time
  count := ((total? slices).map Prod.fst).getD 0
  sum := ((total? slices).map Prod.snd).getD .zero
  quantiles :=
    (Assembly.inOrder (lastValues (slices.filterMap Slice.quantile?))).map
      fun (quantile, value) => ⟨quantile, value⟩

/-- The data of a metric from its slices: a summary if one of them asks for it or is a
quantile, and a cumulative histogram otherwise, with one data point for each series. -/
def data (parts : List SeriesSlice) : MetricData :=
  let series := groups SeriesSlice.series parts
  if ∃ part ∈ parts, part.preferSummary ∨ part.slice.isQuantile then
    .summary <| series.map fun (series, parts) =>
      summaryPoint series (parts.map SeriesSlice.slice)
  else
    .histogram
      (series.map fun (series, parts) =>
        histogramPoint series (parts.map SeriesSlice.slice))
      Temporality.cumulative.code

@[simp] theorem lastFor?_nil (place : Binary64) :
    lastFor? place ([] : List (Binary64 × α)) = none := rfl

/-- One more value is the last one for its place, and changes nothing for others. -/
theorem lastFor?_append_singleton
    (place : Binary64)
    (received : List (Binary64 × α))
    (entry : Binary64 × α) :
    lastFor? place (received ++ [entry]) =
      if entry.1.sameNumber place then some entry.2 else lastFor? place received := by
  rw [lastFor?, List.reverse_append, List.reverse_singleton, List.singleton_append,
    List.find?_cons]
  cases entry.1.sameNumber place <;> rfl

/-- One more place comes to the end, unless it has been there. -/
theorem places_append_singleton (received : List (Binary64 × α)) (entry : Binary64 × α) :
    places (received ++ [entry]) =
      if received.any fun other => other.1.sameNumber entry.1 then places received
      else places received ++ [entry.1] := by
  induction received with
  | nil => rfl
  | cons first received inductionHypothesis =>
      rw [List.cons_append, places, places, inductionHypothesis, List.any_cons]
      cases here : first.1.sameNumber entry.1 with
      | true =>
          rw [Bool.true_or, if_pos rfl]
          split
          · rfl
          · rw [List.filter_append, List.filter_singleton, here, Bool.not_true, cond_false,
              List.append_nil]
      | false =>
          rw [Bool.false_or]
          split
          · rfl
          · rw [List.filter_append, List.filter_singleton, here, Bool.not_false, cond_true,
              List.cons_append]

/-- The places are numerically different. -/
theorem pairwise_places (received : List (Binary64 × α)) :
    (places received).Pairwise fun left right => left.sameNumber right = false := by
  induction received with
  | nil => exact .nil
  | cons first received inductionHypothesis =>
      refine .cons (fun place member => ?_) (inductionHypothesis.filter _)
      rw [<- Bool.not_eq_true']
      exact (List.mem_filter.mp member).2

/-- Every place came with some value. -/
theorem exists_mem_of_mem_places
    {received : List (Binary64 × α)}
    {place : Binary64}
    (member : place ∈ places received) :
    ∃ entry ∈ received, entry.1 = place := by
  induction received with
  | nil => cases member
  | cons first received inductionHypothesis =>
      rcases List.mem_cons.mp member with rfl | behind
      · exact ⟨first, .head _, rfl⟩
      · obtain ⟨entry, entryMember, same⟩ :=
          inductionHypothesis (List.mem_filter.mp behind).1
        exact ⟨entry, .tail _ entryMember, same⟩

variable {received : List (Binary64 × α)}

/-- What came for a number is represented among the places. -/
theorem exists_mem_places
    (numbers : ∀ entry ∈ received, entry.1.isNaN = false)
    {entry : Binary64 × α}
    (member : entry ∈ received) :
    ∃ place ∈ places received, place.sameNumber entry.1 = true := by
  induction received with
  | nil => cases member
  | cons first received inductionHypothesis =>
      obtain ⟨firstNumber, othersNumbers⟩ := List.forall_mem_cons.mp numbers
      rcases List.mem_cons.mp member with rfl | behind
      · exact ⟨entry.1, .head _, Binary64.sameNumber_self firstNumber⟩
      · obtain ⟨place, placeMember, same⟩ := inductionHypothesis othersNumbers behind
        cases here : first.1.sameNumber place with
        | true => exact ⟨first.1, .head _, Binary64.sameNumber_trans here same⟩
        | false =>
            have kept : place ∈
                (places received).filter fun place => !first.1.sameNumber place :=
              List.mem_filter.mpr ⟨placeMember, by rw [here]; rfl⟩
            exact ⟨place, .tail _ kept, same⟩

/-- A place among numbers has a last value. -/
theorem exists_lastFor?
    (numbers : ∀ entry ∈ received, entry.1.isNaN = false)
    {place : Binary64}
    (member : place ∈ places received) :
    ∃ value, lastFor? place received = some value := by
  obtain ⟨entry, entryMember, rfl⟩ := exists_mem_of_mem_places member
  have found : (received.reverse.find? fun other => other.1.sameNumber entry.1).isSome :=
    List.find?_isSome.mpr ⟨entry, List.mem_reverse.mpr entryMember,
      Binary64.sameNumber_self (numbers entry entryMember)⟩
  obtain ⟨last, isLast⟩ := Option.isSome_iff_exists.mp found
  exact ⟨last.2, by rw [lastFor?, isLast, Option.map_some]⟩

/-- The last values stand at the places. -/
theorem map_fst_lastValues (numbers : ∀ entry ∈ received, entry.1.isNaN = false) :
    (lastValues received).map Prod.fst = places received := by
  rw [lastValues, List.map_filterMap]
  refine (List.filterMap_congr fun place member => ?_).trans List.filterMap_some
  obtain ⟨value, last⟩ := exists_lastFor? numbers member
  rw [last]
  rfl

end LastSlices

namespace Assembly

/-- Setting a value at a place that is there changes the value of that one only. -/
theorem setAt_eq_map
    {place : Binary64}
    (value : α)
    {entries : List (Binary64 × α)}
    (apart : (entries.map Prod.fst).Pairwise fun left right =>
      left.sameNumber right = false)
    (present : ∃ other ∈ entries.map Prod.fst, other.sameNumber place = true) :
    setAt place value entries =
      entries.map fun entry =>
        if entry.1.sameNumber place then (entry.1, value) else entry := by
  induction entries with
  | nil =>
      obtain ⟨other, member, -⟩ := present
      cases member
  | cons first rest inductionHypothesis =>
      obtain ⟨firstApart, restApart⟩ := List.pairwise_cons.mp apart
      rw [setAt, List.map_cons]
      cases here : first.1.sameNumber place with
      | true =>
          have unchanged : (rest.map fun entry =>
              if entry.1.sameNumber place then (entry.1, value) else entry) = rest := by
            refine (List.map_congr_left fun entry member => if_neg fun same => ?_).trans
              (List.map_id rest)
            have different := firstApart entry.1 (List.mem_map_of_mem member)
            rw [Binary64.sameNumber_comm] at same
            rw [Binary64.sameNumber_trans here same] at different
            cases different
          rw [if_pos rfl, if_pos rfl, unchanged]
      | false =>
          obtain ⟨other, member, same⟩ := present
          rcases List.mem_cons.mp member with rfl | behind
          · rw [here] at same
            cases same
          · rw [if_neg Bool.false_ne_true, if_neg Bool.false_ne_true,
              inductionHypothesis restApart ⟨other, behind, same⟩]

end Assembly

namespace LastSlices

/-- Setting values one by one, as they come, leaves the last one at each place. -/
theorem lastValues_append_singleton
    {received : List (Binary64 × α)}
    (entry : Binary64 × α)
    (numbers : ∀ other ∈ received, other.1.isNaN = false)
    (isNumber : entry.1.isNaN = false) :
    lastValues (received ++ [entry]) =
      Assembly.setAt entry.1 entry.2 (lastValues received) := by
  have places_eq := map_fst_lastValues numbers
  rw [lastValues, places_append_singleton]
  cases seen : received.any fun other => other.1.sameNumber entry.1 with
  | true =>
      obtain ⟨other, member, same⟩ := List.any_eq_true.mp seen
      obtain ⟨place, placeMember, samePlace⟩ := exists_mem_places numbers member
      have apart := pairwise_places received
      rw [<- places_eq] at placeMember apart
      rw [if_pos rfl, Assembly.setAt_eq_map entry.2 apart
        ⟨place, placeMember, Binary64.sameNumber_trans samePlace same⟩, lastValues,
        List.map_filterMap]
      apply List.filterMap_congr
      intro kept keptMember
      obtain ⟨value, last⟩ := exists_lastFor? numbers keptMember
      rw [lastFor?_append_singleton, last, Binary64.sameNumber_comm]
      dsimp only [Option.map_some]
      split <;> rfl
  | false =>
      rw [List.any_eq_false] at seen
      have absent (place : Binary64) (member : place ∈ places received) :
          place.sameNumber entry.1 = false := by
        obtain ⟨other, otherMember, rfl⟩ := exists_mem_of_mem_places member
        exact Bool.eq_false_iff.mpr (seen other otherMember)
      have others : (places received).filterMap (fun place =>
          (lastFor? place (received ++ [entry])).map fun value => (place, value)) =
            lastValues received := by
        apply List.filterMap_congr
        intro place member
        rw [lastFor?_append_singleton, Binary64.sameNumber_comm, absent place member,
          if_neg Bool.false_ne_true]
      have here : lastFor? entry.1 (received ++ [entry]) = some entry.2 := by
        rw [lastFor?_append_singleton, if_pos (Binary64.sameNumber_self isNumber)]
      rw [if_neg Bool.false_ne_true, List.filterMap_append, others, List.filterMap_cons,
        here, Assembly.setAt_eq_append entry.2 fun other member => absent other.1 <|
          places_eq ▸ List.mem_map_of_mem member]
      rfl

end LastSlices

namespace Binary64

/-- Only infinity is numerically equal to infinity. -/
theorem sameNumber_infinity_eq (number : Binary64) :
    number.sameNumber infinity = decide (number = infinity) := by
  have isNumber : infinity.isNaN = false := by decide
  have notZero : infinity.isZero = false := by decide
  by_cases same : number = infinity
  · rw [same, sameNumber_self isNumber, decide_eq_true rfl]
  · simp [sameNumber, notZero, same]

end Binary64

namespace Assembly

/-- The value at infinity is the one that is set there, if any is. -/
theorem find?_setAt_infinity
    (place : Binary64)
    (value : α)
    (entries : List (Binary64 × α)) :
    ((setAt place value entries).find? fun entry => entry.1 = .infinity).map Prod.snd =
      if place.sameNumber .infinity then some value
      else (entries.find? fun entry => entry.1 = .infinity).map Prod.snd := by
  rw [Binary64.sameNumber_infinity_eq]
  induction entries with
  | nil =>
      rw [setAt, List.find?_singleton]
      dsimp only
      split <;> rfl
  | cons entry entries inductionHypothesis =>
      rw [setAt]
      by_cases entryInfinite : entry.1 = .infinity
      · -- an infinite entry takes the value exactly if the place is infinite as well
        rw [entryInfinite, Binary64.sameNumber_comm, Binary64.sameNumber_infinity_eq]
        split <;> simp [entryInfinite]
      · split
        · rename_i here
          have placeFinite : place ≠ .infinity := by
            rintro rfl
            rw [Binary64.sameNumber_infinity_eq] at here
            exact entryInfinite (of_decide_eq_true here)
          simp [entryInfinite, placeFinite]
        · rw [List.find?_cons, List.find?_cons, decide_eq_false entryInfinite]
          exact inductionHypothesis

end Assembly

namespace LastSlices

/-- The value at infinity is the one that came last for it. -/
theorem find?_lastValues_infinity
    {received : List (Binary64 × α)}
    (numbers : ∀ entry ∈ received, entry.1.isNaN = false) :
    ((lastValues received).find? fun entry => entry.1 = .infinity).map Prod.snd =
      lastFor? .infinity received := by
  induction received using List.reverseRecOn with
  | nil => rfl
  | append_singleton received entry inductionHypothesis =>
      obtain ⟨receivedNumbers, lastNumber⟩ := List.forall_mem_append.mp numbers
      rw [lastValues_append_singleton entry receivedNumbers (lastNumber entry (.head _)),
        Assembly.find?_setAt_infinity, lastFor?_append_singleton,
        inductionHypothesis receivedNumbers]

/-- No place of a readable bucket is NaN. -/
theorem isNaN_of_mem_buckets
    {metric : String}
    {slices : List Slice}
    (readable : ∀ slice ∈ slices, slice.IsReadable metric) :
    ∀ entry ∈ slices.filterMap Slice.bucket?, entry.1.isNaN = false := by
  intro entry member
  obtain ⟨slice, sliceMember, isBucket⟩ := List.mem_filterMap.mp member
  have isReadable := readable slice sliceMember
  rw [Slice.eq_bucket_of_bucket? isBucket] at isReadable
  exact isReadable

/-- No place of a readable quantile is NaN. -/
theorem isNaN_of_mem_quantiles
    {metric : String}
    {slices : List Slice}
    (readable : ∀ slice ∈ slices, slice.IsReadable metric) :
    ∀ entry ∈ slices.filterMap Slice.quantile?, entry.1.isNaN = false := by
  intro entry member
  obtain ⟨slice, sliceMember, isQuantile⟩ := List.mem_filterMap.mp member
  have isReadable := readable slice sliceMember
  rw [Slice.eq_quantile_of_quantile? isQuantile] at isReadable
  exact Binary64.isNaN_of_isFinite isReadable.1

end LastSlices

namespace Grouping

/-- An assembly of slices, which is changed as they come, holds the last of them. -/
theorem assemble_eq_lastSlices
    {metric : String}
    {parts : List SeriesSlice}
    (readable : ∀ part ∈ parts, part.slice.IsReadable metric) :
    let slices := parts.map SeriesSlice.slice
    assemble parts = {
      count := (LastSlices.total? slices).map Prod.fst
      sum := (LastSlices.total? slices).map Prod.snd
      buckets := LastSlices.lastValues (slices.filterMap Slice.bucket?)
      quantiles := LastSlices.lastValues (slices.filterMap Slice.quantile?) } := by
  induction parts using List.reverseRecOn with
  | nil => rfl
  | append_singleton parts part inductionHypothesis =>
      obtain ⟨partsReadable, partReadable⟩ := List.forall_mem_append.mp readable
      have slicesReadable : ∀ slice ∈ parts.map SeriesSlice.slice, slice.IsReadable metric :=
        List.forall_mem_map.mpr partsReadable
      have isReadable := partReadable part (.head _)
      dsimp only at inductionHypothesis ⊢
      rw [assemble_append_singleton, inductionHypothesis partsReadable, List.map_append,
        List.map_singleton, List.filterMap_append, List.filterMap_append,
        LastSlices.total?, LastSlices.total?, List.filterMap_append]
      cases slice : part.slice with
      | bucket bound count =>
          rw [slice] at isReadable
          have set := LastSlices.lastValues_append_singleton (bound, count)
            (LastSlices.isNaN_of_mem_buckets slicesReadable) isReadable
          simp only [List.filterMap_cons, List.filterMap_nil, Slice.bucket?,
            Slice.quantile?, Slice.total?, List.append_nil, set]
          rfl
      | quantile place value =>
          rw [slice] at isReadable
          have set := LastSlices.lastValues_append_singleton (place, value)
            (LastSlices.isNaN_of_mem_quantiles slicesReadable)
            (Binary64.isNaN_of_isFinite isReadable.1)
          simp only [List.filterMap_cons, List.filterMap_nil, Slice.bucket?,
            Slice.quantile?, Slice.total?, List.append_nil, set]
          rfl
      | total count sum =>
          simp only [List.filterMap_cons, List.filterMap_nil, Slice.bucket?,
            Slice.quantile?, Slice.total?, List.append_nil, List.getLast?_concat]
          rfl

/-- The data point of a histogram is that of the last slices. -/
theorem toHistogramPoint_assemble
    {metric : String}
    {parts : List SeriesSlice}
    (series : Series)
    (readable : ∀ part ∈ parts, part.slice.IsReadable metric) :
    (assemble parts).toHistogramPoint series =
      LastSlices.histogramPoint series (parts.map SeriesSlice.slice) := by
  have numbers := LastSlices.isNaN_of_mem_buckets (List.forall_mem_map.mpr readable)
  have assembled := assemble_eq_lastSlices readable
  dsimp only at assembled
  have infinite : (assemble parts).infiniteBucket? =
      LastSlices.infiniteBucket? (parts.map SeriesSlice.slice) := by
    rw [Assembly.infiniteBucket?, assembled]
    exact LastSlices.find?_lastValues_infinity numbers
  have finite : (assemble parts).finiteBuckets =
      LastSlices.buckets (parts.map SeriesSlice.slice) := by
    rw [Assembly.finiteBuckets, assembled, LastSlices.buckets]
  have count : (assemble parts).countOrLast =
      LastSlices.count (parts.map SeriesSlice.slice) := by
    rw [Assembly.countOrLast, infinite, finite, assembled, LastSlices.count]
    cases LastSlices.total? (parts.map SeriesSlice.slice) <;>
      cases LastSlices.infiniteBucket? (parts.map SeriesSlice.slice) <;>
      cases (LastSlices.buckets (parts.map SeriesSlice.slice)).getLast? <;> rfl
  rw [Assembly.toHistogramPoint, LastSlices.histogramPoint, finite, infinite, count,
    assembled]
  simp only [Bool.and_eq_true, List.isEmpty_iff, Option.isNone_iff_eq_none]

/-- The data point of a summary is that of the last slices. -/
theorem toSummaryPoint_assemble
    {metric : String}
    {parts : List SeriesSlice}
    (series : Series)
    (readable : ∀ part ∈ parts, part.slice.IsReadable metric) :
    (assemble parts).toSummaryPoint series =
      LastSlices.summaryPoint series (parts.map SeriesSlice.slice) := by
  rw [Assembly.toSummaryPoint, assemble_eq_lastSlices readable, LastSlices.summaryPoint]

/-- The data of slices are those of the last slices of each series. -/
theorem assembledData_eq_lastSlices
    {metric : String}
    {parts : List SeriesSlice}
    (readable : ∀ part ∈ parts, part.slice.IsReadable metric) :
    assembledData parts = LastSlices.data parts := by
  have inSeries (group : Series × List SeriesSlice)
      (member : group ∈ groups SeriesSlice.series parts) :
      ∀ part ∈ group.2, part.slice.IsReadable metric :=
    fun part inGroup => readable part (of_mem_of_mem_groups member inGroup).1
  have summaries : (groups SeriesSlice.series parts).map (fun group =>
      (assemble group.2).toSummaryPoint group.1) =
        (groups SeriesSlice.series parts).map fun group =>
          LastSlices.summaryPoint group.1 (group.2.map SeriesSlice.slice) :=
    List.map_congr_left fun group member => toSummaryPoint_assemble _ (inSeries group member)
  have histograms : (groups SeriesSlice.series parts).map (fun group =>
      (assemble group.2).toHistogramPoint group.1) =
        (groups SeriesSlice.series parts).map fun group =>
          LastSlices.histogramPoint group.1 (group.2.map SeriesSlice.slice) :=
    List.map_congr_left fun group member =>
      toHistogramPoint_assemble _ (inSeries group member)
  rw [assembledData_eq, summaries, histograms, LastSlices.data]
  simp only [makesSummary, List.any_eq_true, Bool.or_eq_true]

end Grouping
end LineMetrics
