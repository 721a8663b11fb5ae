import LineMetrics.Restoring
import LineMetrics.Proofs.Assembling
import LineMetrics.Proofs.RestatedCounts
import LineMetrics.Proofs.RunningTotals
import LineMetrics.Proofs.SlicedReadings

/-!
# Reassembling data points

The places of an assembly are numerically different, and its data points list them in
order. So a data point of an assembly can be cut into slices for different slots, and
the assembly of these slices, as they are read again, makes the data point as it is read
again. That is the same one if it can be restored.
-/

namespace LineMetrics

/-- The places are in ascending order and numerically different. -/
def OrderedPlaces (places : List Binary64) : Prop :=
  places.Pairwise fun left right => left.totalLE right ∧ left.sameNumber right = false

/-- Numerically different finite places are distinct. -/
theorem nodup_finite_places
    {α : Type}
    {entries : List (Binary64 × α)}
    (finite : ∀ entry ∈ entries, entry.1.isFinite = true)
    (apart : entries.Pairwise fun left right => left.1.sameNumber right.1 = false) :
    (entries.map Prod.fst).Nodup := by
  rw [List.Nodup, List.pairwise_map]
  apply apart.imp_of_mem
  intro left right leftMember _ different same
  have self := Binary64.sameNumber_self
    (Binary64.isNaN_of_isFinite (finite left leftMember))
  rw [<- same, self] at different
  cases different

namespace HistogramPoint

/-- The bounds with the running totals of their buckets. -/
def runningTotals (point : HistogramPoint) : List (Binary64 × UInt64) :=
  point.bounds.zip (Buckets.cumulative (point.counts.take point.bounds.length))

/-- The bounds with the running totals of their buckets, as they are read again. -/
def restatedBuckets (point : HistogramPoint) : List (Binary64 × UInt64) :=
  point.bounds.zip point.restatedTotals

/-- The slices that a data point is cut into. The buckets, if any, end with one that
holds every observation. -/
def slices (point : HistogramPoint) : List Slice :=
  .total point.count (point.sum.getD .zero) ::
    if point.counts.isEmpty then []
    else
      point.runningTotals.map (fun (bound, total) => Slice.bucket bound total) ++
        [Slice.bucket .infinity point.count]

/-- The buckets have finite bounds in order and a count each, and one more count for
what lies above. -/
structure WellFormed (point : HistogramPoint) : Prop where
  bounds : OrderedPlaces point.bounds
  finite : ∀ bound ∈ point.bounds, bound.isFinite = true
  layout : point.counts = [] ∧ point.bounds = [] ∨
    point.counts.length = point.bounds.length + 1

end HistogramPoint

/-- A slice that is read again is for the same slot. -/
@[simp] theorem Slice.sameSlot_restated (left right : Slice) :
    left.restated.sameSlot right.restated = left.sameSlot right := by
  cases left <;> cases right <;> simp only [Slice.restated, Slice.sameSlot]

namespace SummaryPoint

/-- The slices that a data point is cut into. -/
def slices (point : SummaryPoint) : List Slice :=
  .total point.count point.sum ::
    point.quantiles.map fun quantile => .quantile quantile.quantile quantile.value

end SummaryPoint

namespace Assembly

/-- Setting a value either keeps all places, or adds one at the end that differs from
them. -/
theorem places_setAt (place : Binary64) (value : α) (entries : List (Binary64 × α)) :
    (setAt place value entries).map Prod.fst = entries.map Prod.fst ∨
      (∀ other ∈ entries.map Prod.fst, other.sameNumber place = false) ∧
        (setAt place value entries).map Prod.fst = entries.map Prod.fst ++ [place] := by
  induction entries with
  | nil => exact .inr ⟨fun _ member => absurd member List.not_mem_nil, rfl⟩
  | cons entry entries inductionHypothesis =>
      rw [setAt]
      cases same : entry.1.sameNumber place with
      | true => exact .inl rfl
      | false =>
          rw [if_neg Bool.false_ne_true, List.map_cons, List.map_cons]
          rcases inductionHypothesis with kept | ⟨apart, added⟩
          · exact .inl (by rw [kept])
          · exact .inr ⟨List.forall_mem_cons.mpr ⟨same, apart⟩, by rw [added]; rfl⟩

/-- The places of an assembly are numerically different. Quantiles are finite, and
belong to a metric with a name. -/
structure Placed (metric : String) (assembly : Assembly) : Prop where
  bounds : (assembly.buckets.map Prod.fst).Pairwise fun left right =>
    left.sameNumber right = false
  quantiles : (assembly.quantiles.map Prod.fst).Pairwise fun left right =>
    left.sameNumber right = false
  readable : ∀ place ∈ assembly.quantiles.map Prod.fst, place.isFinite = true ∧ metric ≠ ""

/-- Places that are different stay so when a value is set. -/
theorem pairwise_setAt
    {entries : List (Binary64 × α)}
    (place : Binary64)
    (value : α)
    (different : (entries.map Prod.fst).Pairwise fun left right =>
      left.sameNumber right = false) :
    ((setAt place value entries).map Prod.fst).Pairwise fun left right =>
      left.sameNumber right = false := by
  rcases places_setAt place value entries with kept | ⟨apart, added⟩
  · rw [kept]
    exact different
  · rw [added, List.pairwise_append]
    refine ⟨different, List.pairwise_singleton _ _, ?_⟩
    intro other member last lastMember
    rw [List.mem_singleton.mp lastMember]
    exact apart other member

/-- A slice that can be read keeps the places of an assembly in shape. -/
theorem Placed.add
    {metric : String}
    {assembly : Assembly}
    {slice : Slice}
    (placed : assembly.Placed metric)
    (readable : slice.IsReadable metric) :
    (assembly.add slice).Placed metric := by
  cases slice with
  | bucket bound count =>
      exact ⟨pairwise_setAt bound count placed.bounds, placed.quantiles, placed.readable⟩
  | quantile place value =>
      refine ⟨placed.bounds, pairwise_setAt place value placed.quantiles, ?_⟩
      intro other member
      rw [Assembly.add] at member
      dsimp only at member
      rcases places_setAt place value assembly.quantiles with kept | ⟨-, added⟩
      · rw [kept] at member
        exact placed.readable other member
      · rw [added, List.mem_append, List.mem_singleton] at member
        rcases member with earlier | rfl
        · exact placed.readable other earlier
        · exact readable
  | total count sum => exact ⟨placed.bounds, placed.quantiles, placed.readable⟩

/-- Different places are different in order. -/
theorem orderedPlaces_inOrder
    {entries : List (Binary64 × α)}
    (different : (entries.map Prod.fst).Pairwise fun left right =>
      left.sameNumber right = false) :
    OrderedPlaces ((inOrder entries).map Prod.fst) := by
  have differentInOrder :
      ((inOrder entries).map Prod.fst).Pairwise fun left right =>
        left.sameNumber right = false := by
    refine (((inOrder_perm entries).map Prod.fst).pairwise_iff ?_).mpr different
    intro left right apart
    rw [Binary64.sameNumber_comm]
    exact apart
  exact (List.pairwise_map.mpr (pairwise_inOrder entries)).and differentInOrder

variable {metric : String} {assembly : Assembly}

/-- The data point of a histogram is well-formed. -/
theorem Placed.wellFormed
    (placed : assembly.Placed metric)
    (series : Series) :
    (assembly.toHistogramPoint series).WellFormed := by
  have bounds : (assembly.toHistogramPoint series).bounds =
      assembly.finiteBuckets.map Prod.fst := rfl
  refine ⟨?_, ?_, ?_⟩
  · rw [bounds]
    refine List.Pairwise.sublist ?_ (orderedPlaces_inOrder placed.bounds)
    exact List.filter_sublist.map Prod.fst
  · intro bound member
    rw [bounds] at member
    obtain ⟨bucket, bucketMember, rfl⟩ := List.mem_map.mp member
    exact (List.mem_filter.mp bucketMember).2
  · rw [bounds, toHistogramPoint]
    dsimp only
    split
    · rename_i noBuckets
      rw [Bool.and_eq_true, List.isEmpty_iff] at noBuckets
      exact .inl ⟨rfl, by rw [noBuckets.1]; rfl⟩
    · refine .inr ?_
      rw [Buckets.length_perBucket, List.length_append, List.length_map, List.length_map,
        List.length_singleton]

/-- The quantiles of the data point of a summary are in order. -/
theorem Placed.orderedQuantiles
    (placed : assembly.Placed metric)
    (series : Series) :
    OrderedPlaces ((assembly.toSummaryPoint series).quantiles.map Quantile.quantile) := by
  have quantiles :
      (assembly.toSummaryPoint series).quantiles.map Quantile.quantile =
        (inOrder assembly.quantiles).map Prod.fst := by
    rw [toSummaryPoint, List.map_map]
    rfl
  rw [quantiles]
  exact orderedPlaces_inOrder placed.quantiles

/-- The quantiles of the data point of a summary are finite, and belong to a metric with
a name. -/
theorem Placed.finiteQuantiles
    (placed : assembly.Placed metric)
    (series : Series) :
    ∀ quantile ∈ (assembly.toSummaryPoint series).quantiles,
      quantile.quantile.isFinite = true ∧ metric ≠ "" := by
  intro quantile member
  obtain ⟨entry, entryMember, rfl⟩ := List.mem_map.mp member
  rw [(inOrder_perm _).mem_iff] at entryMember
  exact placed.readable entry.1 (List.mem_map_of_mem entryMember)

end Assembly

namespace Binary64

@[simp] theorem magnitude_infinity : infinity.magnitude = infiniteMagnitude := by decide

/-- A finite number is below infinity. -/
theorem totalLE_infinity {number : Binary64} (finite : number.isFinite = true) :
    number.totalLE infinity = true := by
  have positive : infinity.isNegative = false := by decide
  rw [isFinite, decide_eq_true_eq] at finite
  rw [totalLE, decide_eq_true_eq, rank, rank, positive, magnitude_infinity]
  cases number.isNegative with
  | true =>
      rw [if_pos rfl, if_neg Bool.false_ne_true]
      omega
  | false =>
      rw [if_neg Bool.false_ne_true, if_neg Bool.false_ne_true]
      omega

/-- A finite number is not infinity. -/
theorem sameNumber_infinity {number : Binary64} (finite : number.isFinite = true) :
    number.sameNumber infinity = false := by
  have notZero : infinity.isZero = false := by decide
  have different : (number == infinity) = false := by
    rw [beq_eq_false_iff_ne]
    rintro rfl
    exact absurd finite (by decide)
  rw [sameNumber, notZero, different, Bool.and_false, Bool.or_false, Bool.and_false]

end Binary64

/-- An infinite place is distinct from finite ones. -/
theorem nodup_closed_places
    {entries : List (Binary64 × UInt64)}
    {closing : Option UInt64}
    (finite : ∀ entry ∈ entries, entry.1.isFinite = true)
    (distinct : (entries.map Prod.fst).Nodup) :
    ((entries ++ closing.toList.map (Binary64.infinity, ·)).map Prod.fst).Nodup := by
  rw [List.map_append, List.nodup_append]
  refine ⟨distinct, ?_, ?_⟩
  · cases closing with
    | none => exact .nil
    | some count => exact List.nodup_singleton _
  · intro place member other otherMember same
    obtain ⟨entry, entryMember, rfl⟩ := List.mem_map.mp member
    obtain ⟨last, lastMember, rfl⟩ := List.mem_map.mp otherMember
    obtain ⟨count, -, rfl⟩ := List.mem_map.mp lastMember
    have notFinite : Binary64.infinity.isFinite = false := by decide
    have finiteHere := finite entry entryMember
    rw [same, notFinite] at finiteHere
    cases finiteHere

namespace Assembly

/-- The finite buckets are those below the infinite ones, in order. -/
theorem finiteBuckets_of_perm
    {assembly : Assembly}
    {finite infinite : List (Binary64 × UInt64)}
    (perm : assembly.buckets.Perm (finite ++ infinite))
    (distinct : ((finite ++ infinite).map Prod.fst).Nodup)
    (isFinite : ∀ bucket ∈ finite, bucket.1.isFinite = true)
    (isInfinite : ∀ bucket ∈ infinite, bucket.1 = .infinity) :
    assembly.finiteBuckets = inOrder finite := by
  have notFinite : Binary64.infinity.isFinite = false := by decide
  have finiteInOrder : ∀ bucket ∈ inOrder finite, bucket.1.isFinite = true :=
    fun bucket member => isFinite bucket ((inOrder_perm finite).mem_iff.mp member)
  have ascending :
      (inOrder finite ++ infinite).Pairwise fun first second =>
        first.1.totalLE second.1 := by
    refine List.pairwise_append.mpr ⟨pairwise_inOrder finite, ?_, ?_⟩
    · have any : infinite.Pairwise fun _ _ => True := List.pairwise_of_forall fun _ _ => trivial
      refine any.imp_of_mem fun {first second} firstMember secondMember _ => ?_
      rw [isInfinite first firstMember, isInfinite second secondMember]
      decide
    · intro first firstMember second secondMember
      rw [isInfinite second secondMember]
      exact Binary64.totalLE_infinity (finiteInOrder first firstMember)
  have arranged : (finite ++ infinite).Perm (inOrder finite ++ infinite) :=
    (inOrder_perm finite).symm.append_right infinite
  rw [finiteBuckets, <- inOrder_eq_of_perm perm.symm distinct,
    inOrder_eq_of_perm arranged distinct, inOrder_of_pairwise ascending,
    List.filter_append, List.filter_eq_self.mpr finiteInOrder, List.filter_eq_nil_iff.mpr,
    List.append_nil]
  intro bucket member
  rw [isInfinite bucket member, notFinite]
  exact Bool.false_ne_true

end Assembly

namespace HistogramPoint

variable {point : HistogramPoint}

/-- A well-formed data point with buckets has one more count than bounds. -/
theorem WellFormed.length_counts
    (wellFormed : point.WellFormed)
    (someBuckets : point.counts.isEmpty = false) :
    point.counts.length = point.bounds.length + 1 := by
  rcases wellFormed.layout with ⟨noCounts, -⟩ | length
  · rw [noCounts] at someBuckets
    cases someBuckets
  · exact length

/-- A well-formed data point with buckets has a running total for each bound. -/
theorem WellFormed.runningTotals_eq
    (wellFormed : point.WellFormed)
    (someBuckets : point.counts.isEmpty = false) :
    point.runningTotals.map Prod.fst = point.bounds ∧
      point.runningTotals.map Prod.snd =
        Buckets.cumulative (point.counts.take point.bounds.length) := by
  have length := wellFormed.length_counts someBuckets
  have totals :
      (Buckets.cumulative (point.counts.take point.bounds.length)).length =
        point.bounds.length := by
    rw [Buckets.length_cumulative, List.length_take]
    omega
  constructor
  · exact List.map_fst_zip (Nat.le_of_eq totals.symm)
  · exact List.map_snd_zip (Nat.le_of_eq totals)

/-- No running total is more than the count, if that is the sum of all counts. -/
theorem toNat_le_of_mem_totals
    {total : UInt64}
    (sumsUp : Buckets.sum point.counts = point.count.toNat)
    (member : total ∈ Buckets.cumulative (point.counts.take point.bounds.length)) :
    total.toNat ≤ point.count.toNat := by
  have within := Buckets.sum_take_le point.bounds.length point.counts
  have below := point.count.toNat_lt
  have bounded := Buckets.toNat_le_of_mem_cumulativeFrom
    (by rw [UInt64.toNat_zero]; simp only [UInt64.size]; omega) member
  rw [UInt64.toNat_zero] at bounded
  omega

theorem toNat_le_of_mem_runningTotals
    {bucket : Binary64 × UInt64}
    (sumsUp : Buckets.sum point.counts = point.count.toNat)
    (member : bucket ∈ point.runningTotals) :
    bucket.2.toNat ≤ point.count.toNat :=
  toNat_le_of_mem_totals sumsUp (List.of_mem_zip member).2

/-- The bounds of the running totals are finite. -/
theorem WellFormed.finite_runningTotals
    (wellFormed : point.WellFormed) :
    ∀ bucket ∈ point.runningTotals, bucket.1.isFinite = true :=
  fun bucket member => wellFormed.finite bucket.1 (List.of_mem_zip member).1

/-- The running totals come in the order of their bounds. -/
theorem WellFormed.ordered_runningTotals
    (wellFormed : point.WellFormed)
    (someBuckets : point.counts.isEmpty = false) :
    point.runningTotals.Pairwise fun left right =>
      left.1.totalLE right.1 ∧ left.1.sameNumber right.1 = false := by
  have places : OrderedPlaces (point.runningTotals.map Prod.fst) := by
    rw [(wellFormed.runningTotals_eq someBuckets).1]
    exact wellFormed.bounds
  exact List.pairwise_map.mp places

/-- A well-formed data point with buckets reads a total again for each bound. -/
theorem WellFormed.length_restatedTotals
    (wellFormed : point.WellFormed)
    (someBuckets : point.counts.isEmpty = false) :
    point.restatedTotals.length = point.bounds.length := by
  have length := wellFormed.length_counts someBuckets
  rw [restatedTotals, List.length_map, Buckets.length_cumulative, List.length_take]
  omega

theorem WellFormed.restatedBuckets_eq
    (wellFormed : point.WellFormed)
    (someBuckets : point.counts.isEmpty = false) :
    point.restatedBuckets.map Prod.fst = point.bounds ∧
      point.restatedBuckets.map Prod.snd = point.restatedTotals := by
  have totals := wellFormed.length_restatedTotals someBuckets
  constructor
  · exact List.map_fst_zip (Nat.le_of_eq totals.symm)
  · exact List.map_snd_zip (Nat.le_of_eq totals)

/-- A slice of a data point is its total, a running total, or the bucket that holds every
observation. -/
theorem mem_slices_iff {slice : Slice} :
    slice ∈ point.slices ↔
      slice = .total point.count (point.sum.getD .zero) ∨
        point.counts.isEmpty = false ∧
          ((∃ bucket ∈ point.runningTotals, slice = .bucket bucket.1 bucket.2) ∨
            slice = .bucket .infinity point.count) := by
  rw [slices, List.mem_cons]
  cases point.counts.isEmpty with
  | true => simp
  | false => simp [eq_comm]

/-- The slices of a well-formed data point are for different slots. -/
theorem WellFormed.pairwise_slices (wellFormed : point.WellFormed) :
    point.slices.Pairwise fun left right => left.sameSlot right = false := by
  have totalApart (slice : Slice) (bucket : slice.bucket?.isSome) :
      (Slice.total point.count (point.sum.getD .zero)).sameSlot slice = false := by
    cases slice <;> first | rfl | cases bucket
  rw [slices, List.pairwise_cons]
  cases someBuckets : point.counts.isEmpty with
  | true =>
      exact ⟨fun slice member => absurd member List.not_mem_nil, .nil⟩
  | false =>
      rw [if_neg Bool.false_ne_true, List.forall_mem_append, List.pairwise_append,
        List.pairwise_map]
      refine ⟨⟨?_, ?_⟩, ?_, List.pairwise_singleton _ _, ?_⟩
      · intro slice member
        obtain ⟨bucket, -, rfl⟩ := List.mem_map.mp member
        exact totalApart _ rfl
      · intro slice member
        rw [List.mem_singleton.mp member]
        exact totalApart _ rfl
      · exact (wellFormed.ordered_runningTotals someBuckets).imp And.right
      · intro slice member last lastMember
        obtain ⟨bucket, bucketMember, rfl⟩ := List.mem_map.mp member
        rw [List.mem_singleton.mp lastMember]
        exact Binary64.sameNumber_infinity
          (wellFormed.finite_runningTotals bucket bucketMember)

/-- A data point that sliced points can state has a sum, the counts of its buckets sum up
to its count, and that is small. -/
theorem of_isRestorable (restorable : point.isRestorable = true) :
    (∃ sum, point.sum = some sum) ∧
      (point.counts.isEmpty = false -> Buckets.sum point.counts = point.count.toNat) ∧
      point.count.toNat ≤ 2 ^ 53 := by
  simp only [isRestorable, Bool.and_eq_true, Bool.or_eq_true, decide_eq_true_eq]
    at restorable
  obtain ⟨⟨hasSum, sums⟩, small⟩ := restorable
  refine ⟨Option.isSome_iff_exists.mp hasSum, ?_, small⟩
  intro someBuckets
  rcases sums with noBuckets | sumsUp
  · exact absurd (someBuckets.symm.trans noBuckets) Bool.false_ne_true
  · exact sumsUp

/-- A well-formed data point that sliced points can state is read again as it was, but for
its start. -/
theorem WellFormed.restated_eq
    (wellFormed : point.WellFormed)
    (restorable : point.isRestorable = true) :
    point.restated = { point with start := 0 } := by
  obtain ⟨⟨sum, someSum⟩, sumsUp, small⟩ := of_isRestorable restorable
  have counts :
      (if point.counts.isEmpty then []
        else Buckets.perBucket (point.restatedTotals ++ [point.count])) = point.counts := by
    cases someBuckets : point.counts.isEmpty with
    | true => exact (List.isEmpty_iff.mp someBuckets).symm
    | false =>
        have totals : point.restatedTotals =
            Buckets.cumulative (point.counts.take point.bounds.length) := by
          rw [restatedTotals]
          refine (List.map_congr_left fun total member => ?_).trans (List.map_id _)
          exact restatedCount_of_le <|
            Nat.le_trans (toNat_le_of_mem_totals (sumsUp someBuckets) member) small
        rw [if_neg Bool.false_ne_true, totals,
          Buckets.perBucket_cumulative_take (wellFormed.length_counts someBuckets)
            (sumsUp someBuckets)]
  rw [restated, restatedCount_of_le small, counts, someSum, Option.getD_some]

end HistogramPoint

/-- A data point of a summary that sliced points can state is read again as it was, but for
its start. -/
theorem SummaryPoint.restated_eq
    {point : SummaryPoint}
    (restorable : point.isRestorable = true) :
    point.restated = { point with start := 0 } := by
  rw [restated, restatedCount_of_le (of_decide_eq_true restorable)]

/-- The slices of a data point whose quantiles are in order are for different slots. -/
theorem SummaryPoint.pairwise_slices
    {point : SummaryPoint}
    (ordered : OrderedPlaces (point.quantiles.map Quantile.quantile)) :
    point.slices.Pairwise fun left right => left.sameSlot right = false := by
  rw [slices, List.pairwise_cons, List.pairwise_map]
  constructor
  · intro slice member
    obtain ⟨quantile, -, rfl⟩ := List.mem_map.mp member
    rfl
  · exact (List.pairwise_map.mp ordered).imp And.right

namespace Grouping

/-- Slices of one series. -/
def partsOf (preferSummary : Bool) (series : Series) (slices : List Slice) :
    List SeriesSlice :=
  slices.map fun slice => ⟨preferSummary, series, slice⟩

/-- The assembly of slices for different slots of one series lists them. -/
theorem assemble_partsOf
    {slices : List Slice}
    (preferSummary : Bool)
    (series : Series)
    (different : slices.Pairwise fun left right => left.sameSlot right = false) :
    assemble (partsOf preferSummary series slices) = {
      count := (slices.filterMap Slice.total?).getLast?.map Prod.fst
      sum := (slices.filterMap Slice.total?).getLast?.map Prod.snd
      buckets := slices.filterMap Slice.bucket?
      quantiles := slices.filterMap Slice.quantile? } := by
  have differentParts : DifferentSlots (partsOf preferSummary series slices) := by
    rw [DifferentSlots, partsOf, List.pairwise_map]
    exact different
  rw [assemble_eq differentParts]
  simp only [partsOf, List.filterMap_map, Function.comp_def]

/-- What is read again of slices for different slots is for different slots. -/
theorem pairwise_restated
    {slices : List Slice}
    (different : slices.Pairwise fun left right => left.sameSlot right = false) :
    (slices.map Slice.restated).Pairwise fun left right => left.sameSlot right = false := by
  rw [List.pairwise_map]
  apply different.imp
  intro left right apart
  rw [Slice.sameSlot_restated]
  exact apart

/-- What is read again of the slices of a data point of a histogram lists its count, its
sum and its running totals. -/
theorem assemble_histogram_slices
    {point : HistogramPoint}
    (preferSummary : Bool)
    (series : Series)
    (wellFormed : point.WellFormed) :
    assemble (partsOf preferSummary series (point.slices.map Slice.restated)) = {
      count := some (restatedCount point.count)
      sum := some (point.sum.getD .zero)
      buckets :=
        if point.counts.isEmpty then []
        else point.restatedBuckets ++ [(.infinity, restatedCount point.count)]
      quantiles := [] } := by
  rw [assemble_partsOf preferSummary series (pairwise_restated wellFormed.pairwise_slices),
    HistogramPoint.slices, HistogramPoint.restatedBuckets, HistogramPoint.restatedTotals,
    List.zip_map_right]
  cases point.counts.isEmpty with
  | true => rfl
  | false =>
      simp [List.filterMap_cons, Function.comp_def, Slice.restated, Slice.total?,
        Slice.bucket?, Slice.quantile?, HistogramPoint.runningTotals, Prod.map]

/-- What is read again of the slices of a data point of a summary lists its count, its sum
and its quantiles. -/
theorem assemble_summary_slices
    {point : SummaryPoint}
    (preferSummary : Bool)
    (series : Series)
    (ordered : OrderedPlaces (point.quantiles.map Quantile.quantile)) :
    assemble (partsOf preferSummary series (point.slices.map Slice.restated)) = {
      count := some (restatedCount point.count)
      sum := some point.sum
      buckets := []
      quantiles :=
        point.quantiles.map fun quantile => (quantile.quantile, quantile.value) } := by
  rw [assemble_partsOf preferSummary series
    (pairwise_restated (SummaryPoint.pairwise_slices ordered)), SummaryPoint.slices]
  simp [List.filterMap_cons, Function.comp_def, Slice.restated, Slice.total?,
    Slice.bucket?, Slice.quantile?]

/-- Finite buckets in order, closed by an infinite one, are the finite ones. -/
theorem finiteBuckets_closed
    {buckets : List (Binary64 × UInt64)}
    {count : UInt64}
    {assembly : Assembly}
    (finite : ∀ bucket ∈ buckets, bucket.1.isFinite = true)
    (ordered : OrderedPlaces (buckets.map Prod.fst))
    (closed : assembly.buckets = buckets ++ [(.infinity, count)]) :
    assembly.finiteBuckets = buckets := by
  have orderedBuckets := List.pairwise_map.mp ordered
  have distinct : ((buckets ++ [(Binary64.infinity, count)]).map Prod.fst).Nodup :=
    @nodup_closed_places _ (some count) finite
      (nodup_finite_places finite (orderedBuckets.imp And.right))
  rw [Assembly.finiteBuckets_of_perm (.of_eq closed) distinct finite
    (List.forall_mem_singleton.mpr rfl),
    Assembly.inOrder_of_pairwise (orderedBuckets.imp And.left)]

/-- The last of the buckets has an infinite bound, so there is one. -/
theorem isNone_infiniteBucket?
    {assembly : Assembly}
    {earlier : List (Binary64 × UInt64)}
    {count : UInt64}
    (buckets : assembly.buckets = earlier ++ [(.infinity, count)]) :
    assembly.infiniteBucket?.isNone = false := by
  have found :
      (assembly.buckets.find? fun bucket => bucket.1 = Binary64.infinity).isSome := by
    rw [List.find?_isSome, buckets]
    exact ⟨(.infinity, count), List.mem_append_right _ List.mem_cons_self,
      decide_eq_true rfl⟩
  rw [Assembly.infiniteBucket?, Option.isNone_map, <- Option.not_isSome, found, Bool.not_true]

/-- Finite buckets in order, closed by the count, make a data point with all of them. -/
theorem toHistogramPoint_closed
    {buckets : List (Binary64 × UInt64)}
    {count : UInt64}
    {assembly : Assembly}
    (series : Series)
    (finite : ∀ bucket ∈ buckets, bucket.1.isFinite = true)
    (ordered : OrderedPlaces (buckets.map Prod.fst))
    (counted : assembly.count = some count)
    (closed : assembly.buckets = buckets ++ [(.infinity, count)]) :
    assembly.toHistogramPoint series = {
      attributes := Attribute.ofTags series.attributes
      time := series.time
      count
      sum := assembly.sum
      counts := Buckets.perBucket (buckets.map Prod.snd ++ [count])
      bounds := buckets.map Prod.fst } := by
  have countOrLast : assembly.countOrLast = count := by
    rw [Assembly.countOrLast, counted, Option.some_or, Option.some_or, Option.getD_some]
  rw [Assembly.toHistogramPoint, countOrLast, finiteBuckets_closed finite ordered closed,
    isNone_infiniteBucket? closed]
  simp only [Bool.and_false, Bool.false_eq_true, if_false]

/-- What is read again of the slices of a data point of a histogram is assembled as what is
read again of the data point. -/
theorem toHistogramPoint_assemble_slices
    {point : HistogramPoint}
    (preferSummary : Bool)
    (series : Series)
    (wellFormed : point.WellFormed) :
    (assemble (partsOf preferSummary series (point.slices.map Slice.restated))).toHistogramPoint
        series =
      { point.restated with
        attributes := Attribute.ofTags series.attributes
        time := series.time } := by
  have assembled := assemble_histogram_slices preferSummary series wellFormed
  cases someBuckets : point.counts.isEmpty with
  | true =>
      have noCounts : point.counts = [] := List.isEmpty_iff.mp someBuckets
      have noBounds : point.bounds = [] := by
        rcases wellFormed.layout with ⟨-, noBounds⟩ | length
        · exact noBounds
        · rw [noCounts] at length
          cases length
      rw [assembled, someBuckets, HistogramPoint.restated, noCounts, noBounds]
      rfl
  | false =>
      rw [someBuckets, if_neg Bool.false_ne_true] at assembled
      obtain ⟨bounds, totals⟩ := wellFormed.restatedBuckets_eq someBuckets
      have finite : ∀ bucket ∈ point.restatedBuckets, bucket.1.isFinite = true :=
        fun bucket member => wellFormed.finite bucket.1 (List.of_mem_zip member).1
      rw [toHistogramPoint_closed series finite (bounds ▸ wellFormed.bounds)
        (congrArg Assembly.count assembled) (congrArg Assembly.buckets assembled), bounds,
        totals, assembled, HistogramPoint.restated, someBuckets, if_neg Bool.false_ne_true]

/-- What is read again of the slices of a data point of a summary whose quantiles are in
order is assembled as what is read again of the data point. -/
theorem toSummaryPoint_assemble_slices
    {point : SummaryPoint}
    (preferSummary : Bool)
    (series : Series)
    (ordered : OrderedPlaces (point.quantiles.map Quantile.quantile)) :
    (assemble (partsOf preferSummary series (point.slices.map Slice.restated))).toSummaryPoint
        series =
      { point.restated with
        attributes := Attribute.ofTags series.attributes
        time := series.time } := by
  have ascending :
      (point.quantiles.map fun quantile => (quantile.quantile, quantile.value)).Pairwise
        fun first second => first.1.totalLE second.1 := by
    rw [List.pairwise_map]
    exact (List.pairwise_map.mp ordered).imp And.left
  rw [assemble_summary_slices preferSummary series ordered, Assembly.toSummaryPoint,
    Assembly.inOrder_of_pairwise ascending, List.map_map]
  simp [Function.comp_def, SummaryPoint.restated]

/-- The assembly of slices that can be read has different places. -/
theorem placed_assemble
    {metric : String}
    {parts : List SeriesSlice}
    (readable : ∀ part ∈ parts, part.slice.IsReadable metric) :
    (assemble parts).Placed metric := by
  induction parts using List.reverseRecOn with
  | nil => exact ⟨.nil, .nil, fun _ member => absurd member List.not_mem_nil⟩
  | append_singleton parts part inductionHypothesis =>
      have ⟨partsReadable, partReadable⟩ := List.forall_mem_append.mp readable
      rw [assemble_append_singleton]
      exact (inductionHypothesis partsReadable).add
        (partReadable part List.mem_cons_self)

end Grouping
end LineMetrics
