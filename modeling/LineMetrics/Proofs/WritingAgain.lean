import LineMetrics.Proofs.ExportWalk
import LineMetrics.Proofs.HistogramShape
import LineMetrics.Proofs.SlicedRoundTrip

/-!
# Writing again what was read again

A tree that is written as sliced points, read again and written again gives the same
points as far as its histograms allow it. The running totals of a histogram are read
again as running totals if the count, which closes them, is not below them. Otherwise
they are taken for counts one by one and accumulated once more.
-/

namespace LineMetrics

namespace Buckets

/-- The differences in front of the last one do not depend on the last total. -/
theorem take_differencesFrom (previous : UInt64) (totals : List UInt64) (last : UInt64) :
    (differencesFrom previous (totals ++ [last])).take totals.length =
      differencesFrom previous totals := by
  induction totals generalizing previous with
  | nil => rfl
  | cons total totals inductionHypothesis =>
      rw [List.cons_append, differencesFrom, differencesFrom, List.length_cons,
        List.take_succ_cons, inductionHypothesis]

/-- Totals closed by a count are found again in their buckets, unless they exceed it. Then
they are accumulated once more. -/
theorem cumulative_take_perBucket
    {totals : List UInt64}
    (count : UInt64)
    (ordered : totals.Pairwise fun earlier later => earlier ≤ later) :
    cumulative ((perBucket (totals ++ [count])).take totals.length) =
      if totals.all fun total => total ≤ count then totals else cumulative totals := by
  have closed :
      (totals ++ [count]).Pairwise (fun earlier later => earlier ≤ later) ↔
        (totals.all fun total => total ≤ count) = true := by
    simp [List.pairwise_append, ordered]
  split
  · rename_i within
    have fromZero : (0 :: totals).Pairwise fun earlier later => earlier ≤ later :=
      .cons (fun _ _ => UInt64.zero_le) ordered
    rw [perBucket, if_pos (isNondecreasing_iff.mpr (closed.mpr within)),
      take_differencesFrom, cumulative, cumulativeFrom_differencesFrom fromZero]
  · rename_i exceeded
    rw [perBucket_of_decreasing (fun inOrder => exceeded (closed.mp inOrder)),
      List.take_left]

end Buckets
namespace HistogramPoint

variable {point : HistogramPoint}

/-- Running totals do not decrease as they are read again. -/
theorem pairwise_restatedTotals (point : HistogramPoint) :
    point.restatedTotals.Pairwise fun earlier later => earlier ≤ later := by
  have fromZero := Buckets.pairwise_cumulativeFrom 0 (point.counts.take point.bounds.length)
  rw [restatedTotals, List.pairwise_map]
  exact (List.pairwise_cons.mp fromZero).2.imp restatedCount_mono

/-- There are buckets again if there were any. -/
@[simp] theorem isEmpty_counts_restated (point : HistogramPoint) :
    point.restated.counts.isEmpty = point.counts.isEmpty := by
  cases someBuckets : point.counts.isEmpty with
  | true => rw [restated, someBuckets, if_pos rfl, List.isEmpty_nil]
  | false =>
      have length : point.restated.counts.length ≠ 0 := by
        rw [restated, someBuckets, if_neg Bool.false_ne_true, Buckets.length_perBucket,
          List.length_append, List.length_singleton]
        omega
      rw [List.isEmpty_eq_false_iff, ne_eq, <- List.length_eq_zero_iff]
      exact length

/-- What is read again of a well-formed data point is well-formed. -/
theorem WellFormed.restated (wellFormed : point.WellFormed) : point.restated.WellFormed := by
  refine ⟨wellFormed.bounds, wellFormed.finite, ?_⟩
  cases someBuckets : point.counts.isEmpty with
  | true =>
      rcases wellFormed.layout with ⟨-, noBounds⟩ | length
      · refine .inl ⟨?_, noBounds⟩
        rw [HistogramPoint.restated, someBuckets, if_pos rfl]
      · rw [List.isEmpty_iff.mp someBuckets] at length
        cases length
  | false =>
      have length := wellFormed.length_restatedTotals someBuckets
      refine .inr ?_
      rw [HistogramPoint.restated, someBuckets, if_neg Bool.false_ne_true,
        Buckets.length_perBucket, List.length_append, List.length_singleton, length]

/-- The running totals of what is read again. -/
theorem WellFormed.totals_restated
    (wellFormed : point.WellFormed)
    (someBuckets : point.counts.isEmpty = false) :
    Buckets.cumulative (point.restated.counts.take point.restated.bounds.length) =
      if point.restatedTotals.all fun total => total ≤ restatedCount point.count then
        point.restatedTotals
      else Buckets.cumulative point.restatedTotals := by
  have accumulated := Buckets.cumulative_take_perBucket (restatedCount point.count)
    (pairwise_restatedTotals point)
  rw [wellFormed.length_restatedTotals someBuckets] at accumulated
  rw [HistogramPoint.restated, someBuckets, if_neg Bool.false_ne_true]
  exact accumulated

/-- The totals of what is read again are written as the totals were exactly if the data
point is stable. -/
theorem WellFormed.writtenTotals_iff
    (wellFormed : point.WellFormed)
    (someBuckets : point.counts.isEmpty = false) :
    (Buckets.cumulative
          (point.restated.counts.take point.restated.bounds.length)).map writtenCount =
        (Buckets.cumulative (point.counts.take point.bounds.length)).map writtenCount ↔
      point.isStable = true := by
  have written : point.restatedTotals.map writtenCount =
      (Buckets.cumulative (point.counts.take point.bounds.length)).map writtenCount := by
    rw [restatedTotals, List.map_map]
    exact List.map_congr_left fun total _ => writtenCount_restatedCount total
  rw [wellFormed.totals_restated someBuckets, <- written, isStable]
  cases point.restatedTotals.all fun total => total ≤ restatedCount point.count with
  | true => simp
  | false => simp

end HistogramPoint

namespace Sliced

variable {placement : Placement} {metric : String}

/-- A slice is written as before once it is read again. -/
@[simp] theorem slicePoint_restated (point : Point) (metric : String) (slice : Slice) :
    slicePoint point metric slice.restated = slicePoint point metric slice := by
  have written (count : UInt64) :
      Binary64.ofNat (restatedCount count).toNat = Binary64.ofNat count.toNat :=
    writtenCount_restatedCount count
  cases slice with
  | bucket bound count =>
      simp only [Slice.restated, slicePoint, bucketPoint, written]
  | quantile place value => rfl
  | total count sum => simp only [Slice.restated, slicePoint, totalPoint, written]

/-- The point of a bucket tells the number that its count is written as. -/
theorem slicePoint_bucket_inj
    {point : Point}
    {bound : Binary64}
    {left right : UInt64} :
    slicePoint point metric (.bucket bound left) =
        slicePoint point metric (.bucket bound right) ↔
      writtenCount left = writtenCount right := by
  constructor
  · intro same
    have found := congrArg
      (fun point => point.fields.find? (metric ++ ReservedName.bucketEnding)) same
    simp only [slicePoint, bucketPoint, Point.withField, Dictionary.find?_insert, if_pos]
      at found
    exact FieldValue.float.inj (Option.some.inj found)
  · intro same
    rw [slicePoint, slicePoint, bucketPoint, bucketPoint]
    exact congrArg (fun number => Point.withField _ _ (.float number)) same

/-- The points of buckets with the same bounds tell the numbers that their counts are
written as. -/
theorem bucketPoints_inj
    {point : Point}
    {bounds : List Binary64}
    {left right : List UInt64}
    (leftLength : left.length = bounds.length)
    (rightLength : right.length = bounds.length) :
    (bounds.zip left).map (fun (bound, count) =>
          slicePoint point metric (.bucket bound count)) =
        (bounds.zip right).map (fun (bound, count) =>
          slicePoint point metric (.bucket bound count)) ↔
      left.map writtenCount = right.map writtenCount := by
  induction bounds generalizing left right with
  | nil =>
      rw [List.length_nil, List.length_eq_zero_iff] at leftLength rightLength
      rw [leftLength, rightLength]
      simp
  | cons bound bounds inductionHypothesis =>
      obtain ⟨first, others, rfl⟩ := List.exists_cons_of_length_eq_add_one leftLength
      obtain ⟨otherFirst, otherOthers, rfl⟩ := List.exists_cons_of_length_eq_add_one rightLength
      rw [List.zip_cons_cons, List.zip_cons_cons, List.map_cons, List.map_cons, List.map_cons,
        List.map_cons, List.cons.injEq, List.cons.injEq, slicePoint_bucket_inj,
        inductionHypothesis (Nat.succ.inj leftLength) (Nat.succ.inj rightLength)]

/-- The points of a data point of a histogram: the total, and the buckets if there are
any. -/
theorem map_slicePoint_slices (base : Point) (metric : String) (point : HistogramPoint) :
    point.slices.map (slicePoint base metric) =
      slicePoint base metric (.total point.count (point.sum.getD .zero)) ::
        if point.counts.isEmpty then []
        else
          (point.bounds.zip
              (Buckets.cumulative (point.counts.take point.bounds.length))).map
                (fun (bound, total) => slicePoint base metric (.bucket bound total)) ++
            [slicePoint base metric (.bucket .infinity point.count)] := by
  rw [HistogramPoint.slices, List.map_cons]
  cases point.counts.isEmpty with
  | true => rfl
  | false =>
      rw [if_neg Bool.false_ne_true, if_neg Bool.false_ne_true, List.map_append, List.map_map]
      rfl

/-- The points of what is read again of a data point of a histogram. Its total and its last
bucket are written as before. -/
theorem map_slicePoint_slices_restated
    (base : Point)
    (metric : String)
    (point : HistogramPoint) :
    point.restated.slices.map (slicePoint base metric) =
      slicePoint base metric (.total point.count (point.sum.getD .zero)) ::
        if point.counts.isEmpty then []
        else
          (point.bounds.zip
              (Buckets.cumulative
                (point.restated.counts.take point.restated.bounds.length))).map
                (fun (bound, total) => slicePoint base metric (.bucket bound total)) ++
            [slicePoint base metric (.bucket .infinity point.count)] := by
  have total := slicePoint_restated base metric (.total point.count (point.sum.getD .zero))
  have last := slicePoint_restated base metric (.bucket .infinity point.count)
  simp only [Slice.restated] at total last
  rw [map_slicePoint_slices, point.isEmpty_counts_restated, <- total, <- last]
  rfl

/-- The points of a data point of a histogram are as many as before once it is read again,
and the same exactly if it is stable. -/
theorem slicePoints_restated_iff
    {point : HistogramPoint}
    (wellFormed : point.WellFormed)
    (base : Point)
    (metric : String) :
    (point.restated.slices.map (slicePoint base metric)).length =
        (point.slices.map (slicePoint base metric)).length ∧
      (point.restated.slices.map (slicePoint base metric) =
          point.slices.map (slicePoint base metric) ↔
        point.isStable = true) := by
  rw [map_slicePoint_slices_restated, map_slicePoint_slices]
  cases someBuckets : point.counts.isEmpty with
  | true =>
      have noTotals : point.restatedTotals = [] := by
        rw [HistogramPoint.restatedTotals, List.isEmpty_iff.mp someBuckets, List.take_nil]
        rfl
      rw [HistogramPoint.isStable, noTotals]
      exact ⟨rfl, iff_of_true rfl rfl⟩
  | false =>
      have before : (Buckets.cumulative (point.counts.take point.bounds.length)).length =
          point.bounds.length := by
        rw [Buckets.length_cumulative, List.length_take,
          wellFormed.length_counts someBuckets]
        omega
      have after : (Buckets.cumulative
          (point.restated.counts.take point.restated.bounds.length)).length =
            point.bounds.length := by
        have counts := wellFormed.restated.length_counts
          (point.isEmpty_counts_restated.trans someBuckets)
        rw [Buckets.length_cumulative, List.length_take, counts]
        exact Nat.min_eq_left (Nat.le_succ _)
      rw [if_neg Bool.false_ne_true, if_neg Bool.false_ne_true, List.cons_eq_cons,
        List.append_left_inj, bucketPoints_inj after before,
        wellFormed.writtenTotals_iff someBuckets]
      refine ⟨?_, and_iff_right rfl⟩
      simp [before, after]

end Sliced

/-- Lists made of lists of the same lengths are the same exactly if those are. -/
theorem flatMap_eq_iff
    {α β : Type}
    {left right : α -> List β}
    {elements : List α}
    (lengths : ∀ element ∈ elements, (left element).length = (right element).length) :
    (elements.flatMap left).length = (elements.flatMap right).length ∧
      (elements.flatMap left = elements.flatMap right ↔
        ∀ element ∈ elements, left element = right element) := by
  induction elements with
  | nil => exact ⟨rfl, iff_of_true rfl (List.forall_mem_nil _)⟩
  | cons element elements inductionHypothesis =>
      obtain ⟨here, behind⟩ := List.forall_mem_cons.mp lengths
      obtain ⟨sameLength, same⟩ := inductionHypothesis behind
      rw [List.flatMap_cons, List.flatMap_cons, List.forall_mem_cons, <- same,
        List.length_append, List.length_append, here, sameLength]
      refine ⟨rfl, fun equal => List.append_inj equal here, fun equal => ?_⟩
      rw [equal.1, equal.2]

namespace MetricData

/-- Histograms are cumulative and well-formed. -/
def WellFormed : MetricData -> Prop
  | .histogram points temporality =>
      temporality = Temporality.cumulative.code ∧ ∀ point ∈ points, point.WellFormed
  | _ => True

end MetricData

namespace Sliced

variable {placement : Placement} {metric : String}

/-- A data point of a summary is written again as it was. -/
theorem map_slicePoint_summary_slices_restated
    (base : Point)
    (metric : String)
    (point : SummaryPoint) :
    point.restated.slices.map (slicePoint base metric) =
      point.slices.map (slicePoint base metric) := by
  have total := slicePoint_restated base metric (.total point.count point.sum)
  simp only [Slice.restated] at total
  rw [SummaryPoint.slices, SummaryPoint.slices, List.map_cons, List.map_cons, <- total]
  rfl

/-- Data that can be turned into points can be turned into as many once they are read
again, and into the same exactly if they are stable. -/
theorem points_restated
    {data : MetricData}
    {points : List Point}
    (wellFormed : data.WellFormed)
    (converted : Sliced.points placement metric data = .ok points) :
    ∃ again,
      Sliced.points placement metric data.restated = .ok again ∧
        again.length = points.length ∧ (again = points ↔ data.isStable = true) := by
  cases data with
  | gauge numbers => exact ⟨points, converted, rfl, iff_of_true rfl rfl⟩
  | sum numbers temporality monotonic =>
      exact ⟨points, converted, rfl, iff_of_true rfl rfl⟩
  | exponentialHistogram => cases converted
  | histogram histograms temporality =>
      obtain ⟨rfl, eachWellFormed⟩ := wellFormed
      have restatedWellFormed : ∀ point ∈ histograms.map HistogramPoint.restated,
          point.WellFormed :=
        List.forall_mem_map.mpr fun point member => (eachWellFormed point member).restated
      rw [points_histograms placement metric eachWellFormed] at converted
      cases converted
      rw [MetricData.restated, points_histograms placement metric restatedWellFormed,
        List.flatMap_map, MetricData.isStable, List.all_eq_true]
      have each (point : HistogramPoint) (member : point ∈ histograms) :=
        slicePoints_restated_iff (eachWellFormed point member)
          (bare placement point.attributes point.time .histogram) metric
      obtain ⟨lengths, same⟩ := flatMap_eq_iff fun point member => (each point member).1
      refine ⟨_, rfl, lengths, same.trans ?_⟩
      exact forall_congr' fun point => forall_congr' fun member => (each point member).2
  | summary summaries =>
      rw [points_summaries] at converted
      cases converted
      refine ⟨_, ?_, rfl, iff_of_true rfl rfl⟩
      rw [MetricData.restated, points_summaries, List.flatMap_map]
      exact congrArg Except.ok <| List.flatMap_congr fun point _ =>
        map_slicePoint_summary_slices_restated
          (bare placement point.attributes point.time .summary) metric point

end Sliced

namespace Grouping

/-- Data of readings that sliced points can hold are well-formed. -/
theorem wellFormed_dataOf
    {metric : String}
    {kind : MetricKind}
    {readings : List Reading}
    (reads : ∀ reading ∈ readings, Sliced.Reads metric reading) :
    (dataOf kind readings).WellFormed := by
  obtain ⟨noHistogram, -, readable⟩ := of_reads reads
  cases kind with
  | gauge => trivial
  | sum temporality => trivial
  | whole distribution =>
      cases distribution with
      | histogram =>
          rw [dataOf, noHistogram]
          exact ⟨rfl, List.forall_mem_nil _⟩
      | summary => trivial
  | assembled =>
      rw [dataOf, assembledData_eq]
      split
      · trivial
      · refine ⟨rfl, List.forall_mem_map.mpr fun group member => ?_⟩
        have placed : (assemble group.2).Placed metric :=
          placed_assemble fun part inGroup =>
            readable part (of_mem_of_mem_groups member inGroup).1
        exact placed.wellFormed group.1

/-- A metric can be turned into points, and into as many once it is read again, and into
the same exactly if it is stable. -/
theorem Rewritable.points_restated
    {observations : List Observation}
    {group : MetricGroup}
    (rewritable : Rewritable observations)
    (member : group ∈ metricGroups observations) :
    ∃ points again,
      group.metric.points .sliced group.placement = .ok points ∧
        group.metric.restated.points .sliced group.placement = .ok again ∧
          again.length = points.length ∧
            (again = points ↔ group.metric.isStable = true) := by
  have ofMetric := ofMetric_of_mem_metricGroups member
  have members := rewritable.metricGroup member
  obtain ⟨points, converted, -⟩ :=
    members.exists_points_metricOf ofMetric (rewritable.separated member)
      (of_mem_metricGroups member).2
  obtain ⟨kind, -, data⟩ := exists_kind_of_mem_metricGroups rewritable.consistent member
  have reads : ∀ reading ∈ group.members.map Observation.reading,
      Sliced.Reads group.name reading :=
    List.forall_mem_map.mpr fun original inGroup =>
      (ofMetric original inGroup).2.2 ▸ (members.admissible original inGroup).reading
  change group.metric.points .sliced group.placement = .ok points at converted
  have named : group.metric.name = group.name := rfl
  rw [Metric.points, data] at converted
  obtain ⟨again, restated, lengths, same⟩ :=
    Sliced.points_restated (wellFormed_dataOf reads) converted
  refine ⟨points, again, ?_, ?_, lengths, ?_⟩
  · rw [Metric.points, data]
    exact converted
  · rw [Metric.points, Metric.restated, data]
    exact restated
  · rw [Metric.isStable, data]
    exact same

end Grouping

namespace MetricTree

/-- Changing the metrics of a tree changes them where they stand. -/
theorem placedMetrics_mapMetrics (change : Metric -> Metric) (tree : MetricTree) :
    placedMetrics (tree.mapMetrics change) =
      (placedMetrics tree).map fun placed => (placed.1, change placed.2) := by
  simp [placedMetrics, mapMetrics, List.flatMap_map, List.map_flatMap, Function.comp_def]

/-- A tree is stable if its metrics are. -/
theorem isStable_iff (tree : MetricTree) :
    tree.isStable = true ↔ ∀ placed ∈ placedMetrics tree, placed.2.isStable = true := by
  simp only [isStable, placedMetrics, List.all_eq_true, List.mem_flatMap, List.mem_map]
  constructor
  · rintro stable placed ⟨resource, resourceMember, scope, scopeMember, metric, member, rfl⟩
    exact stable resource resourceMember scope scopeMember metric member
  · intro stable resource resourceMember scope scopeMember metric member
    exact stable _ ⟨resource, resourceMember, scope, scopeMember, metric, member, rfl⟩

end MetricTree
end LineMetrics
