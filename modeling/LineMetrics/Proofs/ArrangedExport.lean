import LineMetrics.Proofs.ExpressibleMetrics
import LineMetrics.Proofs.SecondExport
import LineMetrics.Proofs.StableArrangement
import LineMetrics.Proofs.SummaryShape

/-!
# The export of arranged trees

An export writes running totals over the buckets of a data point, and of parts with one key
keeps the last, so it depends on the order of buckets and quantiles. But in a gathered tree
these are already in ascending order, and to arrange the tree only moves data points,
metrics, scopes and resources. So the arranged tree is written as the same points, in another
order, and as many metrics are passed over.
-/

namespace LineMetrics

/-! ## Rearranged data points -/

namespace ConvertsEach

variable {α : Type} {schema : Schema} {metric : String} {ofPoints : List α -> MetricData}
  {check : Except Error Unit} {require : α -> Except Error Unit} {size : α -> Nat}
  {convert : Placement -> α -> Except Error (List Point)}

/-- Rearranged data points become rearranged points. -/
theorem exists_points_of_perm
    {placement : Placement}
    {points others : List α}
    {result : List Point}
    (converts : ConvertsEach schema metric ofPoints check require size convert)
    (perm : points.Perm others)
    (converted :
      (Metric.mk metric (some (ofPoints points))).points schema placement = .ok result) :
    ∃ otherResult,
      (Metric.mk metric (some (ofPoints others))).points schema placement = .ok otherResult ∧
        result.Perm otherResult := by
  obtain ⟨checked, blocks, each, rfl⟩ := converts.points_eq_ok_iff.mp converted
  obtain ⟨otherBlocks, othersEach, blocksPerm⟩ :=
    exists_mapM_of_perm perm (mapM_eq_ok_iff.mpr each)
  exact ⟨otherBlocks.flatten,
    converts.points_eq_ok_iff.mpr ⟨checked, otherBlocks, mapM_eq_ok_iff.mp othersEach, rfl⟩,
    blocksPerm.flatten⟩

end ConvertsEach

namespace MetricData

theorem SameUpToOrder.symm {left right : MetricData} (same : left.SameUpToOrder right) :
    right.SameUpToOrder left := by
  cases left with
  | gauge points =>
      cases right with
      | gauge others => exact List.Perm.symm same
      | _ => cases same
  | sum points temporality monotonic =>
      cases right with
      | sum others otherTemporality otherMonotonic =>
          exact ⟨same.1.symm, same.2.1.symm, same.2.2.symm⟩
      | _ => cases same
  | histogram points temporality =>
      cases right with
      | histogram others otherTemporality => exact ⟨same.1.symm, same.2.symm⟩
      | _ => cases same
  | exponentialHistogram =>
      cases right with
      | exponentialHistogram => exact same
      | _ => cases same
  | summary points =>
      cases right with
      | summary others => exact List.Perm.symm same
      | _ => cases same

/-- Data that are the same up to order become the same points, up to order. -/
theorem SameUpToOrder.exists_points
    {schema : Schema}
    {metric : String}
    {placement : Placement}
    {left right : MetricData}
    {result : List Point}
    (same : left.SameUpToOrder right)
    (converted : (Metric.mk metric (some left)).points schema placement = .ok result) :
    ∃ otherResult,
      (Metric.mk metric (some right)).points schema placement = .ok otherResult ∧
        result.Perm otherResult := by
  cases left with
  | gauge points =>
      cases right with
      | gauge others =>
          obtain ⟨convert, converts⟩ := exists_convertsEach_gauge schema metric
          exact converts.exists_points_of_perm same converted
      | _ => cases same
  | sum points temporality monotonic =>
      cases right with
      | sum others otherTemporality otherMonotonic =>
          obtain ⟨perm, rfl, rfl⟩ := same
          obtain ⟨convert, converts⟩ :=
            exists_convertsEach_sum schema metric temporality monotonic
          exact converts.exists_points_of_perm perm converted
      | _ => cases same
  | histogram points temporality =>
      cases right with
      | histogram others otherTemporality =>
          obtain ⟨perm, rfl⟩ := same
          exact (convertsEach_histogram schema metric temporality).exists_points_of_perm perm
            converted
      | _ => cases same
  | exponentialHistogram =>
      cases right with
      | exponentialHistogram => exact ⟨result, converted, .refl _⟩
      | _ => cases same
  | summary points =>
      cases right with
      | summary others =>
          exact (convertsEach_summary schema metric).exists_points_of_perm same converted
      | _ => cases same

end MetricData

/-- A metric with the data of another one, up to order, becomes the same points up to order,
or none of the two can be turned into points. -/
theorem Metric.SameUpToOrder.points
    {left right : Metric}
    (same : left.SameUpToOrder right)
    (schema : Schema)
    (placement : Placement) :
    Option.Rel List.Perm (left.points schema placement).toOption
      (right.points schema placement).toOption := by
  obtain ⟨name, data⟩ := left
  obtain ⟨otherName, otherData⟩ := right
  obtain ⟨sameName, sameData⟩ := same
  cases sameName
  cases sameData with
  | none => exact .none
  | some sameData =>
      cases converted : (Metric.mk name (some _)).points schema placement with
      | ok points =>
          obtain ⟨others, othersConverted, perm⟩ := sameData.exists_points converted
          rw [othersConverted]
          exact .some perm
      | error error =>
          cases otherConverted : (Metric.mk name (some _)).points schema placement with
          | ok others =>
              obtain ⟨points, success, -⟩ := sameData.symm.exists_points otherConverted
              rw [success] at converted
              cases converted
          | error otherError => exact .none

/-! ## Ascending places -/

/-- The places that split up the observations ascend. -/
def DistributionPoint.Ascends (point : DistributionPoint) : Prop :=
  point.places.Pairwise fun left right => left.totalLE right = true

/-- The places of each data point ascend. -/
def MetricData.Ascends (data : MetricData) : Prop :=
  ∀ point ∈ data.distributionPoints, point.Ascends

namespace Arrangement

/-- Ascending buckets are in order. -/
theorem bucketsInOrder_of_ascends
    {point : HistogramPoint}
    (ascends : (DistributionPoint.histogram point).Ascends) :
    bucketsInOrder point = point := by
  by_cases hasBuckets : point.HasBuckets
  · obtain ⟨bounds, counts⟩ := hasBuckets.eq_bucketPairs
    rw [hasBuckets.bucketsInOrder_eq, hasBuckets.sortOn_bucketPairs ascends, <- bounds,
      <- counts]
  · exact if_neg hasBuckets

/-- Ascending quantiles are in order. -/
theorem quantilesInOrder_of_ascends
    {point : SummaryPoint}
    (ascends : (DistributionPoint.summary point).Ascends) :
    quantilesInOrder point = point := by
  rw [quantilesInOrder, Sorting.sortOn_of_pairwise (List.pairwise_map.mp ascends)]

/-- To arrange data points that are in order themselves is to rearrange them. -/
theorem perm_map_pointsInOrder
    {α : Type}
    {points : List α}
    {arrange : α -> α}
    (time : α -> UInt64)
    (attributes : α -> List Attribute)
    (inOrder : ∀ point ∈ points, arrange point = point) :
    points.Perm ((pointsInOrder time attributes points).map arrange) := by
  have sorted := (Sorting.sortOn_perm (pairLE (fun left right => left ≤ right) textLE)
    (fun point => (time point, attributesKey (attributes point))) points).map arrange
  rw [List.map_congr_left inOrder, List.map_id'] at sorted
  exact sorted.symm

/-- To arrange data with ascending places is to rearrange their data points. -/
theorem sameUpToOrder_arrangeData {data : MetricData} (ascends : data.Ascends) :
    data.SameUpToOrder (arrangeData data) := by
  cases data with
  | gauge points => exact (Sorting.sortOn_perm _ _ points).symm
  | sum points temporality monotonic =>
      exact ⟨(Sorting.sortOn_perm _ _ points).symm, rfl, rfl⟩
  | exponentialHistogram => trivial
  | histogram points temporality =>
      refine ⟨perm_map_pointsInOrder _ _ fun point member => ?_, rfl⟩
      exact bucketsInOrder_of_ascends (ascends _ (List.mem_map_of_mem member))
  | summary points =>
      refine perm_map_pointsInOrder _ _ fun point member => ?_
      exact quantilesInOrder_of_ascends (ascends _ (List.mem_map_of_mem member))

/-- To arrange a metric with ascending places is to rearrange its data points. -/
theorem sameUpToOrder_arrangeMetric
    {metric : Metric}
    (ascends : ∀ data ∈ metric.data, data.Ascends) :
    metric.SameUpToOrder (arrangeMetric metric) := by
  obtain ⟨name, data⟩ := metric
  refine ⟨rfl, ?_⟩
  cases data with
  | none => exact .none
  | some data => exact .some (sameUpToOrder_arrangeData (ascends data rfl))

/-- The metrics of an arranged tree are those of the tree, each arranged, in another
order. -/
theorem placedMetrics_arrange (tree : MetricTree) :
    (arrange tree).placedMetrics.Perm
      (tree.placedMetrics.map (Prod.map id arrangeMetric)) := by
  simp only [MetricTree.placedMetrics, arrange, List.flatMap_map, List.map_flatMap]
  refine (Sorting.sortOn_perm _ _ tree).flatMap fun resource _ => ?_
  simp only [arrangeResource, List.flatMap_map]
  refine (Sorting.sortOn_perm _ _ resource.scopes).flatMap fun scope _ => ?_
  simp only [arrangeScope, List.map_map]
  exact (Sorting.sortOn_perm _ _ scope.metrics).map _

end Arrangement

namespace MetricTree

/-- If each placed metric becomes the same points as another one, up to order, or neither can
be turned into points, then so it is with all of them. -/
theorem pointsOf_map
    {schema : Schema}
    {placed : List (Placement × Metric)}
    (change : Placement × Metric -> Placement × Metric)
    (alike : ∀ entry ∈ placed,
      Option.Rel List.Perm (entry.2.points schema entry.1).toOption
        ((change entry).2.points schema (change entry).1).toOption) :
    (pointsOf schema (placed.map change)).Perm (pointsOf schema placed) ∧
      unwritableOf schema (placed.map change) = unwritableOf schema placed := by
  constructor
  · rw [pointsOf, pointsOf, List.flatMap_map]
    refine List.Perm.flatMap_left _ fun entry member => ?_
    have here := alike entry member
    dsimp only
    generalize (entry.2.points schema entry.1).toOption = before at here
    generalize ((change entry).2.points schema (change entry).1).toOption = after at here
    cases here with
    | none => exact .refl _
    | some perm => exact perm.symm
  · rw [unwritableOf, unwritableOf, List.countP_map]
    refine List.countP_congr fun entry member => ?_
    have here := alike entry member
    rw [Function.comp_apply]
    dsimp only
    rw [<- isSome_toOption, <- isSome_toOption]
    generalize (entry.2.points schema entry.1).toOption = before at here
    generalize ((change entry).2.points schema (change entry).1).toOption = after at here
    cases here with
    | none => exact Iff.rfl
    | some perm => exact Iff.rfl

/-- A tree with ascending places has the same points when it is arranged, up to order, and
as many metrics that cannot be turned into points. -/
theorem points_arrange
    {tree : MetricTree}
    (ascends : ∀ placed ∈ tree.placedMetrics, ∀ data ∈ placed.2.data, data.Ascends)
    (schema : Schema) :
    (points schema (arrange tree)).Perm (points schema tree) ∧
      unwritable schema (arrange tree) = unwritable schema tree := by
  have moved := Arrangement.placedMetrics_arrange tree
  obtain ⟨perm, same⟩ :=
    pointsOf_map (Prod.map id Arrangement.arrangeMetric) fun placed member =>
      Metric.SameUpToOrder.points
        (Arrangement.sameUpToOrder_arrangeMetric (ascends placed member)) schema placed.1
  exact ⟨(moved.flatMap_right _).trans perm, (moved.countP_eq _).trans same⟩

end MetricTree

/-! ## Gathered trees -/

/-- The data point of a distribution that comes as a whole. -/
def Reading.distributionPoint? : Reading -> Option DistributionPoint
  | .histogram point => some (.histogram point)
  | .summary point => some (.summary point)
  | _ => none

/-- The places of what a whole point says ascend. -/
theorem Whole.Reads.ascends
    {time : UInt64}
    {reading : Reading}
    {point : DistributionPoint}
    (reads : Reads time reading)
    (found : reading.distributionPoint? = some point) :
    point.Ascends := by
  cases reads with
  | gauge => cases found
  | sum => cases found
  | histogram tags count sum buckets attributes finite ordered =>
      cases found
      exact ordered.imp And.left
  | summary tags count sum quantiles attributes finite ascending =>
      cases found
      have places : ((SummaryPoint.ofQuantiles (Attribute.ofTags tags) time count sum
          quantiles).quantiles.map Quantile.quantile) = quantiles.map Prod.fst := List.map_map
      rw [DistributionPoint.Ascends, DistributionPoint.places, places]
      exact ascending

namespace Assembly

/-- The bounds of an assembled histogram ascend. -/
theorem ascends_toHistogramPoint (series : Series) (assembly : Assembly) :
    (DistributionPoint.histogram (assembly.toHistogramPoint series)).Ascends := by
  change (assembly.finiteBuckets.map Prod.fst).Pairwise _
  exact List.pairwise_map.mpr ((pairwise_inOrder assembly.buckets).filter _)

/-- The quantiles of an assembled summary ascend. -/
theorem ascends_toSummaryPoint (series : Series) (assembly : Assembly) :
    (DistributionPoint.summary (assembly.toSummaryPoint series)).Ascends := by
  have places : (assembly.toSummaryPoint series).quantiles.map Quantile.quantile =
      (inOrder assembly.quantiles).map Prod.fst := List.map_map
  rw [DistributionPoint.Ascends, DistributionPoint.places, places]
  exact List.pairwise_map.mpr (pairwise_inOrder assembly.quantiles)

end Assembly

namespace Grouping

/-- The places of assembled data ascend. -/
theorem ascends_assembledData (parts : List SeriesSlice) : (assembledData parts).Ascends := by
  intro point member
  rw [assembledData] at member
  split at member
  · obtain ⟨assembled, assembledMember, rfl⟩ := List.mem_map.mp member
    obtain ⟨group, -, rfl⟩ := List.mem_map.mp assembledMember
    exact Assembly.ascends_toSummaryPoint group.1 (assemble group.2)
  · obtain ⟨assembled, assembledMember, rfl⟩ := List.mem_map.mp member
    obtain ⟨group, -, rfl⟩ := List.mem_map.mp assembledMember
    exact Assembly.ascends_toHistogramPoint group.1 (assemble group.2)

/-- The places of the data of readings ascend, if those of whole data points do. -/
theorem ascends_dataOf
    {readings : List Reading}
    (kind : MetricKind)
    (each : ∀ reading ∈ readings, ∀ point ∈ reading.distributionPoint?, point.Ascends) :
    (dataOf kind readings).Ascends := by
  intro point member
  cases kind with
  | gauge => cases member
  | sum temporality => cases member
  | assembled => exact ascends_assembledData _ point member
  | whole distribution =>
      cases distribution with
      | histogram =>
          obtain ⟨histogram, said, rfl⟩ := List.mem_map.mp member
          obtain ⟨reading, readingMember, found⟩ := List.mem_filterMap.mp said
          cases reading <;> cases found
          exact each _ readingMember _ rfl
      | summary =>
          obtain ⟨summary, said, rfl⟩ := List.mem_map.mp member
          obtain ⟨reading, readingMember, found⟩ := List.mem_filterMap.mp said
          cases reading <;> cases found
          exact each _ readingMember _ rfl

/-- The places of what points say ascend. -/
theorem ascends_of_mem_observations
    {schema : Schema}
    {arrivals : List Arrival}
    {observation : Observation}
    {point : DistributionPoint}
    (member : observation ∈ observations schema arrivals)
    (found : observation.reading.distributionPoint? = some point) :
    point.Ascends := by
  cases schema with
  | whole =>
      obtain ⟨arrival, -, result, read, inResult⟩ := exists_of_mem_observations member
      exact (Whole.admissible_of_mem_observations read inResult).reading.ascends found
  | sliced =>
      obtain ⟨arrival, -, read⟩ := Sliced.exists_of_mem_observations member
      have notWhole (distribution : Distribution) :=
        Sliced.kind_of_observations distribution read
      cases reading : observation.reading with
      | histogram histogram => exact absurd (congrArg Reading.kind reading) (notWhole .histogram)
      | summary summary => exact absurd (congrArg Reading.kind reading) (notWhole .summary)
      | _ =>
          rw [reading] at found
          cases found

/-- The places in a gathered tree ascend. -/
theorem ascends_tree_observations
    {schema : Schema}
    {arrivals : List Arrival}
    {placed : Placement × Metric}
    {data : MetricData}
    (member : placed ∈ (tree (observations schema arrivals)).placedMetrics)
    (found : data ∈ placed.2.data) :
    data.Ascends := by
  rw [placedMetrics_tree] at member
  obtain ⟨group, groupMember, rfl⟩ := List.mem_map.mp member
  obtain ⟨kind, -, isData⟩ :=
    exists_kind_of_mem_metricGroups (consistent_accepted _) groupMember
  cases isData.symm.trans found
  refine ascends_dataOf kind fun reading readingMember point isPoint => ?_
  obtain ⟨observation, inGroup, rfl⟩ := List.mem_map.mp readingMember
  exact ascends_of_mem_observations
    (List.mem_filter.mp (mem_of_mem_metricGroups groupMember inGroup)).1 isPoint

end Grouping

namespace Export

/-- Whatever points a batch receives, its tree and the arranged tree are written alike under
either schema: with the same counts, and as the same points in some order. -/
theorem writeTree_arrange_finish (gathered written : Schema) (arrivals : List Arrival) :
    let tree := ((Batch.empty gathered).run arrivals).1.finish
    ∃ points arranged counts,
      writeTree written PointWriter.collecting tree [] = (points, .ok counts) ∧
        writeTree written PointWriter.collecting (arrange tree) [] = (arranged, .ok counts) ∧
          arranged.Perm points := by
  intro tree
  have ascends : ∀ placed ∈ tree.placedMetrics, ∀ data ∈ placed.2.data, data.Ascends := by
    intro placed member data found
    have gathers : tree = Grouping.tree (Grouping.observations gathered arrivals) :=
      Batch.finish_run gathered arrivals
    rw [gathers] at member
    exact Grouping.ascends_tree_observations member found
  obtain ⟨perm, same⟩ := MetricTree.points_arrange ascends written
  refine ⟨_, _, _, writeTree_collecting written tree, ?_,
    (List.reverse_perm _).trans (perm.trans (List.reverse_perm _).symm)⟩
  rw [writeTree_collecting, perm.length_eq, same]

end Export
end LineMetrics
