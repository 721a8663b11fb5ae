import LineMetrics.Proofs.Arranging
import LineMetrics.Proofs.Assembling

/-!
# What the arrangement of a tree is

The arrangement of a tree is described level by level, without the way in which it comes
about: each list is sorted stably, then each of its elements is arranged in itself, and
nothing else changes. As this leaves the keys as they are, it determines the arrangement,
and what has been arranged is an arrangement of itself.
-/

namespace LineMetrics

open Arrangement

/-! ## Arranged trees -/

/-- The elements are sorted stably, and then each of them is arranged in itself, which leaves
them in ascending order. -/
structure ArrangedList
    {α κ : Type}
    [DecidableEq κ]
    (mayPrecede : κ -> κ -> Bool)
    (key : α -> κ)
    (arranged : α -> α -> Prop)
    (before after : List α) : Prop where
  sorted : ∃ sorted,
    Sorting.IsStableSort mayPrecede key before sorted ∧ List.Forall₂ arranged sorted after
  ascending : after.Pairwise fun left right => mayPrecede (key left) (key right)

/-- Each bound has a count of its own, and at most one more count follows. -/
def HistogramPoint.HasBuckets (point : HistogramPoint) : Prop :=
  point.counts.length = point.bounds.length ∨
    point.counts.length = point.bounds.length + 1

instance (point : HistogramPoint) : Decidable point.HasBuckets :=
  inferInstanceAs (Decidable (_ ∨ _))

/-- If each bound has a count of its own, the bounds are sorted together with their counts,
and what follows these counts stays. Nothing else changes. -/
structure HistogramPoint.Arranged (before after : HistogramPoint) : Prop where
  others : after = { before with bounds := after.bounds, counts := after.counts }
  untouched : ¬before.HasBuckets -> after = before
  sorted : before.HasBuckets ->
    Sorting.IsStableSort Binary64.totalLE Prod.fst (bucketPairs before) (bucketPairs after)
  lengths : after.bounds.length = before.bounds.length ∧
    after.counts.length = before.counts.length
  overflow : after.counts.drop after.bounds.length = before.counts.drop before.bounds.length

/-- The quantiles are sorted, and nothing else changes. -/
structure SummaryPoint.Arranged (before after : SummaryPoint) : Prop where
  others : after = { before with quantiles := after.quantiles }
  sorted : Sorting.IsStableSort Binary64.totalLE Quantile.quantile before.quantiles
    after.quantiles

/-- The data points are arranged by their times and the texts of their attributes. -/
def MetricData.Arranged : MetricData -> MetricData -> Prop
  | .gauge before, .gauge after =>
      ArrangedList placeLE (fun point => placeKey (point.time, point.attributes)) Eq before after
  | .sum before temporality monotonic, .sum after otherTemporality otherMonotonic =>
      ArrangedList placeLE (fun point => placeKey (point.time, point.attributes)) Eq before
          after ∧
        otherTemporality = temporality ∧ otherMonotonic = monotonic
  | .histogram before temporality, .histogram after otherTemporality =>
      ArrangedList placeLE (fun point => placeKey (point.time, point.attributes))
          HistogramPoint.Arranged before after ∧
        otherTemporality = temporality
  | .exponentialHistogram, .exponentialHistogram => True
  | .summary before, .summary after =>
      ArrangedList placeLE (fun point => placeKey (point.time, point.attributes))
        SummaryPoint.Arranged before after
  | _, _ => False

/-- The data are arranged under the same name. -/
structure Metric.Arranged (before after : Metric) : Prop where
  name : after.name = before.name
  data : Option.Rel MetricData.Arranged before.data after.data

/-- The metrics of the scope are arranged by their names. -/
structure ScopeMetrics.Arranged (before after : ScopeMetrics) : Prop where
  scope : after.scope = before.scope
  metrics : ArrangedList textLE Metric.name Metric.Arranged before.metrics after.metrics

/-- The scopes of the resource are arranged by their names and versions. -/
structure ResourceMetrics.Arranged (before after : ResourceMetrics) : Prop where
  resource : after.resource = before.resource
  scopes : ArrangedList (pairLE textLE textLE) scopeKey ScopeMetrics.Arranged before.scopes
    after.scopes

/-- The resources of the tree are arranged by the texts of their attributes. -/
def MetricTree.Arranged (before after : MetricTree) : Prop :=
  ArrangedList textLE resourceKey ResourceMetrics.Arranged before after

/-! ## Arranged lists -/

namespace ArrangedList

variable {α κ : Type} [DecidableEq κ] {mayPrecede : κ -> κ -> Bool} {key : α -> κ}
  {arranged : α -> α -> Prop} {before after : List α}

/-- If elements are arranged in one way, and keep their keys, so is the list. -/
theorem iff_eq_map
    {arrange : α -> α}
    (linear : Sorting.IsLinear mayPrecede)
    (sameKey : ∀ element, key (arrange element) = key element)
    (arranged_iff : ∀ element other, arranged element other ↔ other = arrange element) :
    ArrangedList mayPrecede key arranged before after ↔
      after = (Sorting.sortOn mayPrecede key before).map arrange := by
  constructor
  · -- the stable sort is unique, and so is what each of its elements is arranged to
    rintro ⟨⟨sorted, isSort, each⟩, -⟩
    cases (Sorting.isStableSort_iff linear).mp isSort
    rw [eq_comm, <- List.forall₂_eq_eq_eq, List.forall₂_map_left_iff]
    exact each.imp fun element other here => ((arranged_iff element other).mp here).symm
  · rintro rfl
    refine ⟨⟨_, (Sorting.isStableSort_iff linear).mpr rfl, ?_⟩, ?_⟩
    · rw [List.forall₂_map_right_iff, List.forall₂_same]
      exact fun element _ => (arranged_iff element _).mpr rfl
    · rw [List.pairwise_map]
      simp only [sameKey]
      exact Sorting.pairwise_sortOn linear key before

/-- If elements that have been arranged are arrangements of themselves, so is the list. -/
theorem self
    (each : ∀ element other, arranged element other -> arranged other other)
    (isArranged : ArrangedList mayPrecede key arranged before after) :
    ArrangedList mayPrecede key arranged after after := by
  obtain ⟨⟨sorted, -, related⟩, ascending⟩ := isArranged
  refine ⟨⟨after, ⟨.refl _, ascending, fun _ => rfl⟩, ?_⟩, ascending⟩
  -- the relation of the sorted list to the arranged one carries over to the latter alone
  clear ascending
  induction related with
  | nil => exact .nil
  | cons here _ inductionHypothesis => exact .cons (each _ _ here) inductionHypothesis

end ArrangedList

/-! ## The arrangement of data points -/

/-- Pairs are put together again from their parts, whatever follows the second ones. -/
theorem zip_map_append
    {α β : Type}
    (pairs : List (α × β))
    (behind : List β) :
    (pairs.map Prod.fst).zip (pairs.map Prod.snd ++ behind) = pairs := by
  induction pairs with
  | nil => exact List.zip_nil_left
  | cons pair pairs inductionHypothesis => exact congrArg (pair :: ·) inductionHypothesis

/-- Behind the second parts of a zipped list comes the rest of the second list. -/
theorem map_snd_zip_append_drop
    {α β : Type}
    (first : List α)
    (second : List β) :
    (first.zip second).map Prod.snd ++ second.drop first.length = second := by
  induction first generalizing second with
  | nil => rfl
  | cons element elements inductionHypothesis =>
      cases second with
      | nil => rfl
      | cons other others => exact congrArg (other :: ·) (inductionHypothesis others)

namespace HistogramPoint

variable {before after : HistogramPoint}

/-- A data point with buckets is made of these and of the count that follows them. -/
theorem HasBuckets.eq_bucketPairs (hasBuckets : before.HasBuckets) :
    before.bounds = (bucketPairs before).map Prod.fst ∧
      before.counts =
        (bucketPairs before).map Prod.snd ++ before.counts.drop before.bounds.length := by
  constructor
  · refine (List.map_fst_zip ?_).symm
    rw [HasBuckets] at hasBuckets
    omega
  · exact (map_snd_zip_append_drop before.bounds before.counts).symm

/-- Buckets whose bounds ascend are sorted. -/
theorem HasBuckets.sortOn_bucketPairs
    (hasBuckets : before.HasBuckets)
    (ascends : before.bounds.Pairwise fun left right => left.totalLE right) :
    Sorting.sortOn Binary64.totalLE Prod.fst (bucketPairs before) = bucketPairs before := by
  rw [hasBuckets.eq_bucketPairs.1] at ascends
  exact Sorting.sortOn_of_pairwise (List.pairwise_map.mp ascends)

/-- A data point with buckets, after sorting them. To leave ascending bounds alone is to
sort them. -/
theorem HasBuckets.bucketsInOrder_eq (hasBuckets : before.HasBuckets) :
    bucketsInOrder before =
      { before with
        bounds := (Sorting.sortOn Binary64.totalLE Prod.fst (bucketPairs before)).map Prod.fst
        counts :=
          (Sorting.sortOn Binary64.totalLE Prod.fst (bucketPairs before)).map Prod.snd ++
            before.counts.drop before.bounds.length } := by
  refine (if_pos hasBuckets).trans ?_
  split
  · rename_i inOrder
    have ascends := Sorting.pairwise_of_neighborsInOrder Binary64.totalLE_trans inOrder
    obtain ⟨bounds, counts⟩ := hasBuckets.eq_bucketPairs
    rw [hasBuckets.sortOn_bucketPairs ascends, <- bounds, <- counts]
  · rfl

/-- There are as many sorted buckets as bounds. -/
theorem HasBuckets.length_sortOn (hasBuckets : before.HasBuckets) :
    (Sorting.sortOn Binary64.totalLE Prod.fst (bucketPairs before)).length =
      before.bounds.length := by
  rw [HasBuckets] at hasBuckets
  rw [(Sorting.sortOn_perm _ _ _).length_eq, bucketPairs, List.length_zip]
  omega

/-- Sorted buckets are an arrangement. -/
theorem HasBuckets.arranged (hasBuckets : before.HasBuckets) :
    before.Arranged (bucketsInOrder before) := by
  have isSort := (Sorting.isStableSort_iff Binary64.isLinear_totalLE).mpr
    (Eq.refl (Sorting.sortOn Binary64.totalLE Prod.fst (bucketPairs before)))
  have length := hasBuckets.length_sortOn
  rw [hasBuckets.bucketsInOrder_eq]
  generalize Sorting.sortOn Binary64.totalLE Prod.fst (bucketPairs before) = sorted
    at isSort length
  refine ⟨rfl, fun none => absurd hasBuckets none, fun _ => ?_, ⟨?_, ?_⟩, ?_⟩
  · have pairs := zip_map_append sorted (before.counts.drop before.bounds.length)
    rw [<- pairs] at isSort
    exact isSort
  · rw [List.length_map, length]
  · rw [HasBuckets] at hasBuckets
    rw [List.length_append, List.length_map, List.length_drop, length]
    omega
  · exact List.drop_left' (by rw [List.length_map, List.length_map])

/-- The buckets of a data point are arranged in one way. -/
theorem arranged_iff : before.Arranged after ↔ after = bucketsInOrder before := by
  by_cases hasBuckets : before.HasBuckets
  · constructor
    · intro isArranged
      have hasBucketsAfter : after.HasBuckets := by
        rw [HasBuckets, isArranged.lengths.1, isArranged.lengths.2]
        exact hasBuckets
      have sorted := (Sorting.isStableSort_iff Binary64.isLinear_totalLE).mp
        (isArranged.sorted hasBuckets)
      obtain ⟨bounds, counts⟩ := hasBucketsAfter.eq_bucketPairs
      rw [isArranged.overflow] at counts
      rw [hasBuckets.bucketsInOrder_eq, <- sorted, <- bounds, <- counts]
      exact isArranged.others
    · rintro rfl
      exact hasBuckets.arranged
  · have unchanged : bucketsInOrder before = before := if_neg hasBuckets
    rw [unchanged]
    constructor
    · exact fun isArranged => isArranged.untouched hasBuckets
    · rintro rfl
      exact ⟨rfl, fun _ => rfl, fun has => absurd has hasBuckets, ⟨rfl, rfl⟩, rfl⟩

/-- The bounds 1, 0.1 and 0.5 are sorted together with their counts, the last count stays. -/
example :
    let point : HistogramPoint := {
      bounds := [⟨0x3ff0000000000000⟩, ⟨0x3fb999999999999a⟩, ⟨0x3fe0000000000000⟩]
      counts := [3, 1, 2, 9] }
    (bucketsInOrder point).bounds =
        [⟨0x3fb999999999999a⟩, ⟨0x3fe0000000000000⟩, ⟨0x3ff0000000000000⟩] ∧
      (bucketsInOrder point).counts = [1, 2, 3, 9] := by decide +kernel

/-- A data point that has been arranged is an arrangement of itself. -/
theorem Arranged.self (isArranged : before.Arranged after) : after.Arranged after := by
  refine ⟨rfl, fun _ => rfl, fun hasBuckets => ?_, ⟨rfl, rfl⟩, rfl⟩
  rw [HasBuckets, isArranged.lengths.1, isArranged.lengths.2] at hasBuckets
  exact (isArranged.sorted hasBuckets).self

end HistogramPoint

namespace SummaryPoint

variable {before after : SummaryPoint}

/-- The quantiles of a data point are arranged in one way. -/
theorem arranged_iff : before.Arranged after ↔ after = quantilesInOrder before := by
  constructor
  · intro isArranged
    have sorted := (Sorting.isStableSort_iff Binary64.isLinear_totalLE).mp isArranged.sorted
    rw [quantilesInOrder, <- sorted]
    exact isArranged.others
  · rintro rfl
    exact ⟨rfl, (Sorting.isStableSort_iff Binary64.isLinear_totalLE).mpr rfl⟩

/-- A data point that has been arranged is an arrangement of itself. -/
theorem Arranged.self (isArranged : before.Arranged after) : after.Arranged after :=
  ⟨rfl, isArranged.sorted.self⟩

end SummaryPoint

/-! ## The arrangement of trees -/

/-- Data points that keep their times and attributes are arranged in one way. -/
theorem ArrangedList.iff_pointsInOrder
    {α : Type}
    {time : α -> UInt64}
    {attributes : α -> List Attribute}
    {arranged : α -> α -> Prop}
    {arrange : α -> α}
    {before after : List α}
    (samePlace : ∀ point,
      time (arrange point) = time point ∧ attributes (arrange point) = attributes point)
    (arranged_iff : ∀ point other, arranged point other ↔ other = arrange point) :
    ArrangedList placeLE (fun point => placeKey (time point, attributes point)) arranged before
        after ↔
      after = (pointsInOrder time attributes before).map arrange := by
  refine ArrangedList.iff_eq_map isLinear_placeLE (fun point => ?_) arranged_iff
  rw [(samePlace point).1, (samePlace point).2]

namespace MetricData

variable {before after : MetricData}

/-- Data are arranged in one way. -/
theorem arranged_iff : before.Arranged after ↔ after = arrangeData before := by
  have numbers (points others : List NumberPoint) :
      ArrangedList placeLE (fun point => placeKey (point.time, point.attributes)) Eq points
          others ↔
        others = pointsInOrder NumberPoint.time NumberPoint.attributes points := by
    rw [ArrangedList.iff_pointsInOrder (fun _ => ⟨rfl, rfl⟩) fun _ _ => eq_comm,
      List.map_id']
  cases before with
  | gauge points =>
      cases after with
      | gauge others =>
          rw [arrangeData, MetricData.gauge.injEq]
          exact numbers points others
      | _ => exact iff_of_false id fun same => by cases same
  | sum points temporality monotonic =>
      cases after with
      | sum others otherTemporality otherMonotonic =>
          rw [arrangeData, MetricData.sum.injEq]
          exact and_congr_left' (numbers points others)
      | _ => exact iff_of_false id fun same => by cases same
  | histogram points temporality =>
      cases after with
      | histogram others otherTemporality =>
          rw [arrangeData, MetricData.histogram.injEq]
          exact and_congr_left' <| ArrangedList.iff_pointsInOrder place_bucketsInOrder
            fun _ _ => HistogramPoint.arranged_iff
      | _ => exact iff_of_false id fun same => by cases same
  | exponentialHistogram =>
      cases after with
      | exponentialHistogram => exact iff_of_true trivial rfl
      | _ => exact iff_of_false id fun same => by cases same
  | summary points =>
      cases after with
      | summary others =>
          rw [arrangeData, MetricData.summary.injEq]
          exact ArrangedList.iff_pointsInOrder (fun _ => ⟨rfl, rfl⟩)
            fun _ _ => SummaryPoint.arranged_iff
      | _ => exact iff_of_false id fun same => by cases same

/-- Data that have been arranged are an arrangement of themselves. -/
theorem Arranged.self (isArranged : before.Arranged after) : after.Arranged after := by
  cases before with
  | gauge points =>
      cases after with
      | gauge others => exact ArrangedList.self (fun _ _ _ => rfl) isArranged
      | _ => cases isArranged
  | sum points temporality monotonic =>
      cases after with
      | sum others => exact ⟨ArrangedList.self (fun _ _ _ => rfl) isArranged.1, rfl, rfl⟩
      | _ => cases isArranged
  | histogram points temporality =>
      cases after with
      | histogram others =>
          exact ⟨ArrangedList.self (fun _ _ => HistogramPoint.Arranged.self) isArranged.1, rfl⟩
      | _ => cases isArranged
  | exponentialHistogram =>
      cases after with
      | exponentialHistogram => exact trivial
      | _ => cases isArranged
  | summary points =>
      cases after with
      | summary others =>
          exact ArrangedList.self (fun _ _ => SummaryPoint.Arranged.self) isArranged
      | _ => cases isArranged

end MetricData

namespace Metric

variable {before after : Metric}

/-- A metric is arranged in one way. -/
theorem arranged_iff : before.Arranged after ↔ after = arrangeMetric before := by
  obtain ⟨name, data⟩ := before
  obtain ⟨otherName, otherData⟩ := after
  rw [arrangeMetric, Metric.mk.injEq]
  have sameData :
      Option.Rel MetricData.Arranged data otherData ↔ otherData = data.map arrangeData := by
    constructor
    · intro related
      cases related with
      | none => rfl
      | some isArranged => exact congrArg some (MetricData.arranged_iff.mp isArranged)
    · rintro rfl
      cases data with
      | none => exact .none
      | some data => exact .some (MetricData.arranged_iff.mpr rfl)
  exact ⟨fun isArranged => ⟨isArranged.name, sameData.mp isArranged.data⟩,
    fun same => ⟨same.1, sameData.mpr same.2⟩⟩

/-- A metric that has been arranged is an arrangement of itself. -/
theorem Arranged.self (isArranged : before.Arranged after) : after.Arranged after := by
  obtain ⟨name, data⟩ := before
  obtain ⟨otherName, otherData⟩ := after
  refine ⟨rfl, ?_⟩
  cases isArranged.data with
  | none => exact .none
  | some data => exact .some data.self

end Metric

namespace ScopeMetrics

variable {before after : ScopeMetrics}

/-- The metrics of a scope are arranged in one way. -/
theorem arranged_iff : before.Arranged after ↔ after = arrangeScope before := by
  have metrics : ArrangedList textLE Metric.name Metric.Arranged before.metrics after.metrics ↔
      after.metrics = (Sorting.sortOn textLE Metric.name before.metrics).map arrangeMetric :=
    ArrangedList.iff_eq_map isLinear_textLE (fun _ => rfl) fun _ _ => Metric.arranged_iff
  constructor
  · intro isArranged
    rw [arrangeScope, <- metrics.mp isArranged.metrics, <- isArranged.scope]
  · rintro rfl
    exact ⟨rfl, metrics.mpr rfl⟩

/-- A scope that has been arranged is an arrangement of itself. -/
theorem Arranged.self (isArranged : before.Arranged after) : after.Arranged after :=
  ⟨rfl, isArranged.metrics.self fun _ _ => Metric.Arranged.self⟩

end ScopeMetrics

namespace ResourceMetrics

variable {before after : ResourceMetrics}

/-- The scopes of a resource are arranged in one way. -/
theorem arranged_iff : before.Arranged after ↔ after = arrangeResource before := by
  have scopes :
      ArrangedList (pairLE textLE textLE) scopeKey ScopeMetrics.Arranged before.scopes
          after.scopes ↔
        after.scopes = (Sorting.sortOn (pairLE textLE textLE) scopeKey before.scopes).map
          arrangeScope :=
    ArrangedList.iff_eq_map (isLinear_pairLE isLinear_textLE isLinear_textLE) (fun _ => rfl)
      fun _ _ => ScopeMetrics.arranged_iff
  constructor
  · intro isArranged
    rw [arrangeResource, <- scopes.mp isArranged.scopes, <- isArranged.resource]
  · rintro rfl
    exact ⟨rfl, scopes.mpr rfl⟩

/-- A resource that has been arranged is an arrangement of itself. -/
theorem Arranged.self (isArranged : before.Arranged after) : after.Arranged after :=
  ⟨rfl, isArranged.scopes.self fun _ _ => ScopeMetrics.Arranged.self⟩

end ResourceMetrics

namespace MetricTree

variable {before after : MetricTree}

/-- A tree is arranged in one way. -/
theorem arranged_iff : before.Arranged after ↔ after = arrange before :=
  ArrangedList.iff_eq_map isLinear_textLE (fun _ => rfl) fun _ _ =>
    ResourceMetrics.arranged_iff

/-- A tree that has been arranged is an arrangement of itself. -/
theorem Arranged.self (isArranged : before.Arranged after) : after.Arranged after :=
  ArrangedList.self (fun _ _ => ResourceMetrics.Arranged.self) isArranged

/-- The arrangement of a tree is its only arrangement: each list is sorted stably, the
elements of the lists keep what is not sorted, and a bound keeps its count. To arrange the
tree again does not change it. -/
theorem arrange_stable_idempotent (tree : MetricTree) :
    (∀ other, tree.Arranged other ↔ other = arrange tree) ∧
      arrange (arrange tree) = arrange tree := by
  have isArranged : tree.Arranged (arrange tree) := arranged_iff.mpr rfl
  exact ⟨fun other => arranged_iff, (arranged_iff.mp isArranged.self).symm⟩

end MetricTree

end LineMetrics
