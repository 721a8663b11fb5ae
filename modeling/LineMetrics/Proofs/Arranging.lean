import LineMetrics.Arrangement
import LineMetrics.Outline
import LineMetrics.Proofs.ArrivalOrder
import LineMetrics.Proofs.StableSorting

/-!
# Arranged trees

A tree is arranged by sorting its lists by keys. If the keys in each list are distinct, the
arrangement depends on the tree only up to order. On the level of resources, and on that of
data points, the arranged tree is sorted as its resources, its times and its attributes
are alone.
-/

namespace LineMetrics

namespace Arrangement

theorem isLinear_textLE : Sorting.IsLinear textLE where
  transitive _ _ _ below above :=
    decide_eq_true (String.le_trans (of_decide_eq_true below) (of_decide_eq_true above))
  total first second := by
    rw [Bool.or_eq_true]
    exact (String.le_total first second).imp decide_eq_true decide_eq_true
  antisymmetric _ _ below above :=
    String.le_antisymm (of_decide_eq_true below) (of_decide_eq_true above)

theorem isLinear_time :
    Sorting.IsLinear fun left right : UInt64 => decide (left ≤ right) where
  transitive _ _ _ below above :=
    decide_eq_true (UInt64.le_trans (of_decide_eq_true below) (of_decide_eq_true above))
  total first second := by
    rw [Bool.or_eq_true]
    exact (UInt64.le_total first second).imp decide_eq_true decide_eq_true
  antisymmetric _ _ below above :=
    UInt64.le_antisymm (of_decide_eq_true below) (of_decide_eq_true above)

/-- Pairs are compared linearly if both of their parts are. -/
theorem isLinear_pairLE
    {α β : Type}
    [DecidableEq α]
    {firstLE : α -> α -> Bool}
    {secondLE : β -> β -> Bool}
    (first : Sorting.IsLinear firstLE)
    (second : Sorting.IsLinear secondLE) :
    Sorting.IsLinear (pairLE firstLE secondLE) where
  transitive left middle right below above := by
    unfold pairLE at *
    by_cases leftSame : left.1 = middle.1
    · rw [if_pos leftSame] at below
      rw [leftSame]
      by_cases rightSame : middle.1 = right.1
      · rw [if_pos rightSame] at above
        rw [if_pos rightSame]
        exact second.transitive _ _ _ below above
      · rw [if_neg rightSame] at above
        rw [if_neg rightSame]
        exact above
    · rw [if_neg leftSame] at below
      by_cases rightSame : middle.1 = right.1
      · rw [<- rightSame, if_neg leftSame]
        exact below
      · rw [if_neg rightSame] at above
        rw [if_neg fun same => leftSame ?_]
        · exact first.transitive _ _ _ below above
        · exact first.antisymmetric _ _ below (same ▸ above)
  total left right := by
    unfold pairLE
    by_cases same : left.1 = right.1
    · rw [if_pos same, if_pos same.symm]
      exact second.total left.2 right.2
    · rw [if_neg same, if_neg (Ne.symm same)]
      exact first.total left.1 right.1
  antisymmetric left right below above := by
    unfold pairLE at *
    by_cases same : left.1 = right.1
    · rw [if_pos same] at below
      rw [if_pos same.symm] at above
      exact Prod.ext same (second.antisymmetric _ _ below above)
    · rw [if_neg same] at below
      rw [if_neg (Ne.symm same)] at above
      exact absurd (first.antisymmetric _ _ below above) same

/-- The order of the keys of data points. -/
def placeLE : UInt64 × String -> UInt64 × String -> Bool :=
  pairLE (fun left right => left ≤ right) textLE

theorem isLinear_placeLE : Sorting.IsLinear placeLE :=
  isLinear_pairLE isLinear_time isLinear_textLE

/-- The key of a data point with a time and attributes. -/
def placeKey (place : UInt64 × List Attribute) : UInt64 × String :=
  (place.1, attributesKey place.2)

/-- The times and attributes of sorted data points are sorted as such. -/
theorem map_pointsInOrder
    {α : Type}
    (time : α -> UInt64)
    (attributes : α -> List Attribute)
    (points : List α) :
    (pointsInOrder time attributes points).map (fun point => (time point, attributes point)) =
      Sorting.sortOn placeLE placeKey
        (points.map fun point => (time point, attributes point)) :=
  Sorting.map_sortOn placeLE placeKey (fun point => (time point, attributes point)) points

theorem place_bucketsInOrder (point : HistogramPoint) :
    (bucketsInOrder point).time = point.time ∧
      (bucketsInOrder point).attributes = point.attributes := by
  rw [bucketsInOrder]
  split
  · split
    · exact ⟨rfl, rfl⟩
    · exact ⟨rfl, rfl⟩
  · exact ⟨rfl, rfl⟩

/-- The times and attributes of arranged data are those of the data, sorted. -/
theorem places_arrangeData (data : MetricData) :
    (arrangeData data).places = Sorting.sortOn placeLE placeKey data.places := by
  cases data with
  | gauge points => exact map_pointsInOrder _ _ points
  | sum points temporality monotonic => exact map_pointsInOrder _ _ points
  | exponentialHistogram => rfl
  | histogram points temporality =>
      refine Eq.trans ?_ (map_pointsInOrder HistogramPoint.time HistogramPoint.attributes points)
      rw [arrangeData, MetricData.places, List.map_map]
      refine List.map_congr_left fun point _ => ?_
      obtain ⟨sameTime, sameAttributes⟩ := place_bucketsInOrder point
      exact Prod.ext sameTime sameAttributes
  | summary points =>
      refine Eq.trans ?_ (map_pointsInOrder SummaryPoint.time SummaryPoint.attributes points)
      rw [arrangeData, MetricData.places, List.map_map]
      rfl

/-- What is made of corresponding elements is the same in the order of their keys, if no
two of them share a key. -/
theorem map_sortOn_eq
    {α γ κ : Type}
    {related : α -> α -> Prop}
    {mayPrecede : κ -> κ -> Bool}
    {key : α -> κ}
    {make : α -> γ}
    {left right : List α}
    (linear : Sorting.IsLinear mayPrecede)
    (correspond : CorrespondUpToOrder related left right)
    (distinct : (left.map key).Nodup)
    (same : ∀ first ∈ left, ∀ second, related first second ->
      key first = key second ∧ make first = make second) :
    (Sorting.sortOn mayPrecede key left).map make =
      (Sorting.sortOn mayPrecede key right).map make := by
  have made (elements : List α) :
      (Sorting.sortOn mayPrecede key elements).map make =
        (Sorting.sortOn mayPrecede Prod.fst
          (elements.map fun element => (key element, make element))).map Prod.snd := by
    rw [<- Sorting.map_sortOn mayPrecede Prod.fst fun element => (key element, make element),
      List.map_map]
    rfl
  have perm : (left.map fun element => (key element, make element)).Perm
      (right.map fun element => (key element, make element)) := by
    refine (correspond.map fun first member second _ corresponds => ?_).perm
    obtain ⟨sameKey, sameMade⟩ := same first member second corresponds
    exact Prod.ext sameKey sameMade
  rw [made, made, Sorting.sortOn_eq_of_perm linear perm]
  rw [List.map_map]
  exact distinct

end Arrangement

/-- No two data points of the metric share their key. -/
def Metric.KeysDistinct (metric : Metric) : Prop :=
  ∀ data ∈ metric.data, (data.places.map Arrangement.placeKey).Nodup

/-- No two metrics of the scope share their key, nor do two data points of one of them. -/
structure ScopeMetrics.KeysDistinct (scope : ScopeMetrics) : Prop where
  metrics : (scope.metrics.map Metric.name).Nodup
  each : ∀ metric ∈ scope.metrics, metric.KeysDistinct

/-- No two scopes of the resource share their key, and the same holds in each of them. -/
structure ResourceMetrics.KeysDistinct (resource : ResourceMetrics) : Prop where
  scopes : (resource.scopes.map Arrangement.scopeKey).Nodup
  each : ∀ scope ∈ resource.scopes, scope.KeysDistinct

/-- No two elements of one list of the tree share the key by which the list is arranged. -/
structure MetricTree.KeysDistinct (tree : MetricTree) : Prop where
  resources : (tree.map Arrangement.resourceKey).Nodup
  each : ∀ resource ∈ tree, resource.KeysDistinct

instance (metric : Metric) : Decidable metric.KeysDistinct :=
  inferInstanceAs (Decidable (∀ data ∈ metric.data, _))

instance (scope : ScopeMetrics) : Decidable scope.KeysDistinct :=
  decidable_of_iff ((scope.metrics.map Metric.name).Nodup ∧
      ∀ metric ∈ scope.metrics, metric.KeysDistinct)
    ⟨fun ⟨metrics, each⟩ => ⟨metrics, each⟩, fun ⟨metrics, each⟩ => ⟨metrics, each⟩⟩

instance (resource : ResourceMetrics) : Decidable resource.KeysDistinct :=
  decidable_of_iff ((resource.scopes.map Arrangement.scopeKey).Nodup ∧
      ∀ scope ∈ resource.scopes, scope.KeysDistinct)
    ⟨fun ⟨scopes, each⟩ => ⟨scopes, each⟩, fun ⟨scopes, each⟩ => ⟨scopes, each⟩⟩

instance (tree : MetricTree) : Decidable tree.KeysDistinct :=
  decidable_of_iff ((tree.map Arrangement.resourceKey).Nodup ∧
      ∀ resource ∈ tree, resource.KeysDistinct)
    ⟨fun ⟨resources, each⟩ => ⟨resources, each⟩, fun ⟨resources, each⟩ => ⟨resources, each⟩⟩

namespace Arrangement

/-- Data that are the same up to order are arranged to the same data. -/
theorem arrangeData_eq_of_sameUpToOrder
    {left right : MetricData}
    (same : left.SameUpToOrder right)
    (distinct : (left.places.map placeKey).Nodup) :
    arrangeData left = arrangeData right := by
  have pointsInOrder_eq {α : Type} {time : α -> UInt64} {attributes : α -> List Attribute}
      {points others : List α} (perm : points.Perm others)
      (distinctPoints : ((points.map fun point =>
        (time point, attributes point)).map placeKey).Nodup) :
      pointsInOrder time attributes points = pointsInOrder time attributes others := by
    rw [List.map_map] at distinctPoints
    exact Sorting.sortOn_eq_of_perm isLinear_placeLE perm distinctPoints
  cases left with
  | gauge points =>
      cases right with
      | gauge others => rw [arrangeData, arrangeData, pointsInOrder_eq same distinct]
      | _ => cases same
  | sum points temporality monotonic =>
      cases right with
      | sum others otherTemporality otherMonotonic =>
          obtain ⟨perm, rfl, rfl⟩ := same
          rw [arrangeData, arrangeData, pointsInOrder_eq perm distinct]
      | _ => cases same
  | histogram points temporality =>
      cases right with
      | histogram others otherTemporality =>
          obtain ⟨perm, rfl⟩ := same
          rw [arrangeData, arrangeData, pointsInOrder_eq perm distinct]
      | _ => cases same
  | exponentialHistogram =>
      cases right with
      | exponentialHistogram => rfl
      | _ => cases same
  | summary points =>
      cases right with
      | summary others => rw [arrangeData, arrangeData, pointsInOrder_eq same distinct]
      | _ => cases same

/-- Metrics that are the same up to order are arranged to the same metric. -/
theorem arrangeMetric_eq_of_sameUpToOrder
    {left right : Metric}
    (same : left.SameUpToOrder right)
    (distinct : left.KeysDistinct) :
    arrangeMetric left = arrangeMetric right := by
  obtain ⟨name, data⟩ := left
  obtain ⟨otherName, otherData⟩ := right
  obtain ⟨sameName, sameData⟩ := same
  cases sameName
  cases sameData with
  | none => rfl
  | some sameData =>
      rw [arrangeMetric, arrangeMetric, Option.map_some, Option.map_some,
        arrangeData_eq_of_sameUpToOrder sameData (distinct _ rfl)]

/-- Scopes that are the same up to order are arranged to the same scope. -/
theorem arrangeScope_eq_of_sameUpToOrder
    {left right : ScopeMetrics}
    (same : left.SameUpToOrder right)
    (distinct : left.KeysDistinct) :
    arrangeScope left = arrangeScope right := by
  obtain ⟨sameScope, correspond⟩ := same
  rw [arrangeScope, arrangeScope, sameScope,
    map_sortOn_eq isLinear_textLE correspond distinct.metrics]
  intro first member second same
  exact ⟨same.1, arrangeMetric_eq_of_sameUpToOrder same (distinct.each first member)⟩

/-- Resources that are the same up to order are arranged to the same resource. -/
theorem arrangeResource_eq_of_sameUpToOrder
    {left right : ResourceMetrics}
    (same : left.SameUpToOrder right)
    (distinct : left.KeysDistinct) :
    arrangeResource left = arrangeResource right := by
  obtain ⟨sameResource, correspond⟩ := same
  rw [arrangeResource, arrangeResource, sameResource,
    map_sortOn_eq (isLinear_pairLE isLinear_textLE isLinear_textLE) correspond
      distinct.scopes]
  intro first member second same
  refine ⟨?_, arrangeScope_eq_of_sameUpToOrder same (distinct.each first member)⟩
  rw [scopeKey, scopeKey, same.1]

/-- Trees that are the same up to order are arranged to the same tree, if no two elements
of one of their lists share a key. -/
theorem arrange_eq_of_sameUpToOrder
    {left right : MetricTree}
    (same : left.SameUpToOrder right)
    (distinct : left.KeysDistinct) :
    arrange left = arrange right := by
  refine map_sortOn_eq isLinear_textLE same distinct.resources ?_
  intro first member second same
  refine ⟨?_, arrangeResource_eq_of_sameUpToOrder same (distinct.each first member)⟩
  rw [resourceKey, resourceKey, same.1]

/-- The resources of an arranged tree are those of the tree, sorted. -/
theorem map_resource_arrange (tree : MetricTree) :
    (arrange tree).map ResourceMetrics.resource =
      Sorting.sortOn textLE (fun resource => attributesKey (resource.getD []))
        (tree.map ResourceMetrics.resource) := by
  rw [arrange, List.map_map, <- Sorting.map_sortOn]
  rfl

/-- An arranged tree has the metrics of the tree in their places, arranged. -/
theorem mem_placedMetrics_arrange_iff {tree : MetricTree} {placed : Placement × Metric} :
    placed ∈ (arrange tree).placedMetrics ↔
      ∃ metric, (placed.1, metric) ∈ tree.placedMetrics ∧
        placed.2 = arrangeMetric metric := by
  obtain ⟨placement, arranged⟩ := placed
  simp only [MetricTree.placedMetrics, arrange, List.mem_flatMap, List.mem_map,
    (Sorting.sortOn_perm _ _ _).mem_iff, exists_exists_and_eq_and, arrangeResource,
    arrangeScope, Prod.mk.injEq]
  constructor
  · rintro ⟨resource, resourceMember, scope, scopeMember, metric, metricMember, placed, rfl⟩
    exact ⟨metric, ⟨resource, resourceMember, scope, scopeMember, metric, metricMember, placed,
      rfl⟩, rfl⟩
  · rintro ⟨metric, ⟨resource, resourceMember, scope, scopeMember, _, metricMember, placed,
      rfl⟩, rfl⟩
    exact ⟨resource, resourceMember, scope, scopeMember, _, metricMember, placed, rfl⟩

end Arrangement
end LineMetrics
