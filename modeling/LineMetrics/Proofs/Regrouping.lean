import LineMetrics.Outline
import LineMetrics.Proofs.MetricGroups

/-!
# Writing a tree metric by metric

The observations of each metric are written as others that resemble them. Then these
stand in the same groups on every level of the tree, so the tree that they make differs
only in what each metric has become.
-/

namespace LineMetrics

/-- The tree with its metrics changed one by one. -/
def MetricTree.mapMetrics (change : Metric -> Metric) (tree : MetricTree) : MetricTree :=
  tree.map fun resource =>
    { resource with
      scopes := resource.scopes.map fun scope =>
        { scope with metrics := scope.metrics.map change } }

/-- A list is related one by one to what it is mapped to, and to nothing else. -/
theorem eq_map_of_forall₂
    {α β : Type}
    {related : α -> β -> Prop}
    {change : α -> β}
    {left : List α}
    {right : List β}
    (functional : ∀ first second, related first second -> second = change first)
    (corresponding : List.Forall₂ related left right) :
    right = left.map change := by
  induction corresponding with
  | nil => rfl
  | cons first _ inductionHypothesis =>
      rw [List.map_cons, functional _ _ first, inductionHypothesis]

/-- A scope whose metrics are each changed is the one with its metrics changed. -/
theorem ScopeMetrics.Related.eq_map
    {change : Metric -> Metric}
    {left right : ScopeMetrics}
    (related : left.Related (fun metric other => other = change metric) right) :
    right = { left with metrics := left.metrics.map change } := by
  obtain ⟨sameScope, metrics⟩ := related
  have changed := eq_map_of_forall₂ (fun _ _ changed => changed) metrics
  cases right
  cases sameScope
  cases changed
  rfl

/-- Trees that differ only in their metrics, each of which is changed, are the one tree
with its metrics changed. -/
theorem MetricTree.Related.eq_mapMetrics
    {change : Metric -> Metric}
    {left right : MetricTree}
    (related : MetricTree.Related (fun metric other => other = change metric) left right) :
    right = left.mapMetrics change := by
  refine eq_map_of_forall₂ (fun resource other same => ?_) related
  obtain ⟨sameResource, scopes⟩ := same
  have changed := eq_map_of_forall₂
    (fun (scope other : ScopeMetrics) (same : scope.Related _ other) => same.eq_map) scopes
  cases other
  cases sameResource
  cases changed
  rfl

namespace Grouping

/-- The observation is of the metric of the original one, and of the kind that its kind
becomes. -/
structure Resembles
    (become : MetricKind -> MetricKind)
    (original observation : Observation) : Prop where
  resource : original.resource = observation.resource
  scope : original.scope = observation.scope
  metric : original.metric = observation.metric
  kind : become original.reading.kind = observation.reading.kind

/-- Observations that others can be written as: each resembles one of them, and there are
some if there were some. -/
structure WrittenAs
    (become : MetricKind -> MetricKind)
    (originals written : List Observation) : Prop where
  nonempty : originals ≠ [] -> written ≠ []
  resembles : ∀ observation ∈ written, ∃ original ∈ originals,
    Resembles become original observation

variable {become : MetricKind -> MetricKind}

/-- Groups that are written one by one are written. -/
theorem WrittenAs.flatMap
    {κ : Type}
    [DecidableEq κ]
    {key : Observation -> κ}
    {originals : List Observation}
    {rewrite : κ × List Observation -> List Observation}
    (each : ∀ group ∈ groups key originals, WrittenAs become group.2 (rewrite group)) :
    WrittenAs become originals ((groups key originals).flatMap rewrite) := by
  constructor
  · intro nonempty
    obtain ⟨original, member⟩ := List.exists_mem_of_ne_nil originals nonempty
    obtain ⟨group, groupMember, -⟩ := exists_mem_groups key member
    have some := (each group groupMember).nonempty (ne_nil_of_mem_groups groupMember)
    obtain ⟨observation, written⟩ := List.exists_mem_of_ne_nil _ some
    exact List.ne_nil_of_mem (List.mem_flatMap.mpr ⟨group, groupMember, written⟩)
  · intro observation member
    obtain ⟨group, groupMember, written⟩ := List.mem_flatMap.mp member
    obtain ⟨original, inGroup, resembles⟩ :=
      (each group groupMember).resembles observation written
    exact ⟨original, (of_mem_of_mem_groups groupMember inGroup).1, resembles⟩

/-- Groups that are written one by one stay apart, if observations that resemble each
other have the same key. -/
theorem WrittenAs.groups_eq
    {κ : Type}
    [DecidableEq κ]
    {key : Observation -> κ}
    {originals : List Observation}
    {rewrite : κ × List Observation -> List Observation}
    (respected : ∀ original observation, Resembles become original observation ->
      key original = key observation)
    (each : ∀ group ∈ groups key originals, WrittenAs become group.2 (rewrite group)) :
    groups key ((groups key originals).flatMap rewrite) =
      (groups key originals).map fun group => (group.1, rewrite group) := by
  refine groups_rewritten key rewrite originals ?_ ?_
  · intro group member
    exact (each group member).nonempty (ne_nil_of_mem_groups member)
  · intro group member observation written
    obtain ⟨original, inGroup, resembles⟩ :=
      (each group member).resembles observation written
    rw [<- respected original observation resembles]
    exact (of_mem_of_mem_groups member inGroup).2

/-- What resembles consistent observations is consistent. -/
theorem WrittenAs.consistent
    {originals written : List Observation}
    (writtenAs : WrittenAs become originals written)
    (consistent : Consistent originals) :
    Consistent written := by
  intro left leftMember right rightMember same
  obtain ⟨first, firstMember, leftLike⟩ := writtenAs.resembles left leftMember
  obtain ⟨second, secondMember, rightLike⟩ := writtenAs.resembles right rightMember
  have sameOriginals : sameMetric first second := by
    simp only [sameMetric, Bool.and_eq_true, decide_eq_true_eq] at same ⊢
    rw [leftLike.resource, leftLike.scope, leftLike.metric, rightLike.resource,
      rightLike.scope, rightLike.metric]
    exact same
  rw [<- leftLike.kind, <- rightLike.kind,
    consistent first firstMember second secondMember sameOriginals]

section Rewrite

variable {observations : List Observation} {rewrite : MetricGroup -> List Observation}

/-- What a scope is written as, metric by metric. -/
def rewriteScope
    (rewrite : MetricGroup -> List Observation)
    (resource : Tags)
    (scope : Scope × List Observation) : List Observation :=
  (groups Observation.metric scope.2).flatMap fun metric =>
    rewrite ⟨resource, scope.1, metric.1, metric.2⟩

/-- What a resource is written as, scope by scope. -/
def rewriteResource
    (rewrite : MetricGroup -> List Observation)
    (resource : Tags × List Observation) : List Observation :=
  (groups Observation.scope resource.2).flatMap (rewriteScope rewrite resource.1)

/-- Metrics that are written one by one are written level by level. -/
theorem flatMap_rewrite
    (rewrite : MetricGroup -> List Observation)
    (observations : List Observation) :
    (metricGroups observations).flatMap rewrite =
      (groups Observation.resource observations).flatMap (rewriteResource rewrite) := by
  rw [metricGroups, List.flatMap_assoc]
  apply List.flatMap_congr
  intro resource _
  rw [List.flatMap_assoc]
  apply List.flatMap_congr
  intro scope _
  rw [List.flatMap_map]
  rfl

/-- The scopes of a resource are written if their metrics are. -/
theorem writtenAs_rewriteScope
    (each : ∀ group ∈ metricGroups observations, WrittenAs become group.members (rewrite group)) :
    ∀ resource ∈ groups Observation.resource observations,
      ∀ scope ∈ groups Observation.scope resource.2,
        WrittenAs become scope.2 (rewriteScope rewrite resource.1 scope) :=
  fun _ resourceMember _ scopeMember =>
    .flatMap fun _ metricMember =>
      each _ (mem_metricGroups resourceMember scopeMember metricMember)

/-- The resources of a tree are written if its metrics are. -/
theorem writtenAs_rewriteResource
    (each : ∀ group ∈ metricGroups observations, WrittenAs become group.members (rewrite group)) :
    ∀ resource ∈ groups Observation.resource observations,
      WrittenAs become resource.2 (rewriteResource rewrite resource) :=
  fun resource member => .flatMap (writtenAs_rewriteScope each resource member)

/-- A tree is written if its metrics are. -/
theorem writtenAs_rewrite
    (each : ∀ group ∈ metricGroups observations, WrittenAs become group.members (rewrite group)) :
    WrittenAs become observations ((metricGroups observations).flatMap rewrite) := by
  rw [flatMap_rewrite]
  exact .flatMap (writtenAs_rewriteResource each)

/-- If every metric is written as observations that make a related metric, the tree is
written as observations that make a tree with the same resources and scopes, and with the
related metrics. -/
theorem related_tree_rewrite
    {related : Metric -> Metric -> Prop}
    (consistent : Consistent observations)
    (each : ∀ group ∈ metricGroups observations,
      WrittenAs become group.members (rewrite group))
    (eachRelated : ∀ group ∈ metricGroups observations,
      related group.metric (metricOf group.name (rewrite group))) :
    MetricTree.Related related (tree observations)
      (tree ((metricGroups observations).flatMap rewrite)) := by
  have stillConsistent := (writtenAs_rewrite each).consistent consistent
  rw [tree, tree, stillConsistent.accepted_eq, consistent.accepted_eq, flatMap_rewrite,
    WrittenAs.groups_eq (fun _ _ => Resembles.resource) (writtenAs_rewriteResource each),
    MetricTree.Related, List.map_map, List.forall₂_map_left_iff, List.forall₂_map_right_iff,
    List.forall₂_same]
  intro resource resourceMember
  refine ⟨rfl, ?_⟩
  have scopes :=
    WrittenAs.groups_eq (fun _ _ => Resembles.scope)
      (writtenAs_rewriteScope each resource resourceMember)
  simp only [Function.comp_apply, resourceOf, rewriteResource, scopes, List.map_map]
  rw [List.forall₂_map_left_iff, List.forall₂_map_right_iff, List.forall₂_same]
  intro scope scopeMember
  refine ⟨rfl, ?_⟩
  have metrics :=
    WrittenAs.groups_eq (fun _ _ => Resembles.metric) fun metric metricMember =>
      each _ (mem_metricGroups resourceMember scopeMember metricMember)
  simp only [Function.comp_apply, scopeOf, rewriteScope]
  rw [metrics, List.map_map, List.forall₂_map_left_iff, List.forall₂_map_right_iff,
    List.forall₂_same]
  intro metric metricMember
  exact eachRelated _ (mem_metricGroups resourceMember scopeMember metricMember)

/-- If every metric is written as observations that make a changed metric, the tree is
written as observations that make the changed tree. -/
theorem tree_rewrite
    (change : Metric -> Metric)
    (consistent : Consistent observations)
    (each : ∀ group ∈ metricGroups observations,
      WrittenAs become group.members (rewrite group))
    (changed : ∀ group ∈ metricGroups observations,
      metricOf group.name (rewrite group) = change group.metric) :
    tree ((metricGroups observations).flatMap rewrite) =
      (tree observations).mapMetrics change :=
  (related_tree_rewrite consistent each changed).eq_mapMetrics

end Rewrite

end Grouping
end LineMetrics
