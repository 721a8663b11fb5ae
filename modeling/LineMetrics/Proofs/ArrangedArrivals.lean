import LineMetrics.Proofs.Arranging
import LineMetrics.Proofs.MetricGroups
import LineMetrics.Proofs.SlicedConversion
import LineMetrics.Proofs.TagRoundTrip
import LineMetrics.Proofs.WholeReadings

/-!
# The arrangement of trees of rearranged points

Whole points that come in another order finish as a tree that is the same up to order. To
arrange it is to forget the order, but only where the keys of its lists tell their elements
apart: those with one key stay in the order in which they came, and any of them may come
first. The keys of attributes are texts that join the attributes with commas, so different
attributes may well share a key.
-/

namespace LineMetrics

namespace Attribute

/-- The keys of attributes and the texts of their values, which can be compared. -/
def placeTexts (place : UInt64 × List Attribute) : List String :=
  place.2.flatMap fun entry => [entry.key, entry.value.tagText?.getD ""]

end Attribute

namespace Reading

/-- The time and the attributes of what a reading says. -/
def place : Reading -> UInt64 × List Attribute
  | .gauge point => (point.time, point.attributes)
  | .sum _ point => (point.time, point.attributes)
  | .histogram point => (point.time, point.attributes)
  | .summary point => (point.time, point.attributes)
  | .slice _ series _ => series.place

end Reading

namespace Grouping

/-- The data of readings of whole data points have their times and attributes. -/
theorem places_dataOf
    {kind : MetricKind}
    {readings : List Reading}
    (whole : kind ≠ .assembled)
    (sameKind : ∀ reading ∈ readings, reading.kind = kind) :
    (dataOf kind readings).places = readings.map Reading.place := by
  have places {α : Type} {find : Reading -> Option α} {place : α -> UInt64 × List Attribute}
      (found : ∀ reading ∈ readings, (find reading).map place = some reading.place) :
      (readings.filterMap find).map place = readings.map Reading.place := by
    rw [List.map_filterMap, List.filterMap_congr found]
    exact congrFun (List.filterMap_eq_map (f := Reading.place)) readings
  cases kind with
  | gauge =>
      refine places fun reading member => ?_
      cases reading with
      | gauge point => rfl
      | _ => cases sameKind _ member
  | sum temporality =>
      refine places fun reading member => ?_
      cases reading with
      | sum other point => rfl
      | _ => cases sameKind _ member
  | whole distribution =>
      cases distribution with
      | histogram =>
          refine places fun reading member => ?_
          cases reading with
          | histogram point => rfl
          | _ => cases sameKind _ member
      | summary =>
          refine places fun reading member => ?_
          cases reading with
          | summary point => rfl
          | _ => cases sameKind _ member
  | assembled => exact absurd rfl whole

/-- The tree of consistent observations has distinct keys on all levels, if it does on the
level of resources and on that of data points. -/
theorem keysDistinct_tree
    {observations : List Observation}
    (consistent : Consistent observations)
    (resources : ((tree observations).map Arrangement.resourceKey).Nodup)
    (points : ∀ placed ∈ (tree observations).placedMetrics, placed.2.KeysDistinct) :
    (tree observations).KeysDistinct := by
  refine ⟨resources, fun resource resourceMember => ?_⟩
  have inResource := resourceMember
  rw [tree, consistent.accepted_eq] at inResource
  obtain ⟨⟨tags, ofTags⟩, -, rfl⟩ := List.mem_map.mp inResource
  refine ⟨?_, fun scope scopeMember => ?_⟩
  · have keys : (resourceOf tags ofTags).scopes.map Arrangement.scopeKey =
        ((groups Observation.scope ofTags).map Prod.fst).map fun scope : Scope =>
          (scope.name, scope.version) := by
      rw [List.map_map]
      exact List.map_map
    rw [keys]
    refine (nodup_keys_groups _ _).map fun scope other same => ?_
    cases scope
    cases other
    cases same
    rfl
  · obtain ⟨⟨scope, ofScope⟩, -, rfl⟩ := List.mem_map.mp scopeMember
    refine ⟨?_, fun metric metricMember => ?_⟩
    · have names : (scopeOf scope ofScope).metrics.map Metric.name =
          (groups Observation.metric ofScope).map Prod.fst := List.map_map
      rw [names]
      exact nodup_keys_groups Observation.metric ofScope
    · exact points (_, metric) (List.mem_flatMap.mpr ⟨_, resourceMember,
        List.mem_flatMap.mpr ⟨_, scopeMember, List.mem_map_of_mem metricMember⟩⟩)

/-- Observations with one condition brought in front of the others. -/
def broughtForward (condition : Observation -> Bool) (observations : List Observation) :
    List Observation :=
  observations.filter condition ++ observations.filter fun observation =>
    !condition observation

theorem broughtForward_perm
    (condition : Observation -> Bool)
    (observations : List Observation) :
    (broughtForward condition observations).Perm observations :=
  List.filter_append_perm condition observations

/-- What is brought forward among some observations is brought forward among all. -/
theorem filter_broughtForward
    (condition covers : Observation -> Bool)
    (observations : List Observation) :
    (broughtForward condition observations).filter covers =
      broughtForward condition (observations.filter covers) := by
  rw [broughtForward, broughtForward, List.filter_append, List.filter_comm,
    List.filter_comm fun observation => !condition observation]

/-- An observation that satisfies the condition comes first. -/
theorem exists_leading
    (condition : Observation -> Bool)
    {observations : List Observation}
    {observation : Observation}
    (member : observation ∈ observations)
    (holds : condition observation = true) :
    ∃ leading behind, condition leading = true ∧
      broughtForward condition observations = leading :: behind := by
  have forward : observations.filter condition ≠ [] :=
    List.ne_nil_of_mem (List.mem_filter.mpr ⟨member, holds⟩)
  obtain ⟨leading, others, cut⟩ := List.exists_cons_of_ne_nil forward
  have leads : leading ∈ observations.filter condition := cut ▸ List.mem_cons_self
  refine ⟨leading, others ++ observations.filter fun observation => !condition observation,
    (List.mem_filter.mp leads).2, ?_⟩
  rw [broughtForward, cut, List.cons_append]

/-- To bring forward the observations of some resource or at some place does not change
the arranged tree. -/
def ArrangedAnyhow (observations : List Observation) : Prop :=
  ∀ test : Tags -> UInt64 × List Attribute -> Bool,
    arrange (tree (broughtForward
        (fun observation => test observation.resource observation.reading.place)
        observations)) =
      arrange (tree observations)

variable {observations : List Observation}

/-- The resources of a tree are those of its observations, in the order in which they are
first seen. -/
theorem map_resource_tree (consistent : Consistent observations) :
    (tree observations).map ResourceMetrics.resource =
      (observations.map Observation.resource).eraseDups.map fun resource =>
        some (Attribute.ofTags resource) := by
  rw [tree, consistent.accepted_eq, <- keys_groups, List.map_map, List.map_map]
  rfl

/-- If the arranged tree does not depend on which resource comes first, then no two
resources share a key. -/
theorem nodup_resourceKeys
    (consistent : Consistent observations)
    (anyhow : ArrangedAnyhow observations) :
    ((tree observations).map Arrangement.resourceKey).Nodup := by
  have distinct : ((tree observations).map ResourceMetrics.resource).Nodup := by
    rw [map_resource_tree consistent]
    exact (nodup_eraseDups _).map fun resource other same =>
      Attribute.ofTags_injective (Option.some.inj same)
  have keys : (tree observations).map Arrangement.resourceKey =
      ((tree observations).map ResourceMetrics.resource).map fun resource =>
        Arrangement.attributesKey (resource.getD []) := by
    rw [List.map_map]
    rfl
  rw [keys]
  refine List.Nodup.map_on (fun first firstMember second secondMember same => ?_) distinct
  refine Sorting.eq_of_brought_forward
    (fun resource : Option (List Attribute) => Arrangement.attributesKey (resource.getD []))
    Arrangement.isLinear_textLE (fun element member => ?_) firstMember secondMember same
  rw [map_resource_tree consistent] at member
  obtain ⟨resource, seen, rfl⟩ := List.mem_map.mp member
  obtain ⟨observation, observationMember, ofResource⟩ :=
    List.mem_map.mp (List.mem_eraseDups.mp seen)
  let test (other : Tags) (_ : UInt64 × List Attribute) : Bool := other = resource
  let others := broughtForward (fun observation =>
    test observation.resource observation.reading.place) observations
  refine ⟨(tree others).map ResourceMetrics.resource, ?_, ?_⟩
  · rw [<- Arrangement.map_resource_arrange, <- Arrangement.map_resource_arrange, anyhow test]
  · obtain ⟨leading, behind, leads, cut⟩ :=
      exists_leading (fun observation =>
        test observation.resource observation.reading.place)
        observationMember (decide_eq_true ofResource)
    have isLeading : leading.resource = resource := of_decide_eq_true leads
    rw [map_resource_tree (consistent.subset (broughtForward_perm _ _).subset), cut,
      List.map_cons, isLeading, List.eraseDups_cons, List.map_cons,
      List.filter_cons_of_pos (by simp), List.head?_cons]

/-- The data points of a metric in the tree of whole observations have the times and the
attributes of the observations of that metric. -/
theorem places_of_mem_metricGroups
    {group : MetricGroup}
    {data : MetricData}
    (consistent : Consistent observations)
    (whole : ∀ observation ∈ observations, observation.reading.kind ≠ .assembled)
    (member : group ∈ metricGroups observations)
    (found : data ∈ group.metric.data) :
    data.places =
      (observations.filter group.covers).map fun observation => observation.reading.place := by
  obtain ⟨kind, sameKind, isData⟩ := exists_kind_of_mem_metricGroups consistent member
  obtain ⟨members, nonempty⟩ := of_mem_metricGroups member
  obtain ⟨observation, inGroup⟩ := List.exists_mem_of_ne_nil _ nonempty
  have notAssembled : kind ≠ .assembled := by
    rw [<- sameKind observation inGroup]
    exact whole observation (mem_of_mem_metricGroups member inGroup)
  cases found.symm.trans isData
  rw [places_dataOf notAssembled (List.forall_mem_map.mpr sameKind), List.map_map, members]
  rfl

/-- Rearranged whole observations with the same arranged tree have, for each metric, the
same times and attributes once these are sorted by their keys. -/
theorem sortOn_places_eq
    {others : List Observation}
    {group : MetricGroup}
    {data : MetricData}
    (consistent : Consistent observations)
    (whole : ∀ observation ∈ observations, observation.reading.kind ≠ .assembled)
    (perm : others.Perm observations)
    (sameArranged : arrange (tree others) = arrange (tree observations))
    (member : group ∈ metricGroups observations)
    (found : data ∈ group.metric.data) :
    Sorting.sortOn Arrangement.placeLE Arrangement.placeKey
        ((others.filter group.covers).map fun observation => observation.reading.place) =
      Sorting.sortOn Arrangement.placeLE Arrangement.placeKey data.places := by
  have othersConsistent := consistent.subset perm.subset
  have arranged : (group.placement, Arrangement.arrangeMetric group.metric) ∈
      (arrange (tree others)).placedMetrics := by
    rw [sameArranged]
    exact Arrangement.mem_placedMetrics_arrange_iff.mpr
      ⟨group.metric, mem_placedMetrics_of_mem_metricGroups consistent member, rfl⟩
  obtain ⟨metric, otherMember, sameMetric⟩ :=
    Arrangement.mem_placedMetrics_arrange_iff.mp arranged
  rw [placedMetrics_tree, othersConsistent.accepted_eq] at otherMember
  obtain ⟨other, otherGroupMember, isOther⟩ := List.mem_map.mp otherMember
  obtain ⟨samePlacement, rfl⟩ := Prod.mk.inj isOther
  have sameCovers : group.covers = other.covers := by
    have sameName : group.name = other.name := congrArg Metric.name sameMetric
    have sameResource : other.resource = group.resource :=
      Attribute.ofTags_injective (congrArg Placement.resource samePlacement)
    have sameScope : other.scope = group.scope :=
      Option.some.inj (congrArg Placement.scope samePlacement)
    funext observation
    rw [MetricGroup.covers, MetricGroup.covers, sameName, sameResource, sameScope]
  have sameData : group.metric.data.map Arrangement.arrangeData =
      other.metric.data.map Arrangement.arrangeData := congrArg Metric.data sameMetric
  rw [found] at sameData
  obtain ⟨otherData, otherFound, sameData⟩ := Option.map_eq_some_iff.mp sameData.symm
  rw [sameCovers, <- places_of_mem_metricGroups othersConsistent
      (fun observation member => whole observation (perm.subset member)) otherGroupMember
      otherFound,
    <- Arrangement.places_arrangeData, <- Arrangement.places_arrangeData, sameData]

/-- If the arranged tree does not depend on which data points come first, then no two data
points of a metric share a key, unless they share their time and attributes. -/
theorem nodup_placeKeys
    {placed : Placement × Metric}
    {data : MetricData}
    (consistent : Consistent observations)
    (whole : ∀ observation ∈ observations, observation.reading.kind ≠ .assembled)
    (anyhow : ArrangedAnyhow observations)
    (member : placed ∈ (tree observations).placedMetrics)
    (found : data ∈ placed.2.data)
    (distinct : data.places.Nodup) :
    (data.places.map Arrangement.placeKey).Nodup := by
  rw [placedMetrics_tree, consistent.accepted_eq] at member
  obtain ⟨group, groupMember, rfl⟩ := List.mem_map.mp member
  refine List.Nodup.map_on (fun first firstMember second secondMember same => ?_) distinct
  refine Sorting.eq_of_brought_forward _ Arrangement.isLinear_placeLE (fun element member => ?_)
    firstMember secondMember same
  rw [places_of_mem_metricGroups consistent whole groupMember found] at member
  obtain ⟨observation, inGroup, atPlace⟩ := List.mem_map.mp member
  classical
  let test (_ : Tags) (place : UInt64 × List Attribute) : Bool := place = element
  refine ⟨_, sortOn_places_eq consistent whole (broughtForward_perm _ _) (anyhow test)
    groupMember found, ?_⟩
  obtain ⟨leading, behind, leads, cut⟩ :=
    exists_leading (fun observation =>
      test observation.resource observation.reading.place) inGroup (decide_eq_true atPlace)
  have isLeading : leading.reading.place = element := of_decide_eq_true leads
  rw [filter_broughtForward, cut, List.map_cons, isLeading,
    List.filter_cons_of_pos (by simp), List.head?_cons]

/-- If the arranged tree of whole observations does not depend on which of them come first,
then no two elements of one of its lists share a key. -/
theorem keysDistinct_tree_of_arrangedAnyhow
    (consistent : Consistent observations)
    (whole : ∀ observation ∈ observations, observation.reading.kind ≠ .assembled)
    (distinct : ∀ placed ∈ (tree observations).placedMetrics,
      ∀ data ∈ placed.2.data, data.places.Nodup)
    (anyhow : ArrangedAnyhow observations) :
    (tree observations).KeysDistinct :=
  keysDistinct_tree consistent (nodup_resourceKeys consistent anyhow)
    fun placed member data found =>
      nodup_placeKeys consistent whole anyhow member found (distinct placed member data found)

/-- Whole observations can be rearranged if they are consistent, since none of them writes
a slot. -/
theorem rearrangeable_of_whole
    (consistent : Consistent observations)
    (whole : ∀ observation ∈ observations, observation.reading.kind ≠ .assembled) :
    Rearrangeable observations := by
  refine ⟨consistent, List.pairwise_of_forall_mem_list ?_, ?_⟩
  · intro left leftMember right _
    have notAssembled := whole left leftMember
    rw [Observation.sameSlot, Bool.and_eq_false_iff]
    refine .inr ?_
    cases reading : left.reading with
    | slice preferSummary series part =>
        rw [reading] at notAssembled
        exact absurd rfl notAssembled
    | _ => rfl
  · intro observation member preferSummary series part reading
    have notAssembled := whole observation member
    rw [reading] at notAssembled
    exact absurd rfl notAssembled

/-- What has a condition in lists is what comes from the lists that have it, if the elements
of each list agree about it. -/
theorem flatMap_filter
    {α β : Type}
    (condition : β -> Bool)
    {listCondition : α -> Bool}
    {make : α -> List β}
    {elements : List α}
    (agree : ∀ element ∈ elements, ∀ made ∈ make element,
      condition made = listCondition element) :
    (elements.filter listCondition).flatMap make =
      (elements.flatMap make).filter condition := by
  induction elements with
  | nil => rfl
  | cons element elements inductionHypothesis =>
      obtain ⟨here, behind⟩ := List.forall_mem_cons.mp agree
      rw [List.flatMap_cons, List.filter_append, <- inductionHypothesis behind]
      cases holds : listCondition element with
      | true =>
          have all : (make element).filter condition = make element :=
            List.filter_eq_self.mpr fun made member => (here made member).trans holds
          rw [List.filter_cons_of_pos holds, List.flatMap_cons, all]
      | false =>
          have none : (make element).filter condition = [] :=
            List.filter_eq_nil_iff.mpr fun made member => by
              rw [here made member, holds]
              exact Bool.false_ne_true
          rw [List.filter_cons_of_neg (by rw [holds]; exact Bool.false_ne_true), none,
            List.nil_append]

/-- Points can come in such an order that the observations with some condition are brought
forward, if the observations of each point agree about it. -/
theorem exists_perm_broughtForward
    (schema : Schema)
    (arrivals : List Arrival)
    (condition : Observation -> Bool)
    (agree : ∀ arrival ∈ arrivals, ∀ result,
      Batch.observations schema arrival.now arrival.point = .ok result ->
        ∀ left ∈ result, ∀ right ∈ result, condition left = condition right) :
    ∃ others : List Arrival, others.Perm arrivals ∧
      Grouping.observations schema others =
        broughtForward condition (Grouping.observations schema arrivals) := by
  let said (arrival : Arrival) : List Observation :=
    (Batch.observations schema arrival.now arrival.point).toOption.getD []
  have agreeSaid : ∀ arrival ∈ arrivals, ∀ observation ∈ said arrival,
      condition observation = (said arrival).any condition := by
    intro arrival arrivalMember observation member
    have alike : ∀ left ∈ said arrival, ∀ right ∈ said arrival,
        condition left = condition right := by
      cases read : Batch.observations schema arrival.now arrival.point with
      | error error =>
          have none : said arrival = [] := by
            change (Batch.observations schema arrival.now arrival.point).toOption.getD [] = []
            rw [read]
            rfl
          rw [none] at member
          cases member
      | ok result =>
          have isSaid : said arrival = result := by
            change (Batch.observations schema arrival.now arrival.point).toOption.getD [] = _
            rw [read]
            rfl
          rw [isSaid]
          exact agree arrival arrivalMember result read
    rw [Bool.eq_iff_iff, List.any_eq_true]
    constructor
    · intro holds
      exact ⟨observation, member, holds⟩
    · rintro ⟨other, otherMember, holds⟩
      exact (alike observation member other otherMember).trans holds
  refine ⟨arrivals.filter (fun arrival => (said arrival).any condition) ++
    arrivals.filter fun arrival => !(said arrival).any condition,
    List.filter_append_perm _ arrivals, ?_⟩
  change (List.flatMap said _) = broughtForward condition (arrivals.flatMap said)
  rw [List.flatMap_append, flatMap_filter condition agreeSaid,
    flatMap_filter (fun observation => !condition observation)
      fun arrival arrivalMember observation member => by
        rw [agreeSaid arrival arrivalMember observation member]]
  rfl

end Grouping

namespace Whole

/-- The observations of a point are of one resource, and at one time with the same
attributes. -/
theorem same_of_mem_observations
    {now : UInt64}
    {point : Point}
    {result : List Observation}
    (read : observations now point = .ok result) :
    ∀ left ∈ result, ∀ right ∈ result,
      left.resource = right.resource ∧ left.reading.place = right.reading.place := by
  have ofNumbers {point : Point} {time start : UInt64} {valueField : String}
      {reading : NumberPoint -> Reading}
      (isPlaced : ∀ number, (reading number).place = (number.time, number.attributes))
      (read : numberObservations point time valueField start reading = .ok result) :
      ∀ left ∈ result, ∀ right ∈ result,
        left.resource = right.resource ∧ left.reading.place = right.reading.place := by
    intro left leftMember right rightMember
    obtain ⟨leftMetric, leftNumber, rfl⟩ := exists_of_mem_numberObservations read leftMember
    obtain ⟨rightMetric, rightNumber, rfl⟩ := exists_of_mem_numberObservations read rightMember
    refine ⟨rfl, ?_⟩
    change (reading _).place = (reading _).place
    rw [isPlaced, isPlaced]
  have ofSingle {read : Except Error Observation} (single : read.map ([·]) = .ok result) :
      ∀ left ∈ result, ∀ right ∈ result,
        left.resource = right.resource ∧ left.reading.place = right.reading.place := by
    obtain ⟨only, -, rfl⟩ := exists_of_map_eq_ok single
    intro left leftMember right rightMember
    cases List.mem_singleton.mp leftMember
    cases List.mem_singleton.mp rightMember
    exact ⟨rfl, rfl⟩
  rw [observations] at read
  cases type : typeOf point with
  | untyped =>
      rw [type] at read
      exact ofNumbers (fun _ => rfl) read
  | gauge =>
      rw [type] at read
      exact ofNumbers (fun _ => rfl) read
  | sum =>
      rw [type] at read
      exact ofNumbers (fun _ => rfl) read
  | histogram =>
      rw [type] at read
      exact ofSingle read
  | summary =>
      rw [type] at read
      exact ofSingle read

/-- The observations of points with a time are those of the points alone. -/
theorem observations_eq_flatMap
    {arrivals : List Arrival}
    (timed : ∀ arrival ∈ arrivals, arrival.point.time ≠ 0) :
    Grouping.observations .whole arrivals =
      (arrivals.map Arrival.point).flatMap fun point =>
        (observations 0 point).toOption.getD [] := by
  rw [Grouping.observations, List.flatMap_map]
  apply List.flatMap_congr
  intro arrival member
  have sameTime : arrival.point.timeOr 0 = arrival.point.timeOr arrival.now := by
    rw [Point.timeOr, Point.timeOr, if_neg (timed arrival member),
      if_neg (timed arrival member)]
  rw [Batch.observations, observations, observations, sameTime]

theorem kind_of_mem_observations
    {arrivals : List Arrival}
    {observation : Observation}
    (member : observation ∈ Grouping.observations .whole arrivals) :
    observation.reading.kind ≠ .assembled := by
  obtain ⟨arrival, -, result, read, inResult⟩ := Grouping.exists_of_mem_observations member
  exact (admissible_of_mem_observations read inResult).reading.kind_ne_assembled

end Whole

namespace Batch

open Grouping

/-- Observations are all let in exactly if those of one metric are of one kind. -/
theorem recordAll_refuses_none_iff
    {batch : Batch}
    {earlier observations : List Observation}
    (gathers : batch.Gathers (accepted earlier)) :
    (batch.recordAll observations).2 = [] ↔
      ∀ observation ∈ observations,
        refusal (earlier ++ observations) observation = none := by
  induction observations generalizing batch earlier with
  | nil => exact iff_of_true rfl fun observation member => absurd member List.not_mem_nil
  | cons observation observations inductionHypothesis =>
      have answer : (batch.record observation).2 = refusal earlier observation := by
        rw [gathers.record_answer, refusal_accepted]
      have behind := inductionHypothesis (gathers.record_accepted observation)
      rw [List.append_assoc, List.singleton_append] at behind
      rw [List.forall_mem_cons, refusal_append_cons_self, <- behind, <- answer,
        recordAll_cons]
      dsimp only
      rw [List.append_eq_nil_iff, Option.toList_eq_nil_iff]

/-- Whole points that come in another order make the same arranged tree, however they are
rearranged, exactly if no two elements of one list of the tree share the key by which the
list is arranged. This holds of points with a time, if none of their observations is
refused, and if those of one metric differ in their time or their attributes. -/
theorem arrange_run_perm_iff
    (first : List Arrival)
    (timed : ∀ arrival ∈ first, arrival.point.time ≠ 0)
    (kept : ((empty .whole).recordAll (Grouping.observations .whole first)).2 = [])
    (distinct : ∀ placed ∈ ((empty .whole).run first).1.finish.placedMetrics,
      ∀ data ∈ placed.2.data, data.places.Nodup) :
    (∀ second : List Arrival, (first.map Arrival.point).Perm (second.map Arrival.point) ->
        arrange ((empty .whole).run first).1.finish =
          arrange ((empty .whole).run second).1.finish) ↔
      ((empty .whole).run first).1.finish.KeysDistinct := by
  have startsEmpty : (empty .whole).Gathers (accepted []) := gathers_empty .whole
  have consistent : Consistent (Grouping.observations .whole first) :=
    consistent_iff.mpr ((recordAll_refuses_none_iff startsEmpty).mp kept)
  rw [finish_run] at distinct ⊢
  constructor
  · intro anyhow
    refine keysDistinct_tree_of_arrangedAnyhow consistent
      (fun observation => Whole.kind_of_mem_observations) distinct fun test => ?_
    obtain ⟨others, perm, brought⟩ :=
      exists_perm_broughtForward .whole first
        (fun observation => test observation.resource observation.reading.place)
        fun arrival _ result read left leftMember right rightMember => by
          obtain ⟨sameResource, samePlace⟩ :=
            Whole.same_of_mem_observations read left leftMember right rightMember
          rw [sameResource, samePlace]
    rw [<- brought, anyhow others (perm.symm.map Arrival.point), finish_run]
  · intro keysDistinct second perm
    have secondTimed : ∀ arrival ∈ second, arrival.point.time ≠ 0 := by
      intro arrival member
      obtain ⟨other, otherMember, same⟩ :=
        List.mem_map.mp (perm.mem_iff.mpr (List.mem_map_of_mem member))
      exact same ▸ timed other otherMember
    have observationsPerm :
        (Grouping.observations .whole first).Perm (Grouping.observations .whole second) := by
      rw [Whole.observations_eq_flatMap timed, Whole.observations_eq_flatMap secondTimed]
      exact perm.flatMap_right _
    have rearrangeable := rearrangeable_of_whole consistent fun observation =>
      Whole.kind_of_mem_observations
    rw [finish_run]
    exact Arrangement.arrange_eq_of_sameUpToOrder (rearrangeable.tree observationsPerm)
      keysDistinct

/-- Three gauges of two resources make the same arranged tree in each of their orders. -/
theorem arrange_run_perm_iff_three_gauges :
    let gauge (tags : List (String × String)) (value : Int64) : Arrival :=
      ⟨9, {
        measurement := "load"
        tags := .ofList tags
        fields := .ofList [("gauge", .int value)]
        time := 5 }⟩
    let first := [
      gauge [("host.name", "b")] 1,
      gauge [("host.name", "a"), ("cpu", "1")] 2,
      gauge [("host.name", "a"), ("cpu", "0")] 3]
    ∀ second : List Arrival, (first.map Arrival.point).Perm (second.map Arrival.point) ->
      arrange ((empty .whole).run first).1.finish =
        arrange ((empty .whole).run second).1.finish := by
  intro gauge first
  have texts : ∀ placed ∈ ((empty .whole).run first).1.finish.placedMetrics,
      ∀ data ∈ placed.2.data, (data.places.map Attribute.placeTexts).Nodup := by
    decide +kernel
  exact (arrange_run_perm_iff first (by decide +kernel) (by decide +kernel)
    fun placed member data found => (texts placed member data found).of_map).mpr
      (by decide +kernel)

/-- Two gauges that differ in their attributes, where a comma in a value makes their keys
the same, make two arranged trees: their data points stay in the order in which they came. -/
theorem arrange_run_perm_comma :
    let gauge (tags : List (String × String)) (value : Int64) : Arrival :=
      ⟨9, {
        measurement := "m"
        tags := .ofList tags
        fields := .ofList [("gauge", .int value)]
        time := 5 }⟩
    let first := [gauge [("a", "1,b=2")] 1, gauge [("a", "1"), ("b", "2")] 2]
    (first.map Arrival.point).Perm (first.reverse.map Arrival.point) ∧
      (∀ arrival ∈ first, arrival.point.time ≠ 0) ∧
      (∀ answer ∈ ((empty .whole).run first).2, answer = none) ∧
      ((empty .whole).recordAll (Grouping.observations .whole first)).2 = [] ∧
      (∀ placed ∈ ((empty .whole).run first).1.finish.placedMetrics,
        ∀ data ∈ placed.2.data, data.places.Nodup) ∧
      arrange ((empty .whole).run first).1.finish ≠
        arrange ((empty .whole).run first.reverse).1.finish := by
  intro gauge first
  have texts : ∀ placed ∈ ((empty .whole).run first).1.finish.placedMetrics,
      ∀ data ∈ placed.2.data, (data.places.map Attribute.placeTexts).Nodup := by
    decide +kernel
  refine ⟨(List.reverse_perm first).symm.map _, by decide +kernel, by decide +kernel,
    by decide +kernel,
    fun placed member data found => (texts placed member data found).of_map, ?_⟩
  intro same
  have sameTexts := congrArg (fun tree => tree.placedMetrics.map fun placed =>
    placed.2.data.map fun data => data.places.map Attribute.placeTexts) same
  exact absurd sameTexts (by decide +kernel)

end Batch
end LineMetrics
