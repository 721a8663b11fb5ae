import LineMetrics.Outline
import LineMetrics.Proofs.NumberRecords
import LineMetrics.Proofs.WholePoints
import LineMetrics.Proofs.WrittenMetrics

/-!
# Counters with any tags as whole points

The tags of a data point of a counter come from its resource, its scope and its attributes,
whatever these are, and one tag of a whole point selects the temporality of a counter. A
running total whose points do not have this tag comes back with all of its tags. A point
that has it loses it, and may come back as a delta.
-/

namespace LineMetrics

/-- Removing a tag that is missing or has no value changes none with a value. -/
theorem nonemptyTags_erase
    {tags : Tags}
    {key : String}
    (noValue : (tags.find? key).getD "" = "") :
    nonemptyTags (tags.erase key) = nonemptyTags tags := by
  apply Dictionary.ext_find?
  intro other
  rw [find?_nonemptyTags, find?_nonemptyTags, Dictionary.find?_erase]
  by_cases same : other = key
  · subst same
    rw [if_pos rfl]
    cases found : tags.find? other with
    | none => rfl
    | some value =>
        rw [found, Option.getD_some] at noValue
        simp [noValue, Option.filter_some]
  · rw [if_neg same]

namespace Whole

variable {placement : Placement} {metric : String} {points : List NumberPoint}

/-- The tag for the temporality of a counter is missing or has no value. -/
def isUnmarked (tags : Tags) : Bool := (tags.find? ReservedName.temporality).getD "" = ""

/-- The temporality of a counter that is not marked. -/
theorem temporalityOf_of_isUnmarked {tags : Tags} (unmarked : isUnmarked tags = true) :
    temporalityOf tags = .cumulative := by
  rw [temporalityOf, if_neg]
  intro isDelta
  rw [isUnmarked, isDelta] at unmarked
  cases unmarked

/-- The point of a data point of a running total. -/
def totalLine (placement : Placement) (metric : String) (point : NumberPoint) : Point :=
  (bare placement metric point.attributes point.time .sum).withField ReservedName.counter
    (.ofNumber (point.value.getD (.int 0)))

/-- What the point of a data point of a running total says. -/
def lineSaid (placement : Placement) (metric : String) (point : NumberPoint) : Observation :=
  let tags := placement.tags point.attributes
  let levels := TagLevels.split (tags.erase ReservedName.temporality)
  .under levels metric <|
    .sum (temporalityOf tags)
      ⟨Attribute.ofTags levels.attributes, 0, point.time, point.value⟩

/-- Running totals with values are written as their points. -/
theorem points_totals (valued : ∀ point ∈ points, point.value.isSome) :
    Whole.points placement metric (.sum points Temporality.cumulative.code true) =
      .ok (points.map (totalLine placement metric)) := by
  rw [Whole.points, sumPoints, Temporality.ofCode?_code]
  refine mapM_eq_ok fun point member => ?_
  obtain ⟨number, hasNumber⟩ := Option.isSome_iff_exists.mp (valued point member)
  rw [counterPoint, NumberPoint.requireValue, totalLine, hasNumber]
  rfl

/-- The point of a data point with a value and a time says its number. -/
theorem says_totalLine
    {point : NumberPoint}
    (valued : point.value.isSome)
    (timed : point.time ≠ 0) :
    Batch.Says .whole (totalLine placement metric point) (lineSaid placement metric point) := by
  obtain ⟨number, hasNumber⟩ := Option.isSome_iff_exists.mp valued
  have found :
      (totalLine placement metric point).fields.find? ReservedName.counter =
        some (.ofNumber number) := by
    rw [totalLine, hasNumber]
    exact (Dictionary.find?_insert _ _ _ _).trans (if_pos rfl)
  have timedHere : (totalLine placement metric point).time ≠ 0 := timed
  rw [lineSaid, hasNumber]
  exact says_counter rfl timedHere rfl rfl rfl found

/-- What a point says has all of its tags with values, but for the one that selects the
temporality. -/
theorem record?_lineSaid (placement : Placement) (metric : String) (point : NumberPoint) :
    Grouping.record? (lineSaid placement metric point) =
      some ⟨nonemptyTags ((placement.tags point.attributes).erase ReservedName.temporality),
        point.time, point.value⟩ := by
  have keyed :
      ((placement.tags point.attributes).erase ReservedName.temporality).find? "" = none := by
    rw [Dictionary.find?_erase, Placement.tags, TagLevels.find?_merge_empty, ite_self]
  rw [<- TagLevels.nonemptyTags_merge_split keyed]
  rfl

/-- The records of what points say, in their order. -/
theorem filterMap_record?_lineSaid
    (placement : Placement)
    (metric : String)
    (points : List NumberPoint) :
    (points.map (lineSaid placement metric)).filterMap Grouping.record? =
      points.map fun point =>
        ⟨nonemptyTags ((placement.tags point.attributes).erase ReservedName.temporality),
          point.time, point.value⟩ := by
  rw [List.filterMap_map, <- List.filterMap_eq_map]
  exact List.filterMap_congr fun point _ => record?_lineSaid placement metric point

end Whole

namespace Grouping

open Whole

variable {placement : Placement} {metric : String} {points : List NumberPoint}

/-- What the points of a running total say without marks is of one kind. -/
theorem kind_of_mem_lineSaid
    (unmarked : ∀ point ∈ points, isUnmarked (placement.tags point.attributes) = true)
    {observation : Observation}
    (member : observation ∈ points.map (lineSaid placement metric)) :
    observation.metric = metric ∧ observation.reading.kind = .sum .cumulative := by
  obtain ⟨point, pointMember, rfl⟩ := List.mem_map.mp member
  exact ⟨rfl, congrArg MetricKind.sum (temporalityOf_of_isUnmarked (unmarked point pointMember))⟩

/-- Points of a running total without marks say consistent observations, and these make a
tree that keeps it. -/
theorem keepsCounter_tree
    (unmarked : ∀ point ∈ points, isUnmarked (placement.tags point.attributes) = true) :
    Consistent (points.map (lineSaid placement metric)) ∧
      (tree (points.map (lineSaid placement metric))).KeepsCounter metric
        (points.map (NumberPoint.record placement)) := by
  have consistent : Consistent (points.map (lineSaid placement metric)) := by
    intro left leftMember right rightMember _
    rw [(kind_of_mem_lineSaid unmarked leftMember).2,
      (kind_of_mem_lineSaid unmarked rightMember).2]
  refine ⟨consistent, fun placed member => ?_, ?_⟩
  · rw [placedMetrics_tree, consistent.accepted_eq] at member
    obtain ⟨group, groupMember, rfl⟩ := List.mem_map.mp member
    obtain ⟨kind, sameKind, data⟩ := exists_kind_of_mem_metricGroups consistent groupMember
    obtain ⟨first, firstMember⟩ :=
      List.exists_mem_of_ne_nil _ (of_mem_metricGroups groupMember).2
    obtain ⟨isMetric, isRunning⟩ :=
      kind_of_mem_lineSaid unmarked (mem_of_mem_metricGroups groupMember firstMember)
    obtain rfl := (sameKind first firstMember).symm.trans isRunning
    have named : group.name = metric :=
      (ofMetric_of_mem_metricGroups groupMember first firstMember).2.2.symm.trans isMetric
    refine ⟨(group.members.map Observation.reading).filterMap Reading.number?, ?_⟩
    change group.metric = _
    rw [<- named]
    exact congrArg (Metric.mk group.name) data
  · have records :
        (points.map (lineSaid placement metric)).filterMap record? =
          points.map (NumberPoint.record placement) := by
      rw [filterMap_record?_lineSaid]
      refine List.map_congr_left fun point member => ?_
      rw [nonemptyTags_erase (of_decide_eq_true (unmarked point member))]
      rfl
    rw [<- records]
    exact perm_numberRecords_tree consistent

/-- A tree of what the points of a running total say does not have a tag with a value that
selects the temporality. So it keeps the running total only without such marks. -/
theorem isUnmarked_of_keepsCounter
    (consistent : Consistent (points.map (lineSaid placement metric)))
    (keeps : (tree (points.map (lineSaid placement metric))).KeepsCounter metric
      (points.map (NumberPoint.record placement))) :
    ∀ point ∈ points, isUnmarked (placement.tags point.attributes) = true := by
  intro point member
  have records := keeps.records.symm.trans (perm_numberRecords_tree consistent)
  rw [filterMap_record?_lineSaid] at records
  obtain ⟨other, -, same⟩ :=
    List.mem_map.mp (records.mem_iff.mp (List.mem_map_of_mem member))
  have tags := congrArg (fun record => record.tags.find? ReservedName.temporality) same
  dsimp only [NumberPoint.record] at tags
  rw [find?_nonemptyTags, find?_nonemptyTags, Dictionary.find?_erase, if_pos rfl] at tags
  rw [isUnmarked, decide_eq_true_eq]
  cases found : (placement.tags point.attributes).find? ReservedName.temporality with
  | none => rfl
  | some value =>
      rw [found] at tags
      simpa [Option.filter_some] using tags

end Grouping

namespace Batch

open Grouping Whole

/-- A running total with values and times is written as whole points, one for each data
point, with the tags of its place. A batch accepts all of these points and keeps the
running total with all tags that have a value exactly if none of the points has a value
for the tag that selects the temporality. -/
theorem run_writeMetric_counter_iff
    (placement : Placement)
    (metric : String)
    (points : List NumberPoint)
    (valued : ∀ point ∈ points, point.value.isSome)
    (timed : ∀ point ∈ points, point.time ≠ 0) :
    ∃ written : List Point,
      Export.writeMetric .whole PointWriter.collecting placement
          ⟨metric, some (.sum points Temporality.cumulative.code true)⟩ [] =
        (written.reverse, .ok written.length) ∧
      (written.map fun point => (point.tags, point.time)) =
        (points.map fun point => (placement.tags point.attributes, point.time)) ∧
      ∀ returning : List Arrival, returning.map Arrival.point = written ->
        ((∀ answer ∈ ((empty .whole).run returning).2, answer = none) ∧
            ((empty .whole).run returning).1.finish.KeepsCounter metric
              (points.map (NumberPoint.record placement)) ↔
          ∀ point ∈ written, isUnmarked point.tags = true) := by
  refine ⟨points.map (totalLine placement metric), ?_, List.map_map, fun returning same => ?_⟩
  · rw [Export.writeMetric, Metric.points]
    dsimp only
    rw [points_totals valued]
    dsimp only
    rw [PointWriter.writeAll_collecting, List.append_nil]
    rfl
  · have said :
        List.Forall₂ (Says .whole) (returning.map Arrival.point)
          (points.map (lineSaid placement metric)) := by
      rw [same, List.forall₂_map_left_iff, List.forall₂_map_right_iff, List.forall₂_same]
      exact fun point member => says_totalLine (valued point member) (timed point member)
    rw [List.forall_mem_map, run_accepts_iff_consistent said, finish_run,
      observations_eq_of_says said]
    constructor
    · rintro ⟨consistent, keeps⟩
      exact isUnmarked_of_keepsCounter consistent keeps
    · exact keepsCounter_tree

/-- Two data points are kept with all tags that have a value, though one of them has an
attribute with the key of a resource and one an empty tag for the temporality. -/
theorem run_writeMetric_counter_iff_unmarked :
    let placement : Placement := {
      resource := [.ofText "host.name" "a", .ofText "" "b", ⟨"rack", .int 7⟩]
      scope := some ⟨"lib", ""⟩ }
    let points : List NumberPoint := [
      { attributes := [.ofText "service.name" "c", .ofText "le" "1"]
        start := 3
        time := 5
        value := some (.int 2) },
      { attributes := [.ofText "temporality" "", .ofText "otel.library.name" "d"]
        time := 6
        value := some (.int 4) }]
    (∀ point ∈ points, point.value.isSome) ∧
      (∀ point ∈ points, point.time ≠ 0) ∧
      ∃ written : List Point,
        Export.writeMetric .whole PointWriter.collecting placement
            ⟨"sent", some (.sum points Temporality.cumulative.code true)⟩ [] =
          (written.reverse, .ok written.length) ∧
        ∀ returning : List Arrival, returning.map Arrival.point = written ->
          (∀ answer ∈ ((empty .whole).run returning).2, answer = none) ∧
            ((empty .whole).run returning).1.finish.KeepsCounter "sent"
              (points.map (NumberPoint.record placement)) := by
  intro placement points
  have valued : ∀ point ∈ points, point.value.isSome := by decide +kernel
  have timed : ∀ point ∈ points, point.time ≠ 0 := by decide +kernel
  have unmarked : ∀ pair ∈ points.map fun point => (placement.tags point.attributes, point.time),
      isUnmarked pair.1 = true := by decide +kernel
  obtain ⟨written, success, tags, returned⟩ :=
    run_writeMetric_counter_iff placement "sent" points valued timed
  rw [<- tags, List.forall_mem_map] at unmarked
  exact ⟨valued, timed, written, success, fun returning same =>
    (returned returning same).mpr unmarked⟩

/-- A running total with an attribute that selects the temporality of a counter comes back
as a delta. -/
theorem run_writeMetric_counter_marked :
    let points : List NumberPoint := [{
      attributes := [.ofText "temporality" "delta"]
      time := 5
      value := some (.int 2) }]
    let written := (Export.writeMetric .whole PointWriter.collecting {}
      ⟨"sent", some (.sum points Temporality.cumulative.code true)⟩ []).1.reverse
    let returning := written.map fun point => (⟨9, point⟩ : Arrival)
    (∀ point ∈ points, point.value.isSome) ∧
      (∀ point ∈ points, point.time ≠ 0) ∧
      ¬((∀ answer ∈ ((empty .whole).run returning).2, answer = none) ∧
        ((empty .whole).run returning).1.finish.KeepsCounter "sent"
          (points.map (NumberPoint.record {}))) := by
  intro points written returning
  have isDelta :
      ((empty .whole).run returning).1.finish.anyData MetricData.isDelta = true := by
    decide +kernel
  refine ⟨by decide +kernel, by decide +kernel, ?_⟩
  rintro ⟨-, keeps⟩
  obtain ⟨placed, member, delta⟩ := List.any_eq_true.mp isDelta
  obtain ⟨others, isRunning⟩ := keeps.metrics placed member
  rw [isRunning] at delta
  cases delta

end Batch
end LineMetrics
