import LineMetrics.Proofs.Acceptance
import LineMetrics.Proofs.Assembling
import LineMetrics.Proofs.SlicedReadings

/-!
# The order of arrival of sliced points

Rearranged observations have rearranged groups. Groups of slices are assembled, and
slices for different slots can be rearranged without changing what they are assembled
to. So sliced points can arrive in any order.
-/

namespace LineMetrics

variable {α β γ δ κ : Type}

namespace CorrespondUpToOrder

/-- Corresponding elements are mapped to corresponding ones. -/
theorem map
    {related : α -> β -> Prop}
    {otherRelated : γ -> δ -> Prop}
    {left : List α}
    {right : List β}
    {fromLeft : α -> γ}
    {fromRight : β -> δ}
    (correspond : CorrespondUpToOrder related left right)
    (preserved : ∀ first ∈ left, ∀ second ∈ right,
      related first second -> otherRelated (fromLeft first) (fromRight second)) :
    CorrespondUpToOrder otherRelated (left.map fromLeft) (right.map fromRight) := by
  obtain ⟨arranged, perm, related⟩ := correspond
  refine ⟨arranged.map fromLeft, perm.map fromLeft, ?_⟩
  rw [List.forall₂_map_left_iff, List.forall₂_map_right_iff]
  refine List.forall₂_iff_zip.mpr ⟨related.length_eq, fun {first second} paired => ?_⟩
  have members := List.of_mem_zip paired
  exact preserved first (perm.mem_iff.mpr members.1) second members.2
    (List.forall₂_zip related paired)

/-- Lists whose elements are the same in some order are rearranged. -/
theorem perm
    {left right : List α}
    (correspond : CorrespondUpToOrder Eq left right) :
    left.Perm right := by
  obtain ⟨arranged, perm, same⟩ := correspond
  rw [List.forall₂_eq_eq_eq] at same
  exact same ▸ perm

end CorrespondUpToOrder

/-- Rearranged elements have the same groups up to order, each of them rearranged. -/
theorem groups_perm
    [DecidableEq κ]
    {elements others : List α}
    (key : α -> κ)
    (perm : elements.Perm others) :
    CorrespondUpToOrder (fun left right => left.1 = right.1 ∧ left.2.Perm right.2)
      (groups key elements) (groups key others) := by
  have keys : ((elements.map key).eraseDups).Perm ((others.map key).eraseDups) := by
    rw [List.perm_ext_iff_of_nodup (nodup_eraseDups _) (nodup_eraseDups _)]
    intro group
    rw [List.mem_eraseDups, List.mem_eraseDups]
    exact (perm.map key).mem_iff
  refine ⟨_, keys.map _, ?_⟩
  rw [groups, List.forall₂_map_left_iff, List.forall₂_map_right_iff, List.forall₂_same]
  intro group _
  exact ⟨rfl, perm.filter _⟩

theorem Reading.eq_toReading_of_slice?
    {reading : Reading}
    {part : SeriesSlice}
    (found : reading.slice? = some part) :
    reading = part.toReading := by
  cases reading <;> cases found
  rfl

namespace Grouping

/-- Slices that are for different slots if they are of one series. -/
def SeriesSlotsDiffer (parts : List SeriesSlice) : Prop :=
  parts.Pairwise fun left right =>
    left.series = right.series -> left.slice.sameSlot right.slice = false

/-- The group of a series has slices for different slots. -/
theorem SeriesSlotsDiffer.differentSlots
    {parts : List SeriesSlice}
    (differ : SeriesSlotsDiffer parts)
    (series : Series) :
    DifferentSlots (parts.filter fun part => part.series = series) := by
  apply (List.Pairwise.filter _ differ).imp_of_mem
  intro left right leftMember rightMember slots
  have leftSeries := of_decide_eq_true (List.mem_filter.mp leftMember).2
  have rightSeries := of_decide_eq_true (List.mem_filter.mp rightMember).2
  exact slots (leftSeries.trans rightSeries.symm)

/-- Rearranged slices make the same data points in some order. -/
theorem assembledData_sameUpToOrder
    {parts others : List SeriesSlice}
    (perm : parts.Perm others)
    (differ : SeriesSlotsDiffer parts)
    (numbers : ∀ part ∈ parts, part.slice.sameSlot part.slice = true) :
    (assembledData parts).SameUpToOrder (assembledData others) := by
  have rearranged {series : Series} {group other : List SeriesSlice}
      (member : (series, group) ∈ groups SeriesSlice.series parts)
      (permGroup : group.Perm other) :
      (assemble group).Rearranged (assemble other) := by
    have members : group = parts.filter fun part => part.series = series :=
      (mem_groups_iff.mp member).2
    refine rearranged_of_perm permGroup ?_ ?_
    · rw [members]
      exact differ.differentSlots series
    · intro part partMember
      rw [members] at partMember
      exact numbers part (List.mem_filter.mp partMember).1
  have correspond := groups_perm SeriesSlice.series perm
  rw [assembledData, assembledData, perm.any_eq]
  split
  · refine (correspond.map ?_).perm
    rintro ⟨series, group⟩ member ⟨_, other⟩ _ ⟨rfl, permGroup⟩
    exact (rearranged member permGroup).toSummaryPoint_eq series
  · refine ⟨(correspond.map ?_).perm, rfl⟩
    rintro ⟨series, group⟩ member ⟨_, other⟩ _ ⟨rfl, permGroup⟩
    exact (rearranged member permGroup).toHistogramPoint_eq series

/-- Readings that write different slots, each with a number for its place. -/
structure SlotsDiffer (readings : List Reading) : Prop where
  different : readings.Pairwise fun left right => left.sameSlot right = false
  numbers : ∀ preferSummary series part,
    .slice preferSummary series part ∈ readings -> part.sameSlot part = true

/-- Rearranged readings make the same data up to the order of data points. -/
theorem dataOf_sameUpToOrder
    {readings others : List Reading}
    (kind : MetricKind)
    (perm : readings.Perm others)
    (differ : SlotsDiffer readings) :
    (dataOf kind readings).SameUpToOrder (dataOf kind others) := by
  cases kind with
  | gauge => exact perm.filterMap _
  | sum temporality => exact ⟨perm.filterMap _, rfl, rfl⟩
  | whole distribution =>
      cases distribution with
      | histogram => exact ⟨perm.filterMap _, rfl⟩
      | summary => exact perm.filterMap _
  | assembled =>
      refine assembledData_sameUpToOrder (perm.filterMap _) ?_ ?_
      · rw [SeriesSlotsDiffer, List.pairwise_filterMap]
        refine differ.different.imp fun slots left leftFound right rightFound same => ?_
        rw [Reading.eq_toReading_of_slice? leftFound,
          Reading.eq_toReading_of_slice? rightFound] at slots
        simpa [SeriesSlice.toReading, Reading.sameSlot, same] using slots
      · intro part member
        obtain ⟨reading, readingMember, found⟩ := List.mem_filterMap.mp member
        rw [Reading.eq_toReading_of_slice? found] at readingMember
        exact differ.numbers _ _ _ readingMember

/-- Rearranged observations of one kind make the same metric up to the order of data
points. -/
theorem metricOf_sameUpToOrder
    {observations others : List Observation}
    (name : String)
    (perm : observations.Perm others)
    (sameKind : ∀ left ∈ observations, ∀ right ∈ observations,
      left.reading.kind = right.reading.kind)
    (differ : SlotsDiffer (observations.map Observation.reading)) :
    (metricOf name observations).SameUpToOrder (metricOf name others) := by
  refine ⟨rfl, ?_⟩
  rw [metricOf, metricOf]
  cases observations with
  | nil =>
      cases perm.nil_eq
      exact .none
  | cons first rest =>
      cases others with
      | nil => cases perm.symm.nil_eq
      | cons otherFirst otherRest =>
          have otherMember := perm.mem_iff.mpr (List.mem_cons_self (a := otherFirst))
          rw [List.head?_cons, List.head?_cons, Option.map_some, Option.map_some,
            sameKind first List.mem_cons_self otherFirst otherMember]
          exact .some (dataOf_sameUpToOrder _ (perm.map _) differ)

/-- Observations that are consistent and write different slots, each with a number for
its place. -/
structure Rearrangeable (observations : List Observation) : Prop where
  consistent : Consistent observations
  different : observations.Pairwise fun left right => left.sameSlot right = false
  numbers : ∀ observation ∈ observations, ∀ preferSummary series part,
    observation.reading = .slice preferSummary series part -> part.sameSlot part = true

/-- Some of rearrangeable observations, in their order, are rearrangeable. -/
theorem Rearrangeable.group
    [DecidableEq κ]
    {key : Observation -> κ}
    {observations : List Observation}
    {group : κ × List Observation}
    (rearrangeable : Rearrangeable observations)
    (member : group ∈ groups key observations) :
    Rearrangeable group.2 := by
  rw [(mem_groups_iff.mp member).2]
  refine ⟨?_, rearrangeable.different.filter _, ?_⟩
  · exact rearrangeable.consistent.subset (List.filter_subset_self _)
  · intro observation filtered
    exact rearrangeable.numbers observation (List.mem_filter.mp filtered).1

/-- Rearranged observations of one metric make the same metric up to the order of data
points. -/
theorem Rearrangeable.metricOf
    {resource : Tags}
    {scope : Scope}
    {name : String}
    {observations others : List Observation}
    (rearrangeable : Rearrangeable observations)
    (perm : observations.Perm others)
    (ofMetric : OfMetric resource scope name observations) :
    (metricOf name observations).SameUpToOrder (metricOf name others) := by
  refine metricOf_sameUpToOrder name perm (ofMetric.kind_eq rearrangeable.consistent)
    ⟨?_, ?_⟩
  · rw [List.pairwise_map]
    apply rearrangeable.different.imp_of_mem
    intro left right leftMember rightMember slots
    rw [Observation.sameSlot, ofMetric.sameMetric left leftMember right rightMember] at slots
    exact slots
  · intro preferSummary series part member
    obtain ⟨observation, observationMember, reading⟩ := List.mem_map.mp member
    exact rearrangeable.numbers observation observationMember preferSummary series part
      reading

/-- Rearranged observations of one scope make the same scope up to order. -/
theorem Rearrangeable.scopeOf
    {resource : Tags}
    {scope : Scope}
    {observations others : List Observation}
    (rearrangeable : Rearrangeable observations)
    (perm : observations.Perm others)
    (ofScope : OfScope resource scope observations) :
    (scopeOf scope observations).SameUpToOrder (scopeOf scope others) := by
  refine ⟨rfl, (groups_perm Observation.metric perm).map ?_⟩
  rintro ⟨metric, members⟩ member ⟨_, others⟩ _ ⟨rfl, permMembers⟩
  exact (rearrangeable.group member).metricOf permMembers (ofScope.ofMetric member)

/-- Rearranged observations of one resource make the same resource up to order. -/
theorem Rearrangeable.resourceOf
    {resource : Tags}
    {observations others : List Observation}
    (rearrangeable : Rearrangeable observations)
    (perm : observations.Perm others)
    (ofResource : OfResource resource observations) :
    (resourceOf resource observations).SameUpToOrder (resourceOf resource others) := by
  refine ⟨rfl, (groups_perm Observation.scope perm).map ?_⟩
  rintro ⟨scope, members⟩ member ⟨_, others⟩ _ ⟨rfl, permMembers⟩
  exact (rearrangeable.group member).scopeOf permMembers (ofResource.ofScope member)

/-- Rearranged observations make the same tree up to order. -/
theorem Rearrangeable.tree
    {observations others : List Observation}
    (rearrangeable : Rearrangeable observations)
    (perm : observations.Perm others) :
    (tree observations).SameUpToOrder (tree others) := by
  have othersConsistent : Consistent others :=
    rearrangeable.consistent.subset perm.symm.subset
  rw [Grouping.tree, Grouping.tree, rearrangeable.consistent.accepted_eq,
    othersConsistent.accepted_eq]
  apply (groups_perm Observation.resource perm).map
  rintro ⟨resource, members⟩ member ⟨_, others⟩ _ ⟨rfl, permMembers⟩
  exact (rearrangeable.group member).resourceOf permMembers (ofResource_of_mem_groups member)

end Grouping

namespace Slice

/-- A slice that can be read has a number for its place. -/
theorem IsReadable.sameSlot_self
    {metric : String}
    {slice : Slice}
    (readable : slice.IsReadable metric) :
    slice.sameSlot slice = true := by
  cases slice with
  | bucket bound count => exact Binary64.sameNumber_self readable
  | quantile place value =>
      exact Binary64.sameNumber_self (Binary64.isNaN_of_isFinite readable.1)
  | total count sum => rfl

end Slice

namespace Grouping

/-- Consistent observations of points with a time can be rearranged, if they write
different slots. -/
theorem rearrangeable_observations
    {arrivals : List Arrival}
    (timed : ∀ arrival ∈ arrivals, arrival.point.time ≠ 0)
    (consistent : Consistent (observations .sliced arrivals))
    (different : (observations .sliced arrivals).Pairwise fun left right =>
      left.sameSlot right = false) :
    Rearrangeable (observations .sliced arrivals) := by
  refine ⟨consistent, different, ?_⟩
  intro observation member preferSummary series part reading
  have reads := (Sliced.admissible_of_mem_observations timed member).reading
  rw [reading] at reads
  cases reads with
  | slice _ _ _ _ _ readable => exact readable.sameSlot_self

end Grouping

namespace Batch

/-- Sliced points that are all accepted and write different slots are all accepted in
any other order, and finish as the same tree up to the order of resources, scopes,
metrics and data points. -/
theorem run_perm_sameUpToOrder
    (first second : List Arrival)
    (perm : (first.map Arrival.point).Perm (second.map Arrival.point))
    (timed : ∀ arrival ∈ first, arrival.point.time ≠ 0)
    (accepted : ∀ answer ∈ ((empty .sliced).run first).2, answer = none)
    (different :
      (Grouping.observations .sliced first).Pairwise fun left right =>
        left.sameSlot right = false) :
    (∀ answer ∈ ((empty .sliced).run second).2, answer = none) ∧
      MetricTree.SameUpToOrder
        ((empty .sliced).run first).1.finish
        ((empty .sliced).run second).1.finish := by
  rw [run_empty_sliced_accepts_iff] at accepted ⊢
  obtain ⟨firstRead, consistent⟩ := accepted
  have inFirst (arrival : Arrival) (member : arrival ∈ second) :
      ∃ other ∈ first, other.point = arrival.point :=
    List.mem_map.mp (perm.mem_iff.mpr (List.mem_map_of_mem member))
  have secondTimed (arrival : Arrival) (member : arrival ∈ second) :
      arrival.point.time ≠ 0 := by
    obtain ⟨other, otherMember, same⟩ := inFirst arrival member
    exact same ▸ timed other otherMember
  have observationsPerm :
      (Grouping.observations .sliced first).Perm (Grouping.observations .sliced second) := by
    rw [Sliced.observations_eq_flatMap timed, Sliced.observations_eq_flatMap secondTimed]
    exact perm.flatMap_right _
  have rearrangeable := Grouping.rearrangeable_observations timed consistent different
  refine ⟨⟨?_, consistent.subset observationsPerm.symm.subset⟩, ?_⟩
  · intro arrival member
    obtain ⟨other, otherMember, same⟩ := inFirst arrival member
    rw [<- same, Sliced.observations_eq_of_timed arrival.now other.now (timed other otherMember)]
    exact firstRead other otherMember
  · rw [finish_run, finish_run]
    exact rearrangeable.tree observationsPerm

/-- The total and two buckets of a histogram make a data point with two counts. In another
order they make the same tree. -/
theorem run_perm_three_slices :
    let slice (tags : List (String × String)) (fields : List (String × FieldValue)) : Arrival :=
      ⟨9, {
        measurement := "prometheus"
        tags := .ofList tags
        fields := .ofList fields
        time := 5 }⟩
    let total := slice [] [("rpc_count", .int 3), ("rpc_sum", .int 8)]
    let bucket := slice [("le", "1")] [("rpc_bucket", .int 2)]
    let last := slice [("le", "+Inf")] [("rpc_bucket", .int 3)]
    let rpc : HistogramPoint := {
      time := 5
      count := 3
      sum := some ⟨0x4020000000000000⟩
      counts := [2, 1]
      bounds := [⟨0x3FF0000000000000⟩] }
    ((empty .sliced).run [total, bucket, last]).1.finish =
        [⟨some [], [⟨some ⟨"", ""⟩, [
          ⟨"rpc", some <| .histogram [rpc] Temporality.cumulative.code⟩]⟩]⟩] ∧
      (∀ answer ∈ ((empty .sliced).run [last, total, bucket]).2, answer = none) ∧
      MetricTree.SameUpToOrder
        ((empty .sliced).run [total, bucket, last]).1.finish
        ((empty .sliced).run [last, total, bucket]).1.finish := by
  intro slice total bucket last rpc
  exact ⟨by decide +kernel, run_perm_sameUpToOrder [total, bucket, last] [last, total, bucket]
    (by decide +kernel) (by decide +kernel) (by decide +kernel) (by decide +kernel)⟩

end Batch
end LineMetrics
