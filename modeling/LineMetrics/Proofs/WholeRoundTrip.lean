import LineMetrics.Proofs.Regrouping
import LineMetrics.Proofs.WholePoints
import LineMetrics.Proofs.WrittenMetrics
import LineMetrics.Proofs.WrittenTrees

/-!
# There and back with whole points

Each data point that whole points can hold is conveyed by one point, so the points of a
metric say its readings, but for the start times of running totals. A batch that takes
the points of a tree accepts all of them and finishes as that tree without these start
times.
-/

namespace LineMetrics

namespace Reading

@[simp] theorem kind_withoutRunningStart (reading : Reading) :
    reading.withoutRunningStart.kind = reading.kind := by
  cases reading with
  | sum temporality point => cases temporality <;> rfl
  | gauge point => rfl
  | histogram point => rfl
  | summary point => rfl
  | slice preferSummary series slice => rfl

/-- A reading of another kind keeps its start time. -/
theorem withoutRunningStart_eq_self
    {reading : Reading}
    (otherKind : reading.kind ≠ .sum .cumulative) :
    reading.withoutRunningStart = reading := by
  cases reading with
  | sum temporality point =>
      cases temporality with
      | delta => rfl
      | cumulative => exact absurd rfl otherKind
  | gauge point => rfl
  | histogram point => rfl
  | summary point => rfl
  | slice preferSummary series slice => rfl

/-- The data point of a running total loses its start time. -/
theorem number?_withoutRunningStart
    {reading : Reading}
    (running : reading.kind = .sum .cumulative) :
    reading.withoutRunningStart.number? = reading.number?.map NumberPoint.withoutStart := by
  cases reading with
  | sum temporality point =>
      cases running
      rfl
  | gauge point => cases running
  | histogram point => cases running
  | summary point => cases running
  | slice preferSummary series slice => cases running

end Reading

namespace Whole

/-- What a whole point with a time says about a metric. -/
def CanSay (reading : Reading) : Prop := ∃ time, time ≠ 0 ∧ Reads time reading

section Metric

variable {resource : Tags} {scope : Scope} {metric : String} {readings : List Reading}

/-- The points say what whole points keep of the readings. -/
def SayReadings
    (resource : Tags)
    (scope : Scope)
    (metric : String)
    (points : List Point)
    (readings : List Reading) : Prop :=
  List.Forall₂ (Batch.Says .whole) points <|
    readings.map fun reading => ⟨resource, scope, metric, reading.withoutRunningStart⟩

/-- The levels of a data point with attributes under a resource and a scope. -/
theorem separated_levels
    {tags : Tags}
    (scope : Scope)
    (separated : ∀ key, resource.contains key -> TagLevels.isResourceLevel key)
    (attributes : ∀ key, tags.contains key -> TagLevels.isAttributeLevel key) :
    TagLevels.Separated ⟨resource, scope, tags⟩ := ⟨separated, attributes⟩

/-- The data points of a gauge are conveyed. -/
theorem exists_gaugePoints
    (separated : ∀ key, resource.contains key -> TagLevels.isResourceLevel key)
    (sameKind : ∀ reading ∈ readings, reading.kind = .gauge)
    (canSay : ∀ reading ∈ readings, CanSay reading) :
    ∃ points,
      (readings.filterMap Reading.number?).mapM
          (gaugePoint (.of resource scope) metric) = .ok points ∧
        SayReadings resource scope metric points readings := by
  apply exists_mapM_eq_ok
  intro reading member
  have isGauge := sameKind reading member
  obtain ⟨time, timed, reads⟩ := canSay reading member
  cases reads with
  | gauge tags number attributes =>
      obtain ⟨point, converted, said⟩ :=
        conveys_gaugePoint number (separated_levels scope separated attributes) timed
      exact ⟨_, point, rfl, converted, said⟩
  | sum => cases isGauge
  | histogram => cases isGauge
  | summary => cases isGauge

/-- The data points of a counter are conveyed, those of a running total without their
start times. -/
theorem exists_counterPoints
    {temporality : Temporality}
    (separated : ∀ key, resource.contains key -> TagLevels.isResourceLevel key)
    (sameKind : ∀ reading ∈ readings, reading.kind = .sum temporality)
    (canSay : ∀ reading ∈ readings, CanSay reading)
    (fits : temporality = .delta ->
      ∀ point ∈ readings.filterMap Reading.number?, point.fitsWhole = true) :
    ∃ points,
      (readings.filterMap Reading.number?).mapM
          (counterPoint (.of resource scope) metric temporality) = .ok points ∧
        SayReadings resource scope metric points readings := by
  apply exists_mapM_eq_ok
  intro reading member
  have isSum := sameKind reading member
  obtain ⟨time, timed, reads⟩ := canSay reading member
  cases reads with
  | gauge => cases isSum
  | sum other tags start number attributes unmarked =>
      obtain rfl : other = temporality := MetricKind.sum.inj isSum
      have levels := separated_levels scope separated attributes
      cases other with
      | delta =>
          have startFits : start.toNat < 2 ^ 63 :=
            of_decide_eq_true (fits rfl _ (List.mem_filterMap.mpr ⟨_, member, rfl⟩))
          obtain ⟨point, converted, said⟩ :=
            conveys_deltaPoint number startFits levels unmarked timed
          exact ⟨_, point, rfl, converted, said⟩
      | cumulative =>
          obtain ⟨point, converted, said⟩ :=
            conveys_cumulativePoint number start levels unmarked timed
          exact ⟨_, point, rfl, converted, said⟩
  | histogram => cases isSum
  | summary => cases isSum

/-- The data points of a histogram are conveyed. -/
theorem exists_histogramPoints
    (separated : ∀ key, resource.contains key -> TagLevels.isResourceLevel key)
    (sameKind : ∀ reading ∈ readings, reading.kind = .whole .histogram)
    (canSay : ∀ reading ∈ readings, CanSay reading)
    (fits : ∀ point ∈ readings.filterMap Reading.histogram?, point.fitsWhole = true) :
    ∃ points,
      (readings.filterMap Reading.histogram?).mapM
          (histogramPoint (.of resource scope) metric) = .ok points ∧
        SayReadings resource scope metric points readings := by
  apply exists_mapM_eq_ok
  intro reading member
  have isHistogram := sameKind reading member
  obtain ⟨time, timed, reads⟩ := canSay reading member
  cases reads with
  | gauge => cases isHistogram
  | sum => cases isHistogram
  | histogram tags count sum buckets attributes finite ordered =>
      have length := HistogramPoint.length_counts_ofBuckets (Attribute.ofTags tags) time count
        (some sum) buckets
      have someBuckets := List.isEmpty_eq_false_iff.mpr (List.ne_nil_of_length_eq_add_one length)
      obtain ⟨point, converted, said⟩ :=
        conveys_histogramPoint (separated_levels scope separated attributes) rfl rfl timed rfl
          ⟨ordered, finite, .inr length⟩ someBuckets
          (fits _ (List.mem_filterMap.mpr ⟨_, member, rfl⟩))
      exact ⟨_, point, rfl, converted, said⟩
  | summary => cases isHistogram

/-- The data points of a summary are conveyed. -/
theorem exists_summaryPoints
    (separated : ∀ key, resource.contains key -> TagLevels.isResourceLevel key)
    (sameKind : ∀ reading ∈ readings, reading.kind = .whole .summary)
    (canSay : ∀ reading ∈ readings, CanSay reading)
    (fits : ∀ point ∈ readings.filterMap Reading.summary?, point.fitsWhole = true) :
    ∃ points,
      (readings.filterMap Reading.summary?).mapM
          (fun point => .ok (summaryPoint (.of resource scope) metric point)) =
        (.ok points : Except Error (List Point)) ∧
        SayReadings resource scope metric points readings := by
  apply exists_mapM_eq_ok
  intro reading member
  have isSummary := sameKind reading member
  obtain ⟨time, timed, reads⟩ := canSay reading member
  cases reads with
  | gauge => cases isSummary
  | sum => cases isSummary
  | histogram => cases isSummary
  | summary tags count sum quantiles attributes finite ascending =>
      rw [<- SummaryPoint.pairs_ofQuantiles (Attribute.ofTags tags) time count sum quantiles]
        at finite ascending
      obtain ⟨point, converted, said⟩ :=
        conveys_summaryPoint (separated_levels scope separated attributes) rfl rfl timed finite
          ascending (fits _ (List.mem_filterMap.mpr ⟨_, member, rfl⟩))
      exact ⟨_, point, rfl, converted, said⟩

/-- The points of a metric with readings that whole points can hold say what they keep of
these readings. -/
theorem exists_points_dataOf
    {kind : MetricKind}
    (separated : ∀ key, resource.contains key -> TagLevels.isResourceLevel key)
    (nonempty : readings ≠ [])
    (sameKind : ∀ reading ∈ readings, reading.kind = kind)
    (canSay : ∀ reading ∈ readings, CanSay reading)
    (fits : (Grouping.dataOf kind readings).fitsWhole = true) :
    ∃ points,
      Whole.points (.of resource scope) metric (Grouping.dataOf kind readings) =
          .ok points ∧
        SayReadings resource scope metric points readings := by
  cases kind with
  | gauge => exact exists_gaugePoints separated sameKind canSay
  | sum temporality =>
      have monotonic : Whole.points (.of resource scope) metric
          (Grouping.dataOf (.sum temporality) readings) =
            (readings.filterMap Reading.number?).mapM
              (counterPoint (.of resource scope) metric temporality) := by
        rw [Grouping.dataOf, Whole.points, sumPoints, Temporality.ofCode?_code]
        rfl
      rw [monotonic]
      refine exists_counterPoints separated sameKind canSay ?_
      rintro rfl
      exact List.all_eq_true.mp fits
  | whole distribution =>
      cases distribution with
      | histogram =>
          exact exists_histogramPoints separated sameKind canSay (List.all_eq_true.mp fits)
      | summary =>
          obtain ⟨points, converted, said⟩ :=
            exists_summaryPoints separated sameKind canSay (List.all_eq_true.mp fits)
          rw [mapM_eq_ok fun _ _ => rfl] at converted
          exact ⟨points, converted, said⟩
  | assembled =>
      obtain ⟨first, member⟩ := List.exists_mem_of_ne_nil readings nonempty
      have isSlice := sameKind first member
      obtain ⟨time, -, reads⟩ := canSay first member
      cases reads <;> cases isSlice

end Metric

end Whole

namespace Grouping

/-- The observation without its start time, if it is one of a running total. -/
def keptByWhole (observation : Observation) : Observation :=
  { observation with reading := observation.reading.withoutRunningStart }

/-- What whole points keep of an observation resembles it. -/
theorem resembles_keptByWhole (observation : Observation) :
    Resembles id observation (keptByWhole observation) :=
  ⟨rfl, rfl, rfl, (Reading.kind_withoutRunningStart _).symm⟩

/-- Data of another kind keep their start times. -/
theorem withoutRunningStarts_dataOf
    {kind : MetricKind}
    (readings : List Reading)
    (otherKind : kind ≠ .sum .cumulative) :
    (dataOf kind readings).withoutRunningStarts = dataOf kind readings := by
  cases kind with
  | gauge => rfl
  | sum temporality =>
      cases temporality with
      | delta => rfl
      | cumulative => exact absurd rfl otherKind
  | whole distribution => cases distribution <;> rfl
  | assembled =>
      rw [dataOf, assembledData]
      split <;> rfl

/-- The data of readings of one kind without the start times of running totals. -/
theorem dataOf_withoutRunningStart
    {kind : MetricKind}
    {readings : List Reading}
    (sameKind : ∀ reading ∈ readings, reading.kind = kind) :
    dataOf kind (readings.map Reading.withoutRunningStart) =
      (dataOf kind readings).withoutRunningStarts := by
  by_cases running : kind = .sum .cumulative
  · subst running
    have numbers :
        (readings.map Reading.withoutRunningStart).filterMap Reading.number? =
          (readings.filterMap Reading.number?).map NumberPoint.withoutStart := by
      rw [List.filterMap_map, List.map_filterMap]
      apply List.filterMap_congr
      intro reading member
      exact Reading.number?_withoutRunningStart (sameKind reading member)
    rw [dataOf, dataOf, numbers]
    rfl
  · have same : readings.map Reading.withoutRunningStart = readings := by
      refine (List.map_congr_left fun reading member => ?_).trans (List.map_id readings)
      exact Reading.withoutRunningStart_eq_self fun isRunning =>
        running ((sameKind reading member).symm.trans isRunning)
    rw [same, withoutRunningStarts_dataOf readings running]

/-- What whole points keep of a metric is the metric without the start times of running
totals. -/
theorem metricOf_keptByWhole
    {resource : Tags}
    {scope : Scope}
    {name : String}
    {members : List Observation}
    (consistent : Consistent members)
    (ofMetric : OfMetric resource scope name members) :
    metricOf name (members.map keptByWhole) =
      (metricOf name members).withoutRunningStarts := by
  cases members with
  | nil => rfl
  | cons first rest =>
      have sameKind : ∀ reading ∈ (first :: rest).map Observation.reading,
          reading.kind = first.reading.kind :=
        List.forall_mem_map.mpr fun observation member =>
          ofMetric.kind_eq consistent observation member first List.mem_cons_self
      have data := dataOf_withoutRunningStart sameKind
      have readings :
          ((first :: rest).map keptByWhole).map Observation.reading =
            ((first :: rest).map Observation.reading).map Reading.withoutRunningStart := by
        rw [List.map_map, List.map_map]
        rfl
      have kind : (keptByWhole first).reading.kind = first.reading.kind :=
        Reading.kind_withoutRunningStart _
      change Metric.mk name
          (some (dataOf (keptByWhole first).reading.kind
            (((first :: rest).map keptByWhole).map Observation.reading))) =
        Metric.mk name
          (some (dataOf first.reading.kind
            ((first :: rest).map Observation.reading)).withoutRunningStarts)
      rw [kind, readings, data]

/-- Observations that whole points with a time can hold. -/
structure HeldByWhole (observations : List Observation) : Prop where
  consistent : Consistent observations
  admissible : ∀ observation ∈ observations,
    ∃ time, time ≠ 0 ∧ Whole.Admissible time observation

variable {observations : List Observation} {group : MetricGroup}

/-- The resource of a group has the keys of a resource. -/
theorem HeldByWhole.separated
    (held : HeldByWhole observations)
    (member : group ∈ metricGroups observations) :
    ∀ key, group.resource.contains key -> TagLevels.isResourceLevel key := by
  refine isResourceLevel_of_mem_metricGroups (fun observation inTree => ?_) member
  obtain ⟨time, -, admissible⟩ := held.admissible observation inTree
  exact admissible.resource

/-- What whole points keep of observations of a metric is what they keep of its
readings. -/
theorem map_keptByWhole
    {resource : Tags}
    {scope : Scope}
    {name : String}
    {members : List Observation}
    (ofMetric : OfMetric resource scope name members) :
    members.map keptByWhole =
      (members.map Observation.reading).map fun reading =>
        ⟨resource, scope, name, reading.withoutRunningStart⟩ := by
  rw [List.map_map]
  apply List.map_congr_left
  intro observation member
  obtain ⟨sameResource, sameScope, sameMetric⟩ := ofMetric observation member
  rw [keptByWhole, sameResource, sameScope, sameMetric]
  rfl

/-- The points of a metric that whole points can hold say what these keep of it. -/
theorem HeldByWhole.exists_points
    (held : HeldByWhole observations)
    (member : group ∈ metricGroups observations)
    (fits : group.metric.fitsWhole = true) :
    ∃ points,
      group.metric.points .whole group.placement = .ok points ∧
        List.Forall₂ (Batch.Says .whole) points (group.members.map keptByWhole) := by
  obtain ⟨kind, sameKind, data⟩ := exists_kind_of_mem_metricGroups held.consistent member
  have nonempty : group.members.map Observation.reading ≠ [] := fun none =>
    (of_mem_metricGroups member).2 (List.map_eq_nil_iff.mp none)
  have canSay : ∀ reading ∈ group.members.map Observation.reading, Whole.CanSay reading := by
    intro reading readingMember
    obtain ⟨observation, inGroup, rfl⟩ := List.mem_map.mp readingMember
    obtain ⟨time, timed, admissible⟩ :=
      held.admissible observation (mem_of_mem_metricGroups member inGroup)
    exact ⟨time, timed, admissible.reading⟩
  rw [Metric.fitsWhole, data, Option.all_some] at fits
  rw [Metric.points, data, map_keptByWhole (ofMetric_of_mem_metricGroups member)]
  exact Whole.exists_points_dataOf (held.separated member) nonempty
    (List.forall_mem_map.mpr sameKind) canSay fits

/-- A metric of a tree that whole points can restore can be restored. -/
theorem fitsWhole_of_mem_metricGroups
    (consistent : Consistent observations)
    (fits : (tree observations).fitsWhole = true)
    (member : group ∈ metricGroups observations) :
    group.metric.fitsWhole = true :=
  List.all_eq_true.mp fits _ (mem_placedMetrics_of_mem_metricGroups consistent member)

/-- What whole points keep of the observations of a metric, for each metric of a tree. -/
def keptTree (observations : List Observation) : List Observation :=
  (metricGroups observations).flatMap fun group => group.members.map keptByWhole

/-- What whole points keep of observations resembles them. -/
theorem writtenAs_keptByWhole (members : List Observation) :
    WrittenAs id members (members.map keptByWhole) := by
  constructor
  · exact fun nonempty none => nonempty (List.map_eq_nil_iff.mp none)
  · intro observation member
    obtain ⟨original, originalMember, rfl⟩ := List.mem_map.mp member
    exact ⟨original, originalMember, resembles_keptByWhole original⟩

/-- What whole points keep of consistent observations is consistent. -/
theorem consistent_keptTree (consistent : Consistent observations) :
    Consistent (keptTree observations) :=
  (writtenAs_rewrite fun group _ => writtenAs_keptByWhole group.members).consistent consistent

/-- What whole points keep of a tree is the tree without the start times of running
totals. -/
theorem tree_keptTree (consistent : Consistent observations) :
    tree (keptTree observations) =
      (tree observations).mapMetrics Metric.withoutRunningStarts := by
  refine tree_rewrite Metric.withoutRunningStarts consistent
    (fun group _ => writtenAs_keptByWhole group.members) fun group member => ?_
  exact metricOf_keptByWhole (consistent.subset fun _ => mem_of_mem_metricGroups member)
    (ofMetric_of_mem_metricGroups member)

/-- The metrics of a tree that whole points can restore are written as what these keep
of them. -/
theorem HeldByWhole.writes_tree
    (held : HeldByWhole observations)
    (fits : (tree observations).fitsWhole = true) :
    Export.Writes .whole (MetricTree.placedMetrics (tree observations))
      (keptTree observations) :=
  Export.writes_tree held.consistent fun _ member =>
    held.exists_points member (fitsWhole_of_mem_metricGroups held.consistent fits member)

end Grouping

namespace Batch

open Grouping

/-- What whole points with a time say can be held by whole points. -/
theorem heldByWhole_accepted
    {arrivals : List Arrival}
    (timed : ∀ arrival ∈ arrivals, arrival.point.time ≠ 0) :
    HeldByWhole (accepted (Grouping.observations .whole arrivals)) := by
  refine ⟨consistent_accepted _, fun observation member => ?_⟩
  obtain ⟨arrival, arrivalMember, result, read, said⟩ :=
    Grouping.exists_of_mem_observations (List.mem_filter.mp member).1
  have timedHere := timed arrival arrivalMember
  refine ⟨_, ?_, Whole.admissible_of_mem_observations read said⟩
  rw [Point.timeOr, if_neg timedHere]
  exact timedHere

/-- The tree of whole points with a time, if they can restore it, is written without
dropping a metric. A batch accepts all points written, whenever they arrive, and finishes
as the same tree without the start times of running totals. -/
theorem run_finish_writeTree_run_whole
    (arrivals : List Arrival)
    (timed : ∀ arrival ∈ arrivals, arrival.point.time ≠ 0)
    (fits : MetricTree.fitsWhole ((empty .whole).run arrivals).1.finish = true) :
    ∃ written : List Point,
      Export.writeTree .whole PointWriter.collecting
          ((empty .whole).run arrivals).1.finish [] =
        (written.reverse, .ok ⟨written.length, 0⟩) ∧
      ∀ returning : List Arrival, returning.map Arrival.point = written ->
        (∀ answer ∈ ((empty .whole).run returning).2, answer = none) ∧
          ((empty .whole).run returning).1.finish =
            MetricTree.mapMetrics Metric.withoutRunningStarts
              ((empty .whole).run arrivals).1.finish := by
  rw [finish_run, <- tree_accepted] at fits ⊢
  have held := heldByWhole_accepted timed
  obtain ⟨written, said, success⟩ := held.writes_tree fits
  refine ⟨written, ?_, fun returning same => ?_⟩
  · rw [Export.writeTree, success, List.append_nil, Nat.zero_add]
  · rw [<- same] at said
    rw [<- tree_keptTree held.consistent]
    exact run_of_says said (consistent_keptTree held.consistent)

/-- A metric of each kind comes back from its points: a fan-out, a delta with a start
time, a running total that loses its start time, a histogram and a summary. -/
theorem run_finish_writeTree_run_whole_five_metrics :
    let arrival (hint : TypeHint) (metric : String) (tags : List (String × String))
        (fields : List (String × FieldValue)) : Arrival :=
      ⟨9, {
        measurement := metric
        tags := .ofList tags
        fields := .ofList fields
        time := 5
        hint }⟩
    let arrivals := [
      arrival .untyped "load" [("host.name", "a")] [("one", .int 7), ("five", .int 3)],
      arrival .sum "sent" [("zone", "b"), ("temporality", "delta")]
        [("counter", .int 2), ("start_time", .text "1970-01-01T00:00:01Z")],
      arrival .sum "seen" [("host.name", "a")]
        [("counter", .int 4), ("start_time", .int 8)],
      arrival .histogram "lag" []
        [("count", .int 4), ("sum", .int 6), ("1.50", .int 3), ("-0", .int 1)],
      arrival .summary "size" [] [("count", .int 1), ("sum", .int 2), ("0.5", .int 2)]]
    let lag : HistogramPoint := {
      time := 5
      count := 4
      sum := some ⟨0x4018000000000000⟩
      counts := [1, 2, 1]
      bounds := [⟨0x8000000000000000⟩, ⟨0x3FF8000000000000⟩] }
    let size : SummaryPoint := {
      time := 5
      count := 1
      sum := ⟨0x4000000000000000⟩
      quantiles := [⟨⟨0x3FE0000000000000⟩, ⟨0x4000000000000000⟩⟩] }
    let tree (runningStart : UInt64) : MetricTree := [
      ⟨some [.ofText "host.name" "a"], [⟨some ⟨"", ""⟩, [
        ⟨"load_five", some <| .gauge [⟨[], 0, 5, some (.int 3)⟩]⟩,
        ⟨"load_one", some <| .gauge [⟨[], 0, 5, some (.int 7)⟩]⟩,
        ⟨"seen", some <|
          .sum [⟨[], runningStart, 5, some (.int 4)⟩] Temporality.cumulative.code true⟩]⟩]⟩,
      ⟨some [], [⟨some ⟨"", ""⟩, [
        ⟨"sent", some <|
          .sum [⟨[.ofText "zone" "b"], 1000000000, 5, some (.int 2)⟩]
            Temporality.delta.code true⟩,
        ⟨"lag", some <| .histogram [lag] Temporality.cumulative.code⟩,
        ⟨"size", some <| .summary [size]⟩]⟩]⟩]
    (∀ arrival ∈ arrivals, arrival.point.time ≠ 0) ∧
      MetricTree.fitsWhole ((empty .whole).run arrivals).1.finish = true ∧
      ((empty .whole).run arrivals).1.finish = tree 8 ∧
      ∃ written : List Point,
        Export.writeTree .whole PointWriter.collecting (tree 8) [] =
          (written.reverse, .ok ⟨written.length, 0⟩) ∧
        ∀ returning : List Arrival, returning.map Arrival.point = written ->
          (∀ answer ∈ ((empty .whole).run returning).2, answer = none) ∧
            ((empty .whole).run returning).1.finish = tree 0 := by
  intro arrival arrivals lag size tree
  have timed : ∀ arrival ∈ arrivals, arrival.point.time ≠ 0 := by decide +kernel
  have fits : MetricTree.fitsWhole ((empty .whole).run arrivals).1.finish = true := by
    decide +kernel
  have finished : ((empty .whole).run arrivals).1.finish = tree 8 := by decide +kernel
  have restarted :
      MetricTree.mapMetrics Metric.withoutRunningStarts (tree 8) = tree 0 := by
    decide +kernel
  have returned := run_finish_writeTree_run_whole arrivals timed fits
  rw [finished, restarted] at returned
  exact ⟨timed, fits, finished, returned⟩

end Batch
end LineMetrics
