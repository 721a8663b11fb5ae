import LineMetrics.Batch
import Mathlib.Data.List.Basic

/-!
# Refused points leave no trace

Recording an observation walks down to its metric and creates missing levels on the
way, before the kind of the metric is looked at. Yet nothing remains of an observation
that is refused: only a metric that was there before can refuse one, and then so were
its resource and its scope. A point is refused only if all of its observations are, so
a batch is exactly the same after a refused point, and later points are answered as
if it had never arrived.
-/

namespace LineMetrics

namespace Collected

/-- A refusal leaves a metric as it is. -/
theorem add_eq_self_of_refused
    {metric : String}
    {reading : Reading}
    {collected : Collected}
    {error : Error}
    (refused : (collected.add metric reading).2 = some error) :
    (collected.add metric reading).1 = collected := by
  by_cases same : collected.kind = reading.kind
  · rw [add_of_kind_eq metric same] at refused
    cases refused
  · rw [add_of_kind_ne metric same]

/-- The first reading of a metric is not refused. -/
theorem add_startingWith_answer (metric : String) (reading : Reading) :
    ((startingWith reading).add metric reading).2 = none := by
  rw [add_of_kind_eq metric (kind_startingWith reading)]

end Collected

namespace Table

variable {κ ν ε : Type} [Ord κ] [Std.TransOrd κ] [Std.LawfulEqOrd κ]

/-- A refused visit changes nothing, if a refusal leaves every value alone and a fresh
value is never refused. -/
theorem visit_eq_self_of_refused
    {table : Table κ ν}
    {key : κ}
    {fresh : ν}
    {change : ν -> ν × Option ε}
    {error : ε}
    (refused : (table.visit key fresh change).2 = some error)
    (freshAccepted : (change fresh).2 = none)
    (unchanged : ∀ value, (change value).2 = some error -> (change value).1 = value) :
    (table.visit key fresh change).1 = table := by
  rw [visit_answer] at refused
  cases found : table.find? key with
  | none =>
      rw [found, Option.getD_none, freshAccepted] at refused
      cases refused
  | some value =>
      rw [found, Option.getD_some] at refused
      exact visit_eq_self fresh found (unchanged value refused)

/-- An empty table refuses what it refuses in a fresh row. -/
theorem visit_empty_answer (key : κ) (fresh : ν) (change : ν -> ν × ε) :
    ((∅ : Table κ ν).visit key fresh change).2 = (change fresh).2 := by
  rw [visit_answer, find?_empty, Option.getD_none]

end Table

namespace Batch

/-- A refused observation leaves the batch as it is, although the levels above its
metric are created before its kind is looked at. -/
theorem record_eq_self_of_refused
    {batch : Batch}
    {observation : Observation}
    {error : Error}
    (refused : (batch.record observation).2 = some error) :
    (batch.record observation).1 = batch := by
  obtain ⟨resource, scope, metric, reading⟩ := observation
  let inMetrics := fun metrics : CollectedScope =>
    metrics.visit metric (.startingWith reading) fun collected =>
      collected.add metric reading
  let inScopes := fun scopes : CollectedResource => scopes.visit scope ∅ inMetrics
  have metricsFresh : (inMetrics ∅).2 = none := by
    rw [Table.visit_empty_answer]
    exact Collected.add_startingWith_answer metric reading
  have scopesFresh : (inScopes ∅).2 = none := by
    rw [Table.visit_empty_answer]
    exact metricsFresh
  have unchanged : (batch.resources.visit resource ∅ inScopes).1 = batch.resources := by
    refine Table.visit_eq_self_of_refused refused scopesFresh fun scopes scopesRefused => ?_
    refine Table.visit_eq_self_of_refused scopesRefused metricsFresh
      fun metrics metricsRefused => ?_
    exact Table.visit_eq_self_of_refused metricsRefused
      (Collected.add_startingWith_answer metric reading)
      fun collected => Collected.add_eq_self_of_refused
  change { batch with resources := (batch.resources.visit resource ∅ inScopes).1 } = batch
  rw [unchanged]

@[simp] theorem recordAll_nil (batch : Batch) : batch.recordAll [] = (batch, []) := rfl

/-- Recording observations is recording the first one and then the others. -/
theorem recordAll_cons
    (batch : Batch)
    (observation : Observation)
    (observations : List Observation) :
    batch.recordAll (observation :: observations) =
      let (next, refusal) := batch.record observation
      let (last, errors) := next.recordAll observations
      (last, refusal.toList ++ errors) := by
  rw [recordAll]
  split <;> rename_i recorded <;> rw [recorded] <;> rfl

/-- No more causes are listed than there are observations. -/
theorem length_recordAll_le (batch : Batch) (observations : List Observation) :
    (batch.recordAll observations).2.length ≤ observations.length := by
  induction observations generalizing batch with
  | nil => exact Nat.le_refl 0
  | cons observation observations inductionHypothesis =>
      have others := inductionHypothesis (batch.record observation).1
      have first : (batch.record observation).2.toList.length ≤ 1 :=
        Option.length_toList_le
      rw [recordAll_cons]
      simp only [List.length_append, List.length_cons]
      omega

/-- Observations that are all refused leave the batch as it is. -/
theorem recordAll_eq_self_of_all_refused
    {batch : Batch}
    {observations : List Observation}
    (refused : (batch.recordAll observations).2.length = observations.length) :
    (batch.recordAll observations).1 = batch := by
  induction observations generalizing batch with
  | nil => rfl
  | cons observation observations inductionHypothesis =>
      rw [recordAll_cons] at refused ⊢
      simp only [List.length_append, List.length_cons] at refused ⊢
      have others := length_recordAll_le (batch.record observation).1 observations
      cases answer : (batch.record observation).2 with
      | none =>
          rw [answer] at refused
          simp only [Option.toList_none, List.length_nil] at refused
          omega
      | some error =>
          rw [answer] at refused
          simp only [Option.toList_some, List.length_cons, List.length_nil] at refused
          have unchanged := record_eq_self_of_refused answer
          rw [unchanged] at refused ⊢
          exact inductionHypothesis (by omega)

/-- A point that cannot be read is refused for that cause. -/
theorem add_of_unreadable
    {batch : Batch}
    {schema : Schema}
    {now : UInt64}
    {point : Point}
    {error : Error}
    (hasSchema : batch.schema = schema)
    (read : observations schema now point = .error error) :
    batch.add now point = (batch, some error) := by
  rw [add, hasSchema, read]

/-- A refused point leaves the batch as it is. -/
theorem add_eq_self_of_refused
    {batch : Batch}
    {now : UInt64}
    {point : Point}
    {error : Error}
    (refused : (batch.add now point).2 = some error) :
    (batch.add now point).1 = batch := by
  unfold add at refused ⊢
  split
  · rfl
  · rename_i observations read
    rw [read] at refused
    dsimp only at refused ⊢
    split at refused
    · rename_i allRefused
      exact recordAll_eq_self_of_all_refused allRefused
    · cases refused

@[simp] theorem run_nil (batch : Batch) : batch.run [] = (batch, []) := rfl

/-- A run adds the first point and then the others. -/
theorem run_cons (batch : Batch) (arrival : Arrival) (arrivals : List Arrival) :
    batch.run (arrival :: arrivals) =
      (((batch.add arrival.now arrival.point).1.run arrivals).1,
        (batch.add arrival.now arrival.point).2 ::
          ((batch.add arrival.now arrival.point).1.run arrivals).2) := rfl

/-- A run over two lists of points goes on with the second where the first ended. -/
theorem run_append (batch : Batch) (first second : List Arrival) :
    batch.run (first ++ second) =
      (((batch.run first).1.run second).1,
        (batch.run first).2 ++ ((batch.run first).1.run second).2) := by
  induction first generalizing batch with
  | nil => rfl
  | cons arrival arrivals inductionHypothesis =>
      rw [List.cons_append, run_cons, run_cons, inductionHypothesis]
      rfl

@[simp] theorem length_run_answers (batch : Batch) (arrivals : List Arrival) :
    (batch.run arrivals).2.length = arrivals.length := by
  induction arrivals generalizing batch with
  | nil => rfl
  | cons arrival arrivals inductionHypothesis =>
      rw [run_cons, List.length_cons, List.length_cons, inductionHypothesis]

/-- Those arrivals of a run whose points are accepted. -/
def acceptedArrivals (batch : Batch) (arrivals : List Arrival) : List Arrival :=
  ((arrivals.zip (batch.run arrivals).2).filter fun answered =>
    answered.2.isNone).map Prod.fst

/-- The accepted ones of points are the first one, if it is accepted, and the accepted ones
of the others. -/
theorem acceptedArrivals_cons
    (batch : Batch)
    (arrival : Arrival)
    (arrivals : List Arrival) :
    batch.acceptedArrivals (arrival :: arrivals) =
      (if (batch.add arrival.now arrival.point).2.isNone then [arrival] else []) ++
        (batch.add arrival.now arrival.point).1.acceptedArrivals arrivals := by
  rw [acceptedArrivals, run_cons, List.zip_cons_cons, List.filter_cons]
  dsimp only
  split <;> rfl

/-- The accepted ones of points are those of the first points, and those that are accepted
behind them. -/
theorem acceptedArrivals_append (batch : Batch) (first second : List Arrival) :
    batch.acceptedArrivals (first ++ second) =
      batch.acceptedArrivals first ++ (batch.run first).1.acceptedArrivals second := by
  induction first generalizing batch with
  | nil => rfl
  | cons arrival arrivals inductionHypothesis =>
      rw [List.cons_append, acceptedArrivals_cons, acceptedArrivals_cons, inductionHypothesis,
        run_cons, List.append_assoc]

/-- A run ends as that of the points that it accepts, and these are all accepted again. -/
theorem run_acceptedArrivals (batch : Batch) (arrivals : List Arrival) :
    (batch.run (batch.acceptedArrivals arrivals)).1 = (batch.run arrivals).1 ∧
      ∀ answer ∈ (batch.run (batch.acceptedArrivals arrivals)).2, answer = none := by
  induction arrivals generalizing batch with
  | nil => exact ⟨rfl, nofun⟩
  | cons arrival arrivals inductionHypothesis =>
      obtain ⟨same, answers⟩ := inductionHypothesis (batch.add arrival.now arrival.point).1
      rw [acceptedArrivals_cons, run_cons]
      cases answer : (batch.add arrival.now arrival.point).2 with
      | none =>
          rw [Option.isNone_none, if_pos rfl, List.singleton_append, run_cons, answer]
          exact ⟨same, List.forall_mem_cons.mpr ⟨rfl, answers⟩⟩
      | some error =>
          rw [add_eq_self_of_refused answer] at same answers ⊢
          rw [Option.isNone_some, if_neg Bool.false_ne_true, List.nil_append]
          exact ⟨same, answers⟩

/-- A point that is refused in a run, in whatever state the points before it have left
the batch, changes nothing of that state. The points behind it are answered, and the
batch ends and finishes, as in the run without it. -/
theorem run_refused_point
    (schema : Schema)
    (before : List Arrival)
    (refusedArrival : Arrival)
    (error : Error)
    (refused :
      (((empty schema).run before).1.add refusedArrival.now refusedArrival.point).2 =
        some error) :
    (((empty schema).run before).1.add refusedArrival.now refusedArrival.point).1 =
        ((empty schema).run before).1 ∧
      ∀ after : List Arrival,
        let (batch, answers) := (empty schema).run (before ++ refusedArrival :: after)
        let (batchWithout, answersWithout) := (empty schema).run (before ++ after)
        batch = batchWithout ∧
          batch.finish = batchWithout.finish ∧
          answers =
            answersWithout.take before.length ++
              some error :: answersWithout.drop before.length := by
  have unchanged := add_eq_self_of_refused refused
  refine ⟨unchanged, fun after => ?_⟩
  have answersWithout := run_append (empty schema) before after
  have answersWith := run_append (empty schema) before (refusedArrival :: after)
  rw [run_cons, refused, unchanged] at answersWith
  rw [answersWith, answersWithout]
  refine ⟨rfl, rfl, ?_⟩
  have beforeLength := length_run_answers (empty schema) before
  dsimp only
  rw [List.take_left' beforeLength, List.drop_left' beforeLength]

/-- A counter that comes between two points of a gauge of the same name is refused, and
the gauge is as if it had not come. -/
theorem run_refused_counter_between_gauges :
    let gauge : Arrival :=
      ⟨7, { measurement := "load", fields := .ofList [("gauge", .int 3)] }⟩
    let counter : Arrival :=
      ⟨8, { measurement := "load", fields := .ofList [("counter", .int 4)], time := 6 }⟩
    let batch := ((empty .whole).run [gauge]).1
    (batch.add counter.now counter.point).2 =
        some (.kindConflict "load" .gauge (.sum .cumulative)) ∧
      (batch.add counter.now counter.point).1 = batch ∧
      ((empty .whole).run [gauge, counter, gauge]).1.finish =
        ((empty .whole).run [gauge, gauge]).1.finish := by
  intro gauge counter batch
  have refused :
      (batch.add counter.now counter.point).2 =
        some (.kindConflict "load" .gauge (.sum .cumulative)) := by decide
  have noTrace := run_refused_point .whole [gauge] counter _ refused
  exact ⟨refused, noTrace.1, (noTrace.2 [gauge]).2.1⟩

end Batch
end LineMetrics
