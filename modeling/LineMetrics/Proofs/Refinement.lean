import LineMetrics.Proofs.Gathering

/-!
# Batches finish as the tree of their observations

A batch gathers exactly the accepted ones of the observations recorded in it. What an
observation is answered depends on the first one of its metric alone, and that one is
always accepted, so leaving the refused ones out changes no later answer.
-/

namespace LineMetrics

namespace Grouping

/-- Observations of one metric ask for the same metric. -/
theorem sameMetric_congr {left right : Observation} (same : sameMetric left right) :
    sameMetric left = sameMetric right := by
  funext other
  simp only [sameMetric, Bool.and_eq_true, decide_eq_true_eq] at same ⊢
  obtain ⟨⟨resource, scope⟩, metric⟩ := same
  rw [resource, scope, metric]

@[simp] theorem sameMetric_self (observation : Observation) :
    sameMetric observation observation = true := by
  simp [sameMetric]

/-- An observation is let in if the first one of its metric is of its kind. -/
theorem refusal_eq_none_iff {earlier : List Observation} {observation : Observation} :
    refusal earlier observation = none ↔
      ∀ first, earlier.find? (sameMetric observation) = some first ->
        first.reading.kind = observation.reading.kind := by
  rw [refusal]
  cases earlier.find? (sameMetric observation) with
  | none => simp
  | some first => simp

/-- The first observation of a metric is accepted. -/
theorem refusal_eq_none_of_find?
    {observations : List Observation}
    {observation first : Observation}
    (found : observations.find? (sameMetric observation) = some first) :
    refusal observations first = none := by
  have same := sameMetric_congr (List.find?_some found)
  rw [refusal, <- same, found, Option.bind_some, if_pos rfl]

/-- The first accepted observation of a metric is the first one. -/
theorem find?_accepted (observations : List Observation) (observation : Observation) :
    (accepted observations).find? (sameMetric observation) =
      observations.find? (sameMetric observation) := by
  rw [accepted, List.find?_filter]
  cases found : observations.find? (sameMetric observation) with
  | none =>
      rw [List.find?_eq_none] at found ⊢
      intro other member both
      exact found other member (of_decide_eq_true both).2
  | some first =>
      have firstAccepted := refusal_eq_none_of_find? found
      rw [List.find?_eq_some_iff_append] at found ⊢
      obtain ⟨same, before, after, split, others⟩ := found
      refine ⟨by simp [firstAccepted, same], before, after, split, ?_⟩
      intro other member
      have apart := others other member
      rw [Bool.not_eq_true'] at apart
      simp [apart]

/-- Leaving refused observations out changes no answer. -/
theorem refusal_accepted (observations : List Observation) (observation : Observation) :
    refusal (accepted observations) observation = refusal observations observation := by
  rw [refusal, find?_accepted]
  rfl

/-- The answer to an observation does not depend on what comes behind the first one of
its metric. -/
theorem refusal_append_of_mem
    {observations : List Observation}
    {observation : Observation}
    (others : List Observation)
    (member : observation ∈ observations) :
    refusal (observations ++ others) observation = refusal observations observation := by
  have some : (observations.find? (sameMetric observation)).isSome := by
    rw [List.find?_isSome]
    exact ⟨observation, member, sameMetric_self observation⟩
  obtain ⟨first, found⟩ := Option.isSome_iff_exists.mp some
  rw [refusal, refusal, List.find?_append, found]
  rfl

/-- An observation is answered as if it had been one of those before it. -/
theorem refusal_append_self (observations : List Observation) (observation : Observation) :
    refusal (observations ++ [observation]) observation =
      refusal observations observation := by
  rw [refusal, refusal, List.find?_append]
  cases observations.find? (sameMetric observation) with
  | none => simp [sameMetric]
  | some first => rfl

/-- What comes with an observation or behind it does not decide its answer. -/
theorem refusal_append_cons_self
    (earlier : List Observation)
    (observation : Observation)
    (later : List Observation) :
    refusal (earlier ++ observation :: later) observation = refusal earlier observation := by
  rw [List.append_cons, refusal_append_of_mem later
    (List.mem_append_right earlier (List.mem_singleton_self observation)),
    refusal_append_self]

/-- The last observation is accepted unless those before it require its refusal. -/
theorem accepted_append_singleton
    (observations : List Observation)
    (observation : Observation) :
    accepted (observations ++ [observation]) =
      accepted observations ++
        if (refusal observations observation).isNone then [observation] else [] := by
  rw [accepted, List.filter_append]
  congr 1
  · apply List.filter_congr
    intro other member
    rw [refusal_append_of_mem [observation] member]
  · rw [List.filter_singleton, refusal_append_self, cond_eq_ite]

end Grouping

namespace Batch

open Grouping

theorem gathers_empty (schema : Schema) : (empty schema).Gathers [] :=
  Table.holdsGroups_empty

/-- A batch that gathers the accepted ones of some observations does so with one more,
whether that is refused or not. -/
theorem Gathers.record_accepted
    {batch : Batch}
    {earlier : List Observation}
    (gathers : batch.Gathers (accepted earlier))
    (observation : Observation) :
    (batch.record observation).1.Gathers (accepted (earlier ++ [observation])) := by
  have answer := gathers.record_answer observation
  rw [accepted_append_singleton]
  cases refused : refusal earlier observation with
  | none =>
      exact gathers.record (by rw [refusal_accepted, refused])
  | some error =>
      rw [refusal_accepted, refused] at answer
      rw [record_eq_self_of_refused answer]
      simpa using gathers

/-- Recording observations gathers the accepted ones of them. -/
theorem Gathers.recordAll
    {batch : Batch}
    {earlier : List Observation}
    (gathers : batch.Gathers (accepted earlier))
    (observations : List Observation) :
    (batch.recordAll observations).1.Gathers (accepted (earlier ++ observations)) := by
  induction observations generalizing batch earlier with
  | nil =>
      rw [List.append_nil]
      exact gathers
  | cons observation observations inductionHypothesis =>
      rw [recordAll_cons, List.append_cons]
      exact inductionHypothesis (gathers.record_accepted observation)

/-- Observations recorded in an empty batch are gathered, as far as they are accepted. -/
theorem recordAll_gathers (schema : Schema) (observations : List Observation) :
    ((empty schema).recordAll observations).1.Gathers (accepted observations) := by
  have gathers : (empty schema).Gathers (accepted []) := gathers_empty schema
  exact gathers.recordAll observations

/-- Adding a point records its observations, of which there are none if it cannot be
read. -/
theorem add_fst (batch : Batch) (now : UInt64) (point : Point) :
    (batch.add now point).1 =
      (batch.recordAll
        ((observations batch.schema now point).toOption.getD [])).1 := by
  unfold add
  cases observations batch.schema now point <;> rfl

/-- Recording goes on with later observations where the earlier ones ended. -/
theorem recordAll_append_fst (batch : Batch) (earlier later : List Observation) :
    (batch.recordAll (earlier ++ later)).1 =
      ((batch.recordAll earlier).1.recordAll later).1 := by
  induction earlier generalizing batch with
  | nil => rfl
  | cons observation observations inductionHypothesis =>
      rw [List.cons_append, recordAll_cons, recordAll_cons]
      exact inductionHypothesis _

/-- Recording does not change the schema. -/
@[simp] theorem schema_recordAll (batch : Batch) (observations : List Observation) :
    (batch.recordAll observations).1.schema = batch.schema := by
  induction observations generalizing batch with
  | nil => rfl
  | cons observation observations inductionHypothesis =>
      rw [recordAll_cons]
      exact inductionHypothesis _

/-- A run records the observations of its points in their order. -/
theorem run_fst (batch : Batch) (arrivals : List Arrival) :
    (batch.run arrivals).1 =
      (batch.recordAll (Grouping.observations batch.schema arrivals)).1 := by
  induction arrivals generalizing batch with
  | nil => rfl
  | cons arrival arrivals inductionHypothesis =>
      rw [run_cons, Grouping.observations, List.flatMap_cons, recordAll_append_fst,
        inductionHypothesis, add_fst, schema_recordAll]
      rfl

/-- A run gathers the accepted ones of the observations of its points. -/
theorem run_gathers (schema : Schema) (arrivals : List Arrival) :
    ((empty schema).run arrivals).1.Gathers
      (accepted (Grouping.observations schema arrivals)) := by
  rw [run_fst]
  exact recordAll_gathers schema _

end Batch

namespace Table

variable {α κ ν β : Type} [DecidableEq κ] [Ord κ] {standsFor : ν -> List α -> Prop}
  {key : α -> κ} {table : Table κ ν} {elements : List α}

/-- What is made of the rows is what is made of the groups, if that holds of every value
and the members that it stands for. -/
theorem HoldsGroups.map_eq
    {fromRow : κ × ν -> β}
    {fromGroup : κ × List α -> β}
    (holds : table.HoldsGroups standsFor key elements)
    (same : ∀ group value members, members ≠ [] -> standsFor value members ->
      fromRow (group, value) = fromGroup (group, members)) :
    table.toList.map fromRow = (groups key elements).map fromGroup := by
  rw [<- List.forall₂_eq_eq_eq, List.forall₂_map_left_iff, List.forall₂_map_right_iff]
  refine List.forall₂_iff_zip.mpr ⟨holds.length_eq, fun {row} {group} paired => ?_⟩
  obtain ⟨sameKey, stands⟩ := List.forall₂_zip holds paired
  have someMember := ne_nil_of_mem_groups (List.of_mem_zip paired).2
  obtain ⟨name, value⟩ := row
  obtain ⟨otherName, members⟩ := group
  cases sameKey
  exact same name value members someMember stands

end Table

namespace Batch

open Grouping

/-- A metric finishes as what has been gathered for it. -/
theorem metric_eq_metricOf
    {collected : Collected}
    {observations : List Observation}
    (name : String)
    (someObservation : observations ≠ [])
    (gathers : collected.Gathers (observations.map Observation.reading)) :
    (⟨name, some collected.toData⟩ : Metric) = metricOf name observations := by
  cases observations with
  | nil => exact absurd rfl someObservation
  | cons first others =>
      have kind : first.reading.kind = collected.kind :=
        gathers.kind_eq List.mem_cons_self
      rw [metricOf, List.head?_cons, Option.map_some, kind, gathers.toData_eq]

/-- A batch finishes as the observations that it gathers. -/
theorem Gathers.finish_eq
    {batch : Batch}
    {observations : List Observation}
    (gathers : batch.Gathers observations) :
    batch.finish =
      (groups Observation.resource observations).map fun (resource, observations) =>
        resourceOf resource observations := by
  refine Table.HoldsGroups.map_eq gathers fun resource scopes members _ inScopes => ?_
  apply congrArg (ResourceMetrics.mk (some (Attribute.ofTags resource)))
  refine Table.HoldsGroups.map_eq inScopes fun scope metrics members _ inMetrics => ?_
  apply congrArg (ScopeMetrics.mk (some scope))
  exact Table.HoldsGroups.map_eq inMetrics fun name collected members someMember gathers =>
    metric_eq_metricOf name someMember gathers

/-- A run finishes as the tree of the observations of its points. -/
theorem finish_run (schema : Schema) (arrivals : List Arrival) :
    ((empty schema).run arrivals).1.finish =
      tree (Grouping.observations schema arrivals) :=
  (run_gathers schema arrivals).finish_eq

end Batch

end LineMetrics
