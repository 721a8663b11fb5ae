import LineMetrics.Proofs.AssembledMetrics
import LineMetrics.Proofs.WholeReadings

/-!
# Batches are well formed

Every table of a batch has an index that inverts its rows, and none of them is without
rows, except that of the resources of a batch that has let no point in. The metrics are
of the kinds that points of the schema can say something about, and each of them has a
data point or a series. So a reading that is let in always finds a metric that takes it.
-/

namespace LineMetrics

namespace Table

variable {κ ν ε : Type} [Ord κ]

/-- The index is the inverse of the rows: what it holds for a key is the position of a
row with that key, and it leads from the key of each row to the position of the row. -/
structure Inverts (table : Table κ ν) : Prop where
  leads : ∀ (key : κ) (position : Nat), table.index[key]? = some position ->
    ∃ inside : position < table.rows.size, table.rows[position].1 = key
  indexed : ∀ (position : Nat) (inside : position < table.rows.size),
    table.index[table.rows[position].1]? = some position

/-- A table carries the coherence of its index, which therefore inverts the rows. -/
theorem inverts (table : Table κ ν) : table.Inverts where
  leads key position found := by
    have row := (table.coherent key position).mp found
    rw [Array.getElem?_eq_getElem (position_lt found)] at row
    exact ⟨position_lt found, Option.some.inj row⟩
  indexed position inside := by
    rw [table.coherent, Array.getElem?_eq_getElem inside]
    rfl

/-- A level of a batch: a table with at least one row, an index that inverts the rows,
and sound values. -/
structure Level (sound : ν -> Prop) (table : Table κ ν) : Prop where
  index : table.Inverts
  someRow : table.rows ≠ #[]
  values : ∀ row ∈ table.rows, sound row.2

section Rows

variable {κ ν : Type} [DecidableEq κ]

/-- Each row of a list stays sound if the value of one key changes soundly. -/
theorem forall_changeRow
    {sound : ν -> Prop}
    {key : κ}
    {fresh : ν}
    {update : ν -> ν}
    {rows : List (κ × ν)}
    (values : ∀ row ∈ rows, sound row.2)
    (changed : ∀ value, sound value -> sound (update value))
    (created : sound (update fresh)) :
    ∀ row ∈ changeRow key fresh update rows, sound row.2 := by
  induction rows with
  | nil => exact List.forall_mem_singleton.mpr created
  | cons row rows inductionHypothesis =>
      obtain ⟨here, behind⟩ := List.forall_mem_cons.mp values
      rw [changeRow]
      split
      · exact List.forall_mem_cons.mpr ⟨changed row.2 here, behind⟩
      · exact List.forall_mem_cons.mpr ⟨here, inductionHypothesis behind⟩

theorem changeRow_ne_nil (key : κ) (fresh : ν) (update : ν -> ν) (rows : List (κ × ν)) :
    changeRow key fresh update rows ≠ [] := by
  cases rows with
  | nil => exact List.cons_ne_nil _ _
  | cons row rows =>
      rw [changeRow]
      split
      · exact List.cons_ne_nil _ _
      · exact List.cons_ne_nil _ _

end Rows

variable [Std.TransOrd κ] [Std.LawfulEqOrd κ]

/-- What a visit leaves for its key is the change of the present or else of the fresh
value. -/
theorem find?_visit
    (table : Table κ ν)
    (key : κ)
    (fresh : ν)
    (change : ν -> ν × ε) :
    (table.visit key fresh change).1.find? key =
      some (change ((table.find? key).getD fresh)).1 := by
  rw [find?_eq_some_iff]
  unfold visit find?
  split
  · rename_i position found
    obtain ⟨inside, keyed⟩ := table.inverts.leads key position found
    rw [toList_setValue, keyed]
    exact List.mem_set (by simpa [toList] using inside) _
  · rw [toList_push]
    exact List.mem_append_right _ (List.mem_singleton.mpr rfl)

variable [DecidableEq κ]

/-- There is a row behind a visit. -/
theorem rows_visit_ne_empty
    (table : Table κ ν)
    (key : κ)
    (fresh : ν)
    (change : ν -> ν × ε) :
    (table.visit key fresh change).1.rows ≠ #[] := by
  intro none
  apply changeRow_ne_nil key fresh (fun value => (change value).1) table.toList
  rw [<- toList_visit, toList, none]

/-- A visit makes a level of a table of sound values, be there rows or not, if it changes
sound values and the fresh value to sound ones. -/
theorem level_visit
    {sound : ν -> Prop}
    {table : Table κ ν}
    {key : κ}
    {fresh : ν}
    {change : ν -> ν × ε}
    (values : ∀ row ∈ table.rows, sound row.2)
    (changed : ∀ value, sound value -> sound (change value).1)
    (created : sound (change fresh).1) :
    (table.visit key fresh change).1.Level sound where
  index := inverts _
  someRow := rows_visit_ne_empty table key fresh change
  values := by
    intro row member
    rw [<- Array.mem_toList_iff] at member
    change row ∈ (table.visit key fresh change).1.toList at member
    rw [toList_visit] at member
    exact forall_changeRow (fun row member => values row (Array.mem_toList_iff.mp member))
      changed created row member

end Table

namespace Schema

/-- The kinds of metrics that points of a schema say something about. -/
def Permits : Schema -> MetricKind -> Prop
  | .whole, kind => kind ≠ .assembled
  | .sliced, kind => kind = .gauge ∨ kind = .sum .cumulative ∨ kind = .assembled

end Schema

namespace Collected

/-- There is a data point, or a series. -/
def IsInhabited : Collected -> Prop
  | .gauge points => points ≠ #[]
  | .sum _ points => points ≠ #[]
  | .histogram points => points ≠ #[]
  | .summary points => points ≠ #[]
  | .assembled _ series => series.rows ≠ #[]

/-- What has been gathered for a metric is a place for a reading. -/
inductive Takes : Collected -> Reading -> Prop
  | gauge (points : Array NumberPoint) (point : NumberPoint) :
      Takes (.gauge points) (.gauge point)
  | sum (temporality : Temporality) (points : Array NumberPoint) (point : NumberPoint) :
      Takes (.sum temporality points) (.sum temporality point)
  | histogram (points : Array HistogramPoint) (point : HistogramPoint) :
      Takes (.histogram points) (.histogram point)
  | summary (points : Array SummaryPoint) (point : SummaryPoint) :
      Takes (.summary points) (.summary point)
  | slice
      (preferSummary alsoPreferSummary : Bool)
      (assemblies : Table Series Assembly)
      (series : Series)
      (part : Slice) :
      Takes (.assembled preferSummary assemblies) (.slice alsoPreferSummary series part)

/-- What has been gathered for a metric is of a kind that the schema permits, holds some
data, and finds each series by its index. Sums are monotonic. -/
structure WellFormed (schema : Schema) (collected : Collected) : Prop where
  kind : schema.Permits collected.kind
  inhabited : collected.IsInhabited
  series : ∀ preferSummary assemblies,
    collected = .assembled preferSummary assemblies -> assemblies.Inverts
  monotonic : ∀ points temporality isMonotonic,
    collected.toData = .sum points temporality isMonotonic -> isMonotonic = true

/-- A place for a reading is one of its kind. -/
theorem takes_iff {collected : Collected} {reading : Reading} :
    collected.Takes reading ↔ collected.kind = reading.kind := by
  constructor
  · intro takes
    cases takes with
    | _ => rfl
  · intro same
    cases collected with
    | gauge points =>
        cases reading with
        | gauge point => exact .gauge points point
        | _ => cases same
    | sum temporality points =>
        cases reading with
        | sum other point =>
            cases same
            exact .sum temporality points point
        | _ => cases same
    | histogram points =>
        cases reading with
        | histogram point => exact .histogram points point
        | _ => cases same
    | summary points =>
        cases reading with
        | summary point => exact .summary points point
        | _ => cases same
    | assembled preferSummary assemblies =>
        cases reading with
        | slice alsoPreferSummary series part =>
            exact .slice preferSummary alsoPreferSummary assemblies series part
        | _ => cases same

@[simp] theorem kind_prefer (collected : Collected) (reading : Reading) :
    (collected.prefer reading).kind = collected.kind := by
  unfold prefer
  split <;> rfl

@[simp] theorem kind_put (collected : Collected) (reading : Reading) :
    (collected.put reading).kind = collected.kind := by
  unfold put
  split <;> rfl

/-- A reading that is put where it belongs is there. -/
theorem Takes.isInhabited_put
    {collected : Collected}
    {reading : Reading}
    (takes : collected.Takes reading) :
    (collected.put reading).IsInhabited := by
  cases takes with
  | gauge points point => exact Array.push_ne_empty
  | sum temporality points point => exact Array.push_ne_empty
  | histogram points point => exact Array.push_ne_empty
  | summary points point => exact Array.push_ne_empty
  | slice preferSummary alsoPreferSummary assemblies series part =>
      exact Table.rows_visit_ne_empty assemblies series {} _

/-- Some data of a permitted kind are well formed. -/
theorem wellFormed_of_isInhabited
    {schema : Schema}
    {collected : Collected}
    (permits : schema.Permits collected.kind)
    (inhabited : collected.IsInhabited) :
    collected.WellFormed schema where
  kind := permits
  inhabited := inhabited
  series _ assemblies _ := assemblies.inverts
  monotonic points temporality isMonotonic same := by
    cases collected with
    | sum own ownPoints =>
        cases same
        rfl
    | assembled preferSummary assemblies =>
        rw [toData] at same
        split at same
        · cases same
        · cases same
    | _ => cases same

/-- A metric stays well formed when a reading is added, whether it is let in or not. -/
theorem WellFormed.add
    {schema : Schema}
    {collected : Collected}
    (wellFormed : collected.WellFormed schema)
    (metric : String)
    (reading : Reading) :
    (collected.add metric reading).1.WellFormed schema := by
  by_cases same : collected.kind = reading.kind
  · rw [add_of_kind_eq metric same]
    refine wellFormed_of_isInhabited ?_ (takes_iff.mpr ?_).isInhabited_put
    · rw [kind_put, kind_prefer]
      exact wellFormed.kind
    · rw [kind_prefer, same]
  · rw [add_of_kind_ne metric same]
    exact wellFormed

/-- A metric is well formed behind its first reading. -/
theorem wellFormed_add_startingWith
    {schema : Schema}
    {reading : Reading}
    (metric : String)
    (permits : schema.Permits reading.kind) :
    ((startingWith reading).add metric reading).1.WellFormed schema := by
  rw [add_of_kind_eq metric (kind_startingWith reading)]
  refine wellFormed_of_isInhabited ?_ (takes_iff.mpr ?_).isInhabited_put
  · rw [kind_put, kind_prefer, kind_startingWith]
    exact permits
  · rw [kind_prefer, kind_startingWith]

end Collected

namespace Whole

/-- A whole point that can be read says something. -/
theorem observations_ne_nil
    {now : UInt64}
    {point : Point}
    {result : List Observation}
    (read : observations now point = .ok result) :
    result ≠ [] := by
  have someNumber : ∀ {point time valueField start reading},
      numberObservations point time valueField start reading = .ok result ->
        result ≠ [] := by
    intro point time valueField start reading read
    rw [numberObservations] at read
    obtain ⟨found, numeric, made⟩ := exists_of_bind_eq_ok read
    cases made
    rw [ne_eq, List.map_eq_nil_iff]
    rintro rfl
    rw [numbers] at numeric
    split at numeric
    · obtain ⟨number, -, made⟩ := exists_of_bind_eq_ok numeric
      cases made
    · split at numeric
      · cases numeric
      · rename_i someField
        exact someField (Except.ok.inj numeric)
  rw [observations] at read
  cases type : typeOf point with
  | untyped =>
      rw [type] at read
      exact someNumber read
  | gauge =>
      rw [type] at read
      exact someNumber read
  | sum =>
      rw [type] at read
      exact someNumber read
  | histogram =>
      rw [type] at read
      obtain ⟨observation, -, rfl⟩ := exists_of_map_eq_ok read
      exact List.cons_ne_nil _ _
  | summary =>
      rw [type] at read
      obtain ⟨observation, -, rfl⟩ := exists_of_map_eq_ok read
      exact List.cons_ne_nil _ _

end Whole

namespace Sliced

/-- What a sliced point says of a sum is that it is cumulative. -/
theorem temporality_of_observations
    {now : UInt64}
    {point : Point}
    {observation : Observation}
    {temporality : Temporality}
    (read : observations now point = .ok [observation])
    (sum : observation.reading.kind = .sum temporality) :
    temporality = .cumulative := by
  obtain ⟨kept, named, readKept⟩ := exists_of_observations read
  rw [Sliced.observation] at readKept
  split at readKept
  · cases readKept
  · obtain ⟨metric, number, -, rfl⟩ := exists_of_numberObservation named readKept
    cases sum
  · obtain ⟨metric, number, -, rfl⟩ := exists_of_numberObservation named readKept
    cases sum
    rfl
  · obtain ⟨metric, slice, -, rfl⟩ := exists_of_sliceObservation named readKept
    cases sum
  · obtain ⟨metric, slice, -, rfl⟩ := exists_of_sliceObservation named readKept
    cases sum

end Sliced

namespace Batch

/-- A batch is well formed if its levels are, down to the metrics. Only the level of the
resources may be without rows. -/
structure WellFormed (batch : Batch) : Prop where
  index : batch.resources.Inverts
  resources : ∀ row ∈ batch.resources.rows,
    row.2.Level (Table.Level (Collected.WellFormed batch.schema))

/-- What the reading of an observation is added to: what has been gathered for its
metric, or else nothing yet. -/
def metricFor (batch : Batch) (observation : Observation) : Collected :=
  let scopes := (batch.resources.find? observation.resource).getD ∅
  let metrics := (scopes.find? observation.scope).getD ∅
  (metrics.find? observation.metric).getD (.startingWith observation.reading)

/-- A batch keeps an observation unless it refuses it: what the reading is put to takes
it, and the metric is what has become of that. -/
structure Keeps (batch : Batch) (observation : Observation) : Prop where
  taken : (batch.record observation).2 = none ->
    ((batch.metricFor observation).prefer observation.reading).Takes observation.reading
  put : (batch.record observation).2 = none ->
    (batch.record observation).1.metricFor observation =
      ((batch.metricFor observation).prefer observation.reading).put observation.reading

variable {batch : Batch} {observation : Observation}

/-- A recorded observation is added to its metric. -/
theorem record_metricFor (batch : Batch) (observation : Observation) :
    (batch.record observation).2 =
        ((batch.metricFor observation).add observation.metric observation.reading).2 ∧
      (batch.record observation).1.metricFor observation =
        ((batch.metricFor observation).add observation.metric observation.reading).1 := by
  rw [record_eq]
  unfold visitScope visitMetric
  constructor
  · rw [Table.visit_answer, Table.visit_answer, Table.visit_answer]
    rfl
  · unfold metricFor
    dsimp only
    rw [Table.find?_visit, Option.getD_some, Table.find?_visit, Option.getD_some,
      Table.find?_visit, Option.getD_some]

/-- No reading that is let in is dropped. -/
theorem keeps (batch : Batch) (observation : Observation) : batch.Keeps observation := by
  obtain ⟨answer, added⟩ := record_metricFor batch observation
  by_cases same : (batch.metricFor observation).kind = observation.reading.kind
  · rw [Collected.add_of_kind_eq _ same] at added
    refine ⟨fun _ => Collected.takes_iff.mpr ?_, fun _ => added⟩
    rw [Collected.kind_prefer, same]
  · rw [Collected.add_of_kind_ne _ same] at answer
    constructor
    · intro accepted
      cases answer.symm.trans accepted
    · intro accepted
      cases answer.symm.trans accepted

/-- A batch stays well formed when an observation is recorded, whether it is let in or
not. -/
theorem WellFormed.record
    (wellFormed : batch.WellFormed)
    (permits : batch.schema.Permits observation.reading.kind) :
    (batch.record observation).1.WellFormed := by
  have metrics : ∀ table : CollectedScope,
      (∀ row ∈ table.rows, row.2.WellFormed batch.schema) ->
        (visitMetric observation table).1.Level (Collected.WellFormed batch.schema) :=
    fun table values =>
      Table.level_visit values
        (fun collected sound => sound.add observation.metric observation.reading)
        (Collected.wellFormed_add_startingWith observation.metric permits)
  have scopes : ∀ table : CollectedResource,
      (∀ row ∈ table.rows, row.2.Level (Collected.WellFormed batch.schema)) ->
        (visitScope observation table).1.Level
          (Table.Level (Collected.WellFormed batch.schema)) :=
    fun table values =>
      Table.level_visit values (fun table level => metrics table level.values)
        (metrics ∅ fun row member => absurd member (Array.not_mem_empty row))
  have resources :
      (batch.resources.visit observation.resource ∅ (visitScope observation)).1.Level
        (Table.Level (Table.Level (Collected.WellFormed batch.schema))) :=
    Table.level_visit wellFormed.resources (fun table level => scopes table level.values)
      (scopes ∅ fun row member => absurd member (Array.not_mem_empty row))
  rw [record_eq]
  exact ⟨resources.index, resources.values⟩

/-- Observations are recorded one behind the other. -/
theorem recordAll_cons_fst
    (batch : Batch)
    (observation : Observation)
    (observations : List Observation) :
    (batch.recordAll (observation :: observations)).1 =
      ((batch.record observation).1.recordAll observations).1 := by
  rw [recordAll_cons]

/-- A batch stays well formed when observations are recorded. -/
theorem WellFormed.recordAll
    {observations : List Observation}
    (wellFormed : batch.WellFormed)
    (permits : ∀ observation ∈ observations,
      batch.schema.Permits observation.reading.kind) :
    (batch.recordAll observations).1.WellFormed := by
  induction observations generalizing batch with
  | nil => exact wellFormed
  | cons observation observations inductionHypothesis =>
      obtain ⟨here, behind⟩ := List.forall_mem_cons.mp permits
      rw [recordAll_cons_fst]
      exact inductionHypothesis (wellFormed.record here) behind

/-- Points of a schema say something about the permitted kinds of metrics only. -/
theorem permits_of_mem_observations
    {schema : Schema}
    {now : UInt64}
    {point : Point}
    {result : List Observation}
    (read : observations schema now point = .ok result)
    (member : observation ∈ result) :
    schema.Permits observation.reading.kind := by
  cases schema with
  | whole => exact (Whole.admissible_of_mem_observations read member).reading.kind_ne_assembled
  | sliced =>
      obtain ⟨only, rfl⟩ := Sliced.exists_observation read
      cases List.mem_singleton.mp member
      have read : Sliced.observations now point = .ok [observation] := read
      cases kind : observation.reading.kind with
      | gauge => exact .inl rfl
      | sum temporality =>
          exact .inr (.inl (congrArg _ (Sliced.temporality_of_observations read kind)))
      | whole distribution => exact absurd kind (Sliced.kind_of_observations distribution read)
      | assembled => exact .inr (.inr rfl)

/-- A batch that holds something still does when observations are recorded. -/
theorem isEmpty_recordAll (batch : Batch) (observations : List Observation) :
    (batch.recordAll observations).1.isEmpty = (batch.isEmpty && observations.isEmpty) := by
  have isEmpty_record : ∀ (batch : Batch) observation,
      (batch.record observation).1.isEmpty = false := by
    intro batch observation
    rw [record_eq, isEmpty, Table.isEmpty, Array.isEmpty_eq_false_iff]
    exact Table.rows_visit_ne_empty _ _ _ _
  induction observations generalizing batch with
  | nil => rw [recordAll_nil, List.isEmpty_nil, Bool.and_true]
  | cons observation observations inductionHypothesis =>
      rw [recordAll_cons_fst, inductionHypothesis, isEmpty_record, Bool.false_and, List.isEmpty_cons,
        Bool.and_false]

/-- A batch that holds nothing refuses no observation. -/
theorem record_answer_of_isEmpty
    (nothing : batch.isEmpty = true)
    (observation : Observation) :
    (batch.record observation).2 = none := by
  have absent : batch.resources.find? observation.resource = none := by
    rw [Table.find?_eq_none_iff, Table.toList]
    rw [isEmpty, Table.isEmpty, Array.isEmpty_iff] at nothing
    rw [nothing]
    exact List.not_mem_nil
  have fresh : batch.metricFor observation = .startingWith observation.reading := by
    rw [metricFor, absent]
    rfl
  rw [(record_metricFor batch observation).1, fresh]
  exact Collected.add_startingWith_answer observation.metric observation.reading

/-- A batch that holds nothing lets in each point that can be read. -/
theorem add_answer_of_isEmpty
    {now : UInt64}
    {point : Point}
    {result : List Observation}
    (nothing : batch.isEmpty = true)
    (read : observations batch.schema now point = .ok result)
    (someObservation : result ≠ []) :
    (batch.add now point).2 = none := by
  cases result with
  | nil => exact absurd rfl someObservation
  | cons observation others =>
      rw [add, read]
      dsimp only
      have answers : (batch.recordAll (observation :: others)).2 =
          ((batch.record observation).1.recordAll others).2 := by
        rw [recordAll_cons]
        dsimp only
        rw [record_answer_of_isEmpty nothing observation]
        rfl
      have bounded := length_recordAll_le (batch.record observation).1 others
      rw [if_neg]
      rw [answers, List.length_cons]
      omega

/-- A batch holds nothing behind a point exactly if it held nothing before and refuses
the point. -/
theorem isEmpty_add_iff (batch : Batch) (now : UInt64) (point : Point) :
    (batch.add now point).1.isEmpty = true ↔
      batch.isEmpty = true ∧ (batch.add now point).2 ≠ none := by
  cases read : observations batch.schema now point with
  | error error =>
      rw [add, read]
      exact (and_iff_left (Option.some_ne_none error)).symm
  | ok result =>
      have someObservation : result ≠ [] := by
        cases schema : batch.schema with
        | whole =>
            rw [schema] at read
            exact Whole.observations_ne_nil read
        | sliced =>
            rw [schema] at read
            obtain ⟨only, rfl⟩ := Sliced.exists_observation read
            exact List.cons_ne_nil _ _
      have holds : (batch.add now point).1.isEmpty = false := by
        rw [add_fst, read, isEmpty_recordAll]
        change (batch.isEmpty && result.isEmpty) = false
        rw [List.isEmpty_eq_false_iff.mpr someObservation, Bool.and_false]
      rw [holds]
      refine iff_of_false Bool.false_ne_true fun both => ?_
      exact both.2 (add_answer_of_isEmpty both.1 read someObservation)

/-- A batch holds nothing behind points exactly if it held nothing before and refuses all
of them. -/
theorem isEmpty_run_iff (batch : Batch) (arrivals : List Arrival) :
    (batch.run arrivals).1.isEmpty = true ↔
      batch.isEmpty = true ∧ none ∉ (batch.run arrivals).2 := by
  induction arrivals generalizing batch with
  | nil => exact (and_iff_left List.not_mem_nil).symm
  | cons arrival arrivals inductionHypothesis =>
      rw [run_cons, inductionHypothesis, isEmpty_add_iff, List.mem_cons, not_or, and_assoc,
        ne_comm]

/-- Every batch that points leave is well formed: the indexes of all levels invert their
rows, each resource has a scope, each scope a metric and each metric some data, of a kind
that the schema permits. Whatever more observations it records, none that is let in is
dropped. It is empty exactly if no point was let in. -/
theorem run_wellFormed (schema : Schema) (arrivals : List Arrival) :
    let (batch, answers) := (empty schema).run arrivals
    batch.schema = schema ∧ batch.WellFormed ∧
      (∀ more observation, (batch.recordAll more).1.Keeps observation) ∧
      (batch.isEmpty = true ↔ none ∉ answers) := by
  have sameSchema : ((empty schema).run arrivals).1.schema = schema := by
    rw [run_fst, schema_recordAll]
    rfl
  have start : (empty schema).WellFormed :=
    ⟨Table.inverts _, fun row member => absurd member (Array.not_mem_empty row)⟩
  refine ⟨sameSchema, ?_, fun more observation => keeps _ observation, ?_⟩
  · rw [run_fst]
    refine start.recordAll fun observation member => ?_
    obtain ⟨arrival, -, result, read, inResult⟩ :=
      Grouping.exists_of_mem_observations member
    exact permits_of_mem_observations read inResult
  · rw [isEmpty_run_iff]
    exact and_iff_right rfl

end Batch
end LineMetrics
