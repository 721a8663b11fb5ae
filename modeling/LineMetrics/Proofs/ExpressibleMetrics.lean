import LineMetrics.Export
import LineMetrics.Proofs.SlicedReadings
import Mathlib.Data.List.Forall2

/-!
# Metrics that a schema can express

Whether a metric can be turned into points, and into how many, depends on its data alone.
The metric is checked first, then its data points are converted one by one, and their points
come one after another. So each kind of data is described by its check, by what it requires
of a data point, and by the number of points that it makes of one.
-/

namespace LineMetrics

/-! ## Domain and size -/

/-- The data point has no counts, one for each bound, or one more. -/
def HistogramPoint.HasLayout (point : HistogramPoint) : Prop :=
  point.counts.length = 0 ∨ point.counts.length = point.bounds.length ∨
    point.counts.length = point.bounds.length + 1

instance (point : HistogramPoint) : Decidable point.HasLayout :=
  inferInstanceAs (Decidable (_ ∨ _ ∨ _))

/-- The number of points of a data point of a histogram. As sliced points, one has the count
and the sum and, if there are counts, there is one for each bound and one that holds every
observation. -/
def HistogramPoint.pointCount (schema : Schema) (point : HistogramPoint) : Nat :=
  match schema with
  | .whole => 1
  | .sliced => if point.counts.isEmpty then 1 else point.bounds.length + 2

/-- The number of points of a data point of a summary. As sliced points, one has the count
and the sum, and there is one for each quantile. -/
def SummaryPoint.pointCount (schema : Schema) (point : SummaryPoint) : Nat :=
  match schema with
  | .whole => 1
  | .sliced => 1 + point.quantiles.length

namespace MetricData

/-- The schema can express the data. -/
def Expressible (schema : Schema) : MetricData -> Prop
  | .gauge points => ∀ point ∈ points, point.value.isSome
  | .sum points temporality monotonic =>
      monotonic = true ∧
        (temporality = Temporality.cumulative.code ∨
          schema = .whole ∧ temporality = Temporality.delta.code) ∧
        ∀ point ∈ points, point.value.isSome
  | .histogram points temporality =>
      temporality = Temporality.cumulative.code ∧ ∀ point ∈ points, point.HasLayout
  | .exponentialHistogram => False
  | .summary _ => True

/-- The same data for each data point alone. -/
def singles : MetricData -> List MetricData
  | .gauge points => points.map fun point => .gauge [point]
  | .sum points temporality monotonic =>
      points.map fun point => .sum [point] temporality monotonic
  | .histogram points temporality => points.map fun point => .histogram [point] temporality
  | .exponentialHistogram => []
  | .summary points => points.map fun point => .summary [point]

/-- The number of points that a schema has for each data point. -/
def pointCounts (schema : Schema) : MetricData -> List Nat
  | .gauge points => points.map fun _ => 1
  | .sum points _ _ => points.map fun _ => 1
  | .histogram points _ => points.map (HistogramPoint.pointCount schema)
  | .exponentialHistogram => []
  | .summary points => points.map (SummaryPoint.pointCount schema)

end MetricData

/-- The metric has data that the schema can express. -/
def Metric.Expressible (schema : Schema) (metric : Metric) : Prop :=
  ∃ data, metric.data = some data ∧ data.Expressible schema

/-! ## Conversion one by one -/

variable {α : Type}

/-- How a schema converts data of one kind: a check of the metric, what is required of each
data point, and the number of points that one becomes. Nothing of this depends on the place
of the metric in the tree. -/
structure ConvertsEach
    (schema : Schema)
    (metric : String)
    (ofPoints : List α -> MetricData)
    (check : Except Error Unit)
    (require : α -> Except Error Unit)
    (size : α -> Nat)
    (convert : Placement -> α -> Except Error (List Point)) : Prop where
  points : ∀ placement points,
    (Metric.mk metric (some (ofPoints points))).points schema placement =
      check >>= fun _ => (points.mapM (convert placement)).map List.flatten
  lengths : ∀ placement point,
    (convert placement point).map List.length = (require point).map fun _ => size point

namespace ConvertsEach

variable {schema : Schema} {metric : String} {ofPoints : List α -> MetricData}
  {check : Except Error Unit} {require : α -> Except Error Unit} {size : α -> Nat}
  {convert : Placement -> α -> Except Error (List Point)}

/-- A data point can be converted if it is as required. -/
theorem exists_convert_iff
    (converts : ConvertsEach schema metric ofPoints check require size convert)
    (placement : Placement)
    (point : α) :
    (∃ block, convert placement point = .ok block) ↔ require point = .ok () := by
  have lengths := converts.lengths placement point
  constructor
  · rintro ⟨block, converted⟩
    rw [converted] at lengths
    obtain ⟨⟨⟩, required, -⟩ := exists_of_map_eq_ok lengths.symm
    exact required
  · intro required
    rw [required] at lengths
    obtain ⟨block, converted, -⟩ := exists_of_map_eq_ok lengths
    exact ⟨block, converted⟩

/-- A data point becomes the stated number of points. -/
theorem length_of_convert
    {placement : Placement}
    {point : α}
    {block : List Point}
    (converts : ConvertsEach schema metric ofPoints check require size convert)
    (converted : convert placement point = .ok block) :
    block.length = size point := by
  have lengths := converts.lengths placement point
  rw [converted] at lengths
  obtain ⟨-, -, same⟩ := exists_of_map_eq_ok lengths.symm
  exact same.symm

/-- The points of the data are those of its data points, one after another. -/
theorem points_eq_ok_iff
    {placement : Placement}
    {points : List α}
    {result : List Point}
    (converts : ConvertsEach schema metric ofPoints check require size convert) :
    (Metric.mk metric (some (ofPoints points))).points schema placement = .ok result ↔
      check = .ok () ∧
        ∃ blocks,
          List.Forall₂ (fun point block => convert placement point = .ok block) points
              blocks ∧
            blocks.flatten = result := by
  rw [converts.points]
  constructor
  · intro succeeds
    obtain ⟨⟨⟩, checked, succeeds⟩ := exists_of_bind_eq_ok succeeds
    obtain ⟨blocks, converted, same⟩ := exists_of_map_eq_ok succeeds
    exact ⟨checked, blocks, mapM_eq_ok_iff.mp converted, same⟩
  · rintro ⟨checked, blocks, converted, rfl⟩
    rw [checked, mapM_eq_ok_iff.mpr converted]
    rfl

/-- The data can be converted if they pass the check and each data point is as required. -/
theorem exists_points_iff
    (converts : ConvertsEach schema metric ofPoints check require size convert)
    (placement : Placement)
    (points : List α) :
    (∃ result,
        (Metric.mk metric (some (ofPoints points))).points schema placement = .ok result) ↔
      check = .ok () ∧ ∀ point ∈ points, require point = .ok () := by
  simp only [converts.points_eq_ok_iff, <- converts.exists_convert_iff placement,
    <- exists_mapM_eq_ok_iff, mapM_eq_ok_iff]
  constructor
  · rintro ⟨result, checked, blocks, converted, -⟩
    exact ⟨checked, blocks, converted⟩
  · rintro ⟨checked, blocks, converted⟩
    exact ⟨_, checked, blocks, converted, rfl⟩

/-- The points of the data come in blocks, one for each data point, which are the points of
that data point alone. -/
theorem exists_blocks
    {placement : Placement}
    {points : List α}
    {result : List Point}
    (converts : ConvertsEach schema metric ofPoints check require size convert)
    (converted :
      (Metric.mk metric (some (ofPoints points))).points schema placement = .ok result) :
    ∃ blocks,
      List.Forall₂
          (fun single block =>
            (Metric.mk metric (some single)).points schema placement = .ok block)
          (points.map fun point => ofPoints [point]) blocks ∧
        blocks.map List.length = points.map size ∧ blocks.flatten = result := by
  obtain ⟨checked, blocks, each, same⟩ := converts.points_eq_ok_iff.mp converted
  refine ⟨blocks, ?_, ?_, same⟩
  · rw [List.forall₂_map_left_iff]
    refine each.imp fun point block here => ?_
    exact converts.points_eq_ok_iff.mpr
      ⟨checked, [block], .cons here .nil, List.flatten_singleton⟩
  · have sizes : points.map size = blocks.map List.length := by
      rw [<- List.forall₂_eq_eq_eq, List.forall₂_map_left_iff, List.forall₂_map_right_iff]
      exact each.imp fun point block here => (converts.length_of_convert here).symm
    exact sizes.symm

/-- The place of the metric changes neither the number of its points nor a failure. -/
theorem length_points
    (converts : ConvertsEach schema metric ofPoints check require size convert)
    (placement other : Placement)
    (points : List α) :
    ((Metric.mk metric (some (ofPoints points))).points schema placement).map List.length =
      ((Metric.mk metric (some (ofPoints points))).points schema other).map List.length := by
  have same := map_length_mapM_congr
    (fun point => (converts.lengths placement point).trans (converts.lengths other point).symm)
    points
  rw [converts.points, converts.points]
  cases check with
  | error error => rfl
  | ok done => exact same

end ConvertsEach

/-! ## The kinds of data -/

/-- What is required of a data point with a number: that it has one. -/
def NumberPoint.require (metric : String) (point : NumberPoint) : Except Error Unit :=
  (point.requireValue metric).map fun _ => ()

theorem NumberPoint.require_eq_ok_iff {metric : String} {point : NumberPoint} :
    point.require metric = .ok () ↔ point.value.isSome := by
  rw [require, requireValue]
  cases point.value with
  | none => exact iff_of_false error_ne_ok Bool.false_ne_true
  | some value => exact iff_of_true rfl rfl

/-- Whatever is made of the number, a data point with one becomes one point. -/
theorem NumberPoint.map_length_requireValue
    (metric : String)
    (point : NumberPoint)
    (make : Number -> Point) :
    (((point.requireValue metric) >>= fun value => .ok (make value)).map ([·])).map
        List.length =
      (point.require metric).map fun _ => 1 := by
  rw [require]
  cases point.requireValue metric <;> rfl

/-- What is required of a data point of a histogram: that its counts fit its bounds. -/
def HistogramPoint.require (metric : String) (point : HistogramPoint) : Except Error Unit :=
  (point.totals metric).map fun _ => ()

theorem HistogramPoint.require_eq_ok_iff {metric : String} {point : HistogramPoint} :
    point.require metric = .ok () ↔ point.HasLayout := by
  rw [require, totals, HasLayout]
  by_cases none : point.counts.length = 0
  · rw [if_pos none]
    exact iff_of_true rfl (.inl none)
  · rw [if_neg none]
    by_cases fits :
        point.counts.length = point.bounds.length ∨
          point.counts.length = point.bounds.length + 1
    · rw [if_pos fits]
      exact iff_of_true rfl (.inr fits)
    · rw [if_neg fits]
      exact iff_of_false error_ne_ok (not_or.mpr ⟨none, fits⟩)

/-- There is a running total for each bound, unless there are no counts. -/
theorem HistogramPoint.length_totals
    {metric : String}
    {point : HistogramPoint}
    {totals : List UInt64}
    (found : point.totals metric = .ok totals) :
    totals.length = if point.counts.isEmpty then 0 else point.bounds.length := by
  rw [HistogramPoint.totals] at found
  have isEmpty : point.counts.isEmpty = true ↔ point.counts.length = 0 := by
    rw [List.isEmpty_iff, List.length_eq_zero_iff]
  split at found
  · rename_i none
    cases found
    rw [if_pos (isEmpty.mpr none), List.length_nil]
  · rename_i some
    rw [if_neg (mt isEmpty.mp some)]
    split at found
    · cases found
      rw [Buckets.length_cumulative, List.length_take]
      omega
    · cases found

/-- What is required of the temporality of a sum, before its data points are looked at. -/
def checkSum (schema : Schema) (metric : String) (temporality : Int) (monotonic : Bool) :
    Except Error Unit :=
  match schema with
  | .whole =>
      if !monotonic then .error (.nonMonotonicSum metric)
      else
        match Temporality.ofCode? temporality with
        | some _ => .ok ()
        | none => .error (.unsupportedTemporality metric temporality)
  | .sliced => do
      Temporality.requireCumulative metric temporality
      if !monotonic then .error (.nonMonotonicSum metric) else .ok ()

theorem Temporality.requireCumulative_eq_ok_iff {metric : String} {code : Int} :
    requireCumulative metric code = .ok () ↔ code = cumulative.code := by
  rw [requireCumulative]
  split
  · rename_i isCumulative
    exact iff_of_true rfl isCumulative
  · rename_i isNot
    exact iff_of_false error_ne_ok isNot

/-- A known temporality is one of the two. -/
theorem Temporality.isSome_ofCode?_iff {code : Int} :
    (ofCode? code).isSome ↔ code = cumulative.code ∨ code = delta.code := by
  rw [ofCode?, List.find?_isSome]
  simp [or_comm, eq_comm]

theorem checkSum_eq_ok_iff
    {schema : Schema}
    {metric : String}
    {temporality : Int}
    {monotonic : Bool} :
    checkSum schema metric temporality monotonic = .ok () ↔
      monotonic = true ∧
        (temporality = Temporality.cumulative.code ∨
          schema = .whole ∧ temporality = Temporality.delta.code) := by
  cases schema with
  | whole =>
      rw [checkSum]
      cases monotonic with
      | false => exact iff_of_false error_ne_ok fun both => Bool.false_ne_true both.1
      | true =>
          simp only [true_and]
          rw [<- Temporality.isSome_ofCode?_iff]
          cases Temporality.ofCode? temporality with
          | none => exact iff_of_false error_ne_ok Bool.false_ne_true
          | some temporality => exact iff_of_true rfl rfl
  | sliced =>
      have onlyCumulative :
          (temporality = Temporality.cumulative.code ∨
              Schema.sliced = .whole ∧ temporality = Temporality.delta.code) ↔
            temporality = Temporality.cumulative.code :=
        or_iff_left fun both => nomatch both.1
      have required : Temporality.requireCumulative metric temporality = .ok () ↔
          temporality = Temporality.cumulative.code := Temporality.requireCumulative_eq_ok_iff
      rw [onlyCumulative, <- required, checkSum]
      cases Temporality.requireCumulative metric temporality with
      | error error => exact iff_of_false error_ne_ok fun both => nomatch both.2
      | ok done =>
          cases monotonic with
          | false => exact iff_of_false error_ne_ok fun both => Bool.false_ne_true both.1
          | true => exact iff_of_true rfl ⟨rfl, rfl⟩

/-- The data points of a gauge are converted one by one. -/
theorem exists_convertsEach_gauge (schema : Schema) (metric : String) :
    ∃ convert,
      ConvertsEach schema metric .gauge (.ok ()) (NumberPoint.require metric) (fun _ => 1)
        convert := by
  cases schema with
  | whole =>
      refine ⟨fun placement point => (Whole.gaugePoint placement metric point).map ([·]), ?_, ?_⟩
      · exact fun placement points => mapM_eq_map_flatten _ points
      · exact fun placement point => point.map_length_requireValue metric _
  | sliced =>
      refine ⟨fun placement point =>
        (Sliced.numberPoint placement metric .gauge point).map ([·]), ?_, ?_⟩
      · exact fun placement points => mapM_eq_map_flatten _ points
      · exact fun placement point => point.map_length_requireValue metric _

/-- The data points of a sum are converted one by one. -/
theorem exists_convertsEach_sum
    (schema : Schema)
    (metric : String)
    (temporality : Int)
    (monotonic : Bool) :
    ∃ convert,
      ConvertsEach schema metric (.sum · temporality monotonic)
        (checkSum schema metric temporality monotonic) (NumberPoint.require metric)
        (fun _ => 1) convert := by
  cases schema with
  | whole =>
      -- the check lets only the two known temporalities through
      refine ⟨fun placement point => (Whole.counterPoint placement metric
        ((Temporality.ofCode? temporality).getD .cumulative) point).map ([·]), ?_, ?_⟩
      · intro placement points
        rw [<- mapM_eq_map_flatten]
        change Whole.sumPoints placement metric points temporality monotonic = _
        rw [Whole.sumPoints, checkSum]
        cases monotonic with
        | false => rfl
        | true => cases Temporality.ofCode? temporality <;> rfl
      · exact fun placement point => point.map_length_requireValue metric _
  | sliced =>
      refine ⟨fun placement point =>
        (Sliced.numberPoint placement metric .sum point).map ([·]), ?_, ?_⟩
      · intro placement points
        rw [<- mapM_eq_map_flatten]
        change Sliced.sumPoints placement metric points temporality monotonic = _
        rw [Sliced.sumPoints, checkSum]
        cases Temporality.requireCumulative metric temporality <;> cases monotonic <;> rfl
      · exact fun placement point => point.map_length_requireValue metric _

/-- The points of a data point of a histogram. -/
def HistogramPoint.block
    (schema : Schema)
    (metric : String)
    (placement : Placement)
    (point : HistogramPoint) : Except Error (List Point) :=
  match schema with
  | .whole => (Whole.histogramPoint placement metric point).map ([·])
  | .sliced => Sliced.histogramPoints placement metric point

/-- The data points of a histogram are converted one by one. -/
theorem convertsEach_histogram (schema : Schema) (metric : String) (temporality : Int) :
    ConvertsEach schema metric (.histogram · temporality)
      (Temporality.requireCumulative metric temporality) (HistogramPoint.require metric)
      (HistogramPoint.pointCount schema) (HistogramPoint.block schema metric) := by
  cases schema with
  | whole =>
      constructor
      · exact fun placement points =>
          congrArg (_ >>= fun _ => ·) (mapM_eq_map_flatten _ points)
      · intro placement point
        rw [HistogramPoint.block, Whole.histogramPoint, HistogramPoint.require]
        cases point.totals metric <;> rfl
  | sliced =>
      constructor
      · exact fun placement points =>
          congrArg (_ >>= fun _ => ·) (bind_ok_eq_map List.flatten)
      · intro placement point
        rw [HistogramPoint.block, Sliced.histogramPoints, HistogramPoint.require]
        cases found : point.totals metric with
        | error error => rfl
        | ok totals =>
            have length := HistogramPoint.length_totals found
            refine congrArg Except.ok ?_
            rw [HistogramPoint.pointCount]
            dsimp only
            split
            · rfl
            · rename_i some
              rw [if_neg some] at length
              simp [length]

/-- The points of a data point of a summary. -/
def SummaryPoint.block
    (schema : Schema)
    (metric : String)
    (placement : Placement)
    (point : SummaryPoint) : Except Error (List Point) :=
  match schema with
  | .whole => .ok [Whole.summaryPoint placement metric point]
  | .sliced => .ok (Sliced.summaryPoints placement metric point)

/-- The data points of a summary are converted one by one. -/
theorem convertsEach_summary (schema : Schema) (metric : String) :
    ConvertsEach schema metric .summary (.ok ()) (fun _ => .ok ())
      (SummaryPoint.pointCount schema) (SummaryPoint.block schema metric) := by
  cases schema with
  | whole =>
      constructor
      · intro placement points
        exact List.mapM_pure.symm.trans (mapM_eq_map_flatten _ points)
      · exact fun placement point => rfl
  | sliced =>
      constructor
      · intro placement points
        have converted : points.mapM (SummaryPoint.block .sliced metric placement) =
            .ok (points.map (Sliced.summaryPoints placement metric)) := List.mapM_pure
        rw [converted]
        exact congrArg Except.ok (List.flatMap_def ..)
      · intro placement point
        refine congrArg Except.ok ?_
        rw [Sliced.summaryPoints, List.length_cons, List.length_map, Nat.add_comm]
        rfl

/-! ## The points of a metric -/

/-- Data whose data points are converted one by one, with what this means for the domain and
the size of the conversion. -/
inductive ConvertedEach (schema : Schema) (metric : String) : MetricData -> Prop
  | intro
      {α : Type}
      {ofPoints : List α -> MetricData}
      {check : Except Error Unit}
      {require : α -> Except Error Unit}
      {size : α -> Nat}
      {convert : Placement -> α -> Except Error (List Point)}
      {points : List α}
      (converts : ConvertsEach schema metric ofPoints check require size convert)
      (expressible : (ofPoints points).Expressible schema ↔
        check = .ok () ∧ ∀ point ∈ points, require point = .ok ())
      (singles : (ofPoints points).singles = points.map fun point => ofPoints [point])
      (counts : (ofPoints points).pointCounts schema = points.map size) :
      ConvertedEach schema metric (ofPoints points)

/-- All data but exponential histograms are converted data point by data point. -/
theorem convertedEach
    {data : MetricData}
    (schema : Schema)
    (metric : String)
    (known : data ≠ .exponentialHistogram) :
    ConvertedEach schema metric data := by
  have numbers {points : List NumberPoint} :
      (∀ point ∈ points, point.require metric = .ok ()) ↔
        ∀ point ∈ points, point.value.isSome :=
    forall₂_congr fun _ _ => NumberPoint.require_eq_ok_iff
  cases data with
  | gauge points =>
      obtain ⟨convert, converts⟩ := exists_convertsEach_gauge schema metric
      exact .intro converts ((and_iff_right rfl).trans numbers).symm rfl rfl
  | sum points temporality monotonic =>
      obtain ⟨convert, converts⟩ := exists_convertsEach_sum schema metric temporality monotonic
      refine .intro converts ?_ rfl rfl
      rw [checkSum_eq_ok_iff, numbers, and_assoc]
      exact Iff.rfl
  | histogram points temporality =>
      refine .intro (convertsEach_histogram schema metric temporality) ?_ rfl rfl
      simp only [HistogramPoint.require_eq_ok_iff, Temporality.requireCumulative_eq_ok_iff]
      exact Iff.rfl
  | exponentialHistogram => exact absurd rfl known
  | summary points =>
      refine .intro (convertsEach_summary schema metric) ?_ rfl rfl
      exact iff_of_true trivial ⟨rfl, fun _ _ => rfl⟩

/-- The points of the metric come in blocks, which are the points of each of its data points
alone and have the stated numbers of points. -/
def Metric.ComesInBlocks
    (schema : Schema)
    (placement : Placement)
    (metric : Metric)
    (points : List Point) : Prop :=
  ∃ data blocks,
    metric.data = some data ∧
      List.Forall₂
          (fun single block =>
            (Metric.mk metric.name (some single)).points schema placement = .ok block)
          data.singles blocks ∧
        blocks.map List.length = data.pointCounts schema ∧ blocks.flatten = points

/-- A metric without data, or with those of an exponential histogram, has no points. -/
theorem Metric.exists_error
    {metric : Metric}
    (schema : Schema)
    (unknown : ∀ data, metric.data = some data -> data = .exponentialHistogram) :
    ∃ error, ∀ placement, metric.points schema placement = .error error := by
  obtain ⟨name, none | data⟩ := metric
  · exact ⟨_, fun placement => rfl⟩
  · cases unknown data rfl
    cases schema <;> exact ⟨_, fun placement => rfl⟩

/-- A metric can be turned into points exactly if it has data that the schema can express.
Its points come in blocks, one for each data point in their order: a block has one point
under the first schema. Under the second one it has one point for a number, one more than
there are quantiles for a summary, and for a histogram one point without counts and two more
than there are bounds with counts. The place of the metric changes neither the number of
points nor a failure. -/
theorem Metric.points_domain_and_size
    (schema : Schema)
    (placement : Placement)
    (metric : Metric) :
    ((∃ points, metric.points schema placement = .ok points) ↔ metric.Expressible schema) ∧
      (∀ points, metric.points schema placement = .ok points ->
        metric.ComesInBlocks schema placement points) ∧
      ∀ other,
        (metric.points schema other).map List.length =
          (metric.points schema placement).map List.length := by
  by_cases known : ∃ data, metric.data = some data ∧ data ≠ .exponentialHistogram
  · obtain ⟨data, isData, known⟩ := known
    obtain ⟨name, _⟩ := metric
    cases isData
    obtain ⟨converts, expressible, singles, counts⟩ := convertedEach schema name known
    refine ⟨?_, fun points converted => ?_, fun other => converts.length_points other placement _⟩
    · rw [converts.exists_points_iff, <- expressible]
      exact ⟨fun isExpressible => ⟨_, rfl, isExpressible⟩,
        fun ⟨_, same, isExpressible⟩ => Option.some.inj same ▸ isExpressible⟩
    · obtain ⟨blocks, each, lengths, same⟩ := converts.exists_blocks converted
      exact ⟨_, blocks, rfl, singles ▸ each, lengths.trans counts.symm, same⟩
  · have unknown : ∀ data, metric.data = some data -> data = .exponentialHistogram :=
      fun data isData => by_contra fun isKnown => known ⟨data, isData, isKnown⟩
    obtain ⟨error, fails⟩ := metric.exists_error schema unknown
    refine ⟨iff_of_false ?_ ?_, fun points converted => ?_, fun other => ?_⟩
    · rintro ⟨points, converted⟩
      cases (fails placement).symm.trans converted
    · rintro ⟨data, isData, isExpressible⟩
      rw [unknown data isData] at isExpressible
      exact isExpressible
    · cases (fails placement).symm.trans converted
    · rw [fails, fails]

end LineMetrics
