import LineMetrics.DistributionPoints
import LineMetrics.Proofs.ExpressibleMetrics
import LineMetrics.Proofs.WholePoints

/-!
# What both schemas write of a distribution

Under both schemas a data point of a histogram or a summary is written with the same tags and
the same time, the same count and sum, and the same parts. A whole point has a field for each
of its parts, and of parts with one key the last stays. Sliced points have a line for each of
them, so they agree on the parts if the keys are different, and the keys of finite places are
different if the places are.
-/

namespace LineMetrics

namespace Distribution

/-- The tag that selects a part of a distribution. -/
def selector : Distribution -> String
  | .histogram => ReservedName.bucketBound
  | .summary => ReservedName.quantile

/-- The field with the value of a part of a distribution. -/
def partField (metric : String) : Distribution -> String
  | .histogram => metric ++ ReservedName.bucketEnding
  | .summary => metric

end Distribution

/-- The kind of distribution that the data are of. -/
def MetricData.distribution? : MetricData -> Option Distribution
  | .histogram .. => some .histogram
  | .summary _ => some .summary
  | _ => none

namespace DistributionPoint

/-- The kind of distribution that the data point is of. -/
def kind : DistributionPoint -> Distribution
  | .histogram _ => .histogram
  | .summary _ => .summary

/-- The buckets of the data point end with one that holds every observation. -/
def isClosed : DistributionPoint -> Bool
  | .histogram point => !point.counts.isEmpty
  | .summary _ => false

/-- The points of the data point under a schema. -/
def block
    (schema : Schema)
    (metric : String)
    (placement : Placement) : DistributionPoint -> Except Error (List Point)
  | .histogram point => point.block schema metric placement
  | .summary point => point.block schema metric placement

/-- A line that states a part of a data point next to its whole point: it has one more tag,
which selects the part, and the part in its only field. -/
structure StatesPart
    (metric : String)
    (point : DistributionPoint)
    (whole : Point)
    (part : String × FieldValue)
    (line : Point) : Prop where
  tags : line.tags = whole.tags.insert point.kind.selector part.1
  time : line.time = whole.time
  fields : line.fields = (∅ : Fields).insert (point.kind.partField metric) part.2

/-- A whole point and lines of one data point carry the same. The first line has the count
and the sum, the next ones have the parts, and the last one, if there is one, states the
count again as an infinite bucket. -/
structure SameContent
    (metric : String)
    (point : DistributionPoint)
    (whole total : Point)
    (parts : List Point)
    (closing : Option Point) : Prop where
  tags : total.tags = whole.tags
  time : total.time = whole.time
  count : ∃ count,
    whole.fields.find? ReservedName.count = some count ∧
      total.fields.find? (metric ++ ReservedName.countEnding) = some count
  sum : ∃ sum,
    whole.fields.find? ReservedName.sum = some sum ∧
      total.fields.find? (metric ++ ReservedName.sumEnding) = some sum
  parts : ∃ stated,
    List.Forall₂ (point.StatesPart metric whole) stated parts ∧
      ((∀ place ∈ point.places, place.isFinite = true) -> point.places.Nodup ->
        ((whole.fields.erase ReservedName.count).erase ReservedName.sum).entries.Perm stated)
  closed : closing.isSome = point.isClosed
  closing : ∀ line ∈ closing, ∃ count,
    whole.fields.find? ReservedName.count = some count ∧
      point.StatesPart metric whole (ReservedName.infiniteBound, count) line

/-- A whole point and lines are those of one data point under the two schemas, and carry the
same. -/
def WrittenAlike
    (metric : String)
    (placement : Placement)
    (point : DistributionPoint)
    (written : Point × List Point) : Prop :=
  point.block .whole metric placement = .ok [written.1] ∧
    point.block .sliced metric placement = .ok written.2 ∧
      ∃ total parts closing,
        written.2 = total :: (parts ++ closing.toList) ∧
          point.SameContent metric written.1 total parts closing

/-! ## The points of a data point -/

/-- The parts that are written for the data point: the running total of each bucket, or the
value of each quantile. -/
def parts (metric : String) : DistributionPoint -> Except Error (List (Binary64 × Binary64))
  | .histogram point =>
      (point.totals metric).map fun totals =>
        point.bounds.zip (totals.map fun total => .ofNat total.toNat)
  | .summary point => .ok point.pairs

/-- The whole point of the data point with some parts. -/
def wholePoint
    (metric : String)
    (placement : Placement)
    (point : DistributionPoint)
    (parts : List (Binary64 × Binary64)) : Point :=
  Whole.distributionPoint
    (Whole.bare placement metric point.attributes point.time point.kind.hint)
    point.count (point.sum?.getD .zero) parts

/-- What the lines of the data point have in common. -/
def bareLine (placement : Placement) (point : DistributionPoint) : Point :=
  Sliced.bare placement point.attributes point.time point.kind.hint

/-- The line with the count and the sum of the data point. -/
def totalLine (metric : String) (placement : Placement) (point : DistributionPoint) : Point :=
  Sliced.totalPoint (point.bareLine placement) metric point.count (point.sum?.getD .zero)

/-- The line with a part of the data point. -/
def partLine
    (metric : String)
    (placement : Placement)
    (point : DistributionPoint)
    (part : String × FieldValue) : Point :=
  ((point.bareLine placement).withTag point.kind.selector part.1).withField
    (point.kind.partField metric) part.2

/-- The line with the infinite bucket of the data point, if it has one. -/
def closingLine? (metric : String) (placement : Placement) (point : DistributionPoint) :
    Option Point :=
  if point.isClosed then
    some <| point.partLine metric placement
      (ReservedName.infiniteBound, .float (.ofNat point.count.toNat))
  else none

variable {point : DistributionPoint}

/-- As a whole, the data point becomes its whole point with its parts. -/
theorem block_whole (metric : String) (placement : Placement) (point : DistributionPoint) :
    point.block .whole metric placement =
      (point.parts metric).map fun parts => [point.wholePoint metric placement parts] := by
  cases point with
  | histogram point =>
      change (Whole.histogramPoint placement metric point).map ([·]) = _
      rw [Whole.histogramPoint, parts]
      cases point.totals metric <;> rfl
  | summary point => rfl

/-- In slices, the data point becomes its first line, a line for each part and perhaps a
closing one. -/
theorem block_sliced (metric : String) (placement : Placement) (point : DistributionPoint) :
    point.block .sliced metric placement =
      (point.parts metric).map fun parts =>
        point.totalLine metric placement ::
          ((Whole.partFields parts).map (point.partLine metric placement) ++
            (point.closingLine? metric placement).toList) := by
  cases point with
  | histogram point =>
      change Sliced.histogramPoints placement metric point = _
      rw [Sliced.histogramPoints, parts]
      cases found : point.totals metric with
      | error error => rfl
      | ok totals =>
          refine congrArg (fun lines => Except.ok (_ :: lines)) ?_
          dsimp only
          rw [closingLine?, isClosed, Whole.partFields, List.zip_map_right, List.map_map,
            List.map_map]
          cases isEmpty : point.counts.isEmpty with
          | false => rfl
          | true =>
              -- without counts there are no running totals, so no bound has a part
              have none : totals.length = 0 := by
                rw [HistogramPoint.length_totals found, if_pos isEmpty]
              rw [List.eq_nil_of_length_eq_zero none, List.zip_nil_right]
              rfl
  | summary point =>
      refine congrArg (fun lines => Except.ok (_ :: lines)) ?_
      rw [Whole.partFields, SummaryPoint.pairs, List.map_map, List.map_map, closingLine?,
        isClosed]
      exact (List.append_nil _).symm

/-- The places of the written parts are among those of the data point. -/
theorem sublist_places
    {metric : String}
    {parts : List (Binary64 × Binary64)}
    (written : point.parts metric = .ok parts) :
    (parts.map Prod.fst).Sublist point.places := by
  cases point with
  | histogram point =>
      obtain ⟨totals, found, rfl⟩ := exists_of_map_eq_ok written
      have length := HistogramPoint.length_totals found
      split at length
      · rw [List.eq_nil_of_length_eq_zero length]
        exact List.zip_nil_right ▸ List.nil_sublist _
      · rw [List.map_fst_zip (by rw [List.length_map, length])]
        exact .refl _
  | summary point =>
      cases written
      exact point.map_fst_pairs ▸ List.Sublist.refl _

/-- The whole point has the tags and the time that all lines have. -/
theorem tags_time_wholePoint
    (metric : String)
    (placement : Placement)
    (point : DistributionPoint)
    (parts : List (Binary64 × Binary64)) :
    (point.wholePoint metric placement parts).tags = (point.bareLine placement).tags ∧
      (point.wholePoint metric placement parts).time = (point.bareLine placement).time := by
  rw [wholePoint, Whole.distributionPoint, Whole.withParts_eq]
  exact ⟨rfl, rfl⟩

/-- The line with a part states it. -/
theorem statesPart_partLine
    (metric : String)
    (placement : Placement)
    (point : DistributionPoint)
    (parts : List (Binary64 × Binary64))
    (part : String × FieldValue) :
    point.StatesPart metric (point.wholePoint metric placement parts) part
      (point.partLine metric placement part) := by
  obtain ⟨tags, time⟩ := tags_time_wholePoint metric placement point parts
  refine ⟨?_, time.symm, rfl⟩
  rw [tags]
  rfl

/-- The whole point has a count and a sum, whatever its parts are. -/
theorem find?_wholePoint
    (metric : String)
    (placement : Placement)
    (point : DistributionPoint)
    (parts : List (Binary64 × Binary64)) :
    (point.wholePoint metric placement parts).fields.find? ReservedName.count =
        some (.float (.ofNat point.count.toNat)) ∧
      (point.wholePoint metric placement parts).fields.find? ReservedName.sum =
        some (.float (point.sum?.getD .zero)) := by
  rw [wholePoint, Whole.fields_distributionPoint rfl]
  constructor
  · refine (Dictionary.find?_foldl_insert _ fun entry member =>
      (Whole.key_of_mem_partFields member).1).trans ?_
    rw [Dictionary.find?_insert, if_neg (Ne.symm Whole.reserved_not_numbers.1),
      Dictionary.find?_insert, if_pos rfl]
  · refine (Dictionary.find?_foldl_insert _ fun entry member =>
      (Whole.key_of_mem_partFields member).2).trans ?_
    rw [Dictionary.find?_insert, if_pos rfl]

/-- Besides its count and its sum, the whole point has a field for each of its parts, if
these stand at different finite places. -/
theorem remaining_wholePoint
    {parts : List (Binary64 × Binary64)}
    (metric : String)
    (placement : Placement)
    (finite : ∀ place ∈ parts.map Prod.fst, place.isFinite = true)
    (distinct : (parts.map Prod.fst).Nodup) :
    (((point.wholePoint metric placement parts).fields.erase ReservedName.count).erase
        ReservedName.sum).entries.Perm (Whole.partFields parts) := by
  have noFields :
      (Whole.bare placement metric point.attributes point.time point.kind.hint).fields = ∅ := rfl
  have entries := Whole.entries_distributionPoint noFields point.count
    (point.sum?.getD .zero) finite distinct
  have withoutCount := Dictionary.entries_erase_perm entries <| List.forall_mem_cons.mpr
    ⟨Whole.reserved_not_numbers.1, fun other member => (Whole.key_of_mem_partFields member).1⟩
  exact Dictionary.entries_erase_perm withoutCount
    fun other member => (Whole.key_of_mem_partFields member).2

/-- The first line has the count and the sum. -/
theorem find?_totalLine (metric : String) (placement : Placement) (point : DistributionPoint) :
    (point.totalLine metric placement).fields.find? (metric ++ ReservedName.countEnding) =
        some (.float (.ofNat point.count.toNat)) ∧
      (point.totalLine metric placement).fields.find? (metric ++ ReservedName.sumEnding) =
        some (.float (point.sum?.getD .zero)) := by
  have endings : metric ++ ReservedName.countEnding ≠ metric ++ ReservedName.sumEnding :=
    fun same => absurd (String.append_right_inj metric |>.mp same) (by decide)
  rw [totalLine, Sliced.totalPoint, Point.withField, Point.withField]
  dsimp only
  constructor
  · rw [Dictionary.find?_insert, if_neg endings, Dictionary.find?_insert, if_pos rfl]
  · rw [Dictionary.find?_insert, if_pos rfl]

/-- There is a closing line if the buckets end with one that holds every observation. -/
theorem isSome_closingLine? (metric : String) (placement : Placement) :
    (point.closingLine? metric placement).isSome = point.isClosed := by
  rw [closingLine?]
  cases point.isClosed <;> rfl

/-- The closing line is one with a part, namely the count as an infinite bucket. -/
theorem closingLine_eq
    {metric : String}
    {placement : Placement}
    {line : Point}
    (isLine : line ∈ point.closingLine? metric placement) :
    line = point.partLine metric placement
      (ReservedName.infiniteBound, .float (.ofNat point.count.toNat)) := by
  rw [closingLine?] at isLine
  split at isLine
  · exact (Option.some.inj isLine).symm
  · cases isLine

/-- The whole point and the lines of the same parts carry the same. -/
theorem sameContent
    {metric : String}
    {parts : List (Binary64 × Binary64)}
    (placement : Placement)
    (written : point.parts metric = .ok parts) :
    point.SameContent metric (point.wholePoint metric placement parts)
      (point.totalLine metric placement)
      ((Whole.partFields parts).map (point.partLine metric placement))
      (point.closingLine? metric placement) := by
  obtain ⟨tags, time⟩ := tags_time_wholePoint metric placement point parts
  obtain ⟨wholeCount, wholeSum⟩ := find?_wholePoint metric placement point parts
  obtain ⟨lineCount, lineSum⟩ := find?_totalLine metric placement point
  have states := statesPart_partLine metric placement point parts
  have among := sublist_places written
  refine ⟨tags.symm, time.symm, ⟨_, wholeCount, lineCount⟩, ⟨_, wholeSum, lineSum⟩,
    ⟨Whole.partFields parts, ?_, fun finite distinct => ?_⟩,
    isSome_closingLine? metric placement, fun line isLine => ⟨_, wholeCount, ?_⟩⟩
  · rw [List.forall₂_map_right_iff, List.forall₂_same]
    exact fun part _ => states part
  · exact remaining_wholePoint metric placement
      (fun place member => finite place (among.subset member)) (distinct.sublist among)
  · rw [closingLine_eq isLine]
    exact states _

/-- The data point can be written if it has parts, whatever the schema. -/
theorem exists_block_iff
    (schema : Schema)
    (metric : String)
    (placement : Placement)
    (point : DistributionPoint) :
    (∃ block, point.block schema metric placement = .ok block) ↔
      ∃ parts, point.parts metric = .ok parts := by
  cases schema with
  | whole =>
      rw [block_whole]
      exact exists_map_eq_ok_iff
  | sliced =>
      rw [block_sliced]
      exact exists_map_eq_ok_iff

/-- Under the two schemas the data point becomes a whole point and lines that carry the
same. -/
theorem writtenAlike
    {metric : String}
    {placement : Placement}
    {wholes lines : List Point}
    (whole : point.block .whole metric placement = .ok wholes)
    (sliced : point.block .sliced metric placement = .ok lines) :
    ∃ written, wholes = [written] ∧ point.WrittenAlike metric placement (written, lines) := by
  obtain ⟨parts, hasParts, sameWhole⟩ := exists_of_map_eq_ok <| block_whole .. ▸ whole
  obtain ⟨others, hasOthers, sameLines⟩ := exists_of_map_eq_ok <| block_sliced .. ▸ sliced
  cases hasParts.symm.trans hasOthers
  refine ⟨point.wholePoint metric placement parts, sameWhole.symm, ?_, sliced, ?_⟩
  · exact sameWhole ▸ whole
  · exact ⟨_, _, _, sameLines.symm, sameContent placement hasParts⟩

end DistributionPoint

/-! ## The points of a metric -/

/-- After a check of the metric, the points of a distribution are those of its data points,
one after another. -/
theorem MetricData.exists_check
    {data : MetricData}
    {kind : Distribution}
    (metric : String)
    (isDistribution : data.distribution? = some kind) :
    ∃ check : Except Error Unit, ∀ schema placement result,
      (Metric.mk metric (some data)).points schema placement = .ok result ↔
        check = .ok () ∧
          ∃ blocks,
            List.Forall₂ (fun point block => point.block schema metric placement = .ok block)
                data.distributionPoints blocks ∧
              blocks.flatten = result := by
  cases data with
  | gauge points => cases isDistribution
  | sum points temporality monotonic => cases isDistribution
  | histogram points temporality =>
      refine ⟨Temporality.requireCumulative metric temporality, fun schema placement result =>
        (convertsEach_histogram schema metric temporality).points_eq_ok_iff.trans ?_⟩
      simp only [distributionPoints, List.forall₂_map_left_iff]
      exact Iff.rfl
  | exponentialHistogram => cases isDistribution
  | summary points =>
      refine ⟨.ok (), fun schema placement result =>
        (convertsEach_summary schema metric).points_eq_ok_iff.trans ?_⟩
      simp only [distributionPoints, List.forall₂_map_left_iff]
      exact Iff.rfl

/-- Blocks of one element each and blocks of the other kind that are combined one by one
become pairs. -/
theorem exists_pairs
    {α β γ : Type}
    {first : α -> List β -> Prop}
    {second : α -> List γ -> Prop}
    {both : α -> β × List γ -> Prop}
    {elements : List α}
    {singles : List (List β)}
    {blocks : List (List γ)}
    (combine : ∀ element single block, first element single -> second element block ->
      ∃ value, single = [value] ∧ both element (value, block))
    (firsts : List.Forall₂ first elements singles)
    (seconds : List.Forall₂ second elements blocks) :
    ∃ pairs : List (β × List γ),
      pairs.map Prod.fst = singles.flatten ∧ pairs.flatMap Prod.snd = blocks.flatten ∧
        List.Forall₂ both elements pairs := by
  induction firsts generalizing blocks with
  | nil =>
      cases seconds
      exact ⟨[], rfl, rfl, .nil⟩
  | cons here behind inductionHypothesis =>
      obtain _ | ⟨otherHere, otherBehind⟩ := seconds
      obtain ⟨value, rfl, related⟩ := combine _ _ _ here otherHere
      obtain ⟨pairs, values, flat, others⟩ := inductionHypothesis otherBehind
      refine ⟨(value, _) :: pairs, ?_, ?_, .cons related others⟩
      · exact congrArg (value :: ·) values
      · exact congrArg (_ ++ ·) flat

/-- A histogram or a summary can be written as whole points exactly if it can be written as
lines. Then each of its data points has one whole point and some lines, in their order, and
these carry the same: one line has the tags and the time of the whole point with its count and
its sum, each of the others has one tag more, and for different finite places the other
fields of the whole point are what these lines state. -/
theorem Metric.points_whole_and_sliced
    {metric : Metric}
    {data : MetricData}
    {kind : Distribution}
    (hasData : metric.data = some data)
    (isDistribution : data.distribution? = some kind)
    (placement : Placement) :
    ((∃ wholes, metric.points .whole placement = .ok wholes) ↔
        ∃ lines, metric.points .sliced placement = .ok lines) ∧
      ∀ wholes lines,
        metric.points .whole placement = .ok wholes ->
          metric.points .sliced placement = .ok lines ->
            ∃ pairs : List (Point × List Point),
              pairs.map Prod.fst = wholes ∧ pairs.flatMap Prod.snd = lines ∧
                List.Forall₂ (DistributionPoint.WrittenAlike metric.name placement)
                  data.distributionPoints pairs := by
  obtain ⟨name, _⟩ := metric
  cases hasData
  obtain ⟨check, points_iff⟩ := data.exists_check name isDistribution
  have succeeds (schema : Schema) :
      (∃ points, (Metric.mk name (some data)).points schema placement = .ok points) ↔
        check = .ok () ∧
          ∀ point ∈ data.distributionPoints, ∃ parts, point.parts name = .ok parts := by
    simp only [points_iff, <- DistributionPoint.exists_block_iff schema name placement,
      <- exists_mapM_eq_ok_iff, mapM_eq_ok_iff]
    exact ⟨fun ⟨_, checked, blocks, converted, _⟩ => ⟨checked, blocks, converted⟩,
      fun ⟨checked, blocks, converted⟩ => ⟨_, checked, blocks, converted, rfl⟩⟩
  refine ⟨(succeeds .whole).trans (succeeds .sliced).symm, fun wholes lines whole sliced => ?_⟩
  -- both lists of blocks are over the same data points, so they can be paired one by one
  obtain ⟨-, singles, wholeBlocks, rfl⟩ := (points_iff _ _ _).mp whole
  obtain ⟨-, blocks, lineBlocks, rfl⟩ := (points_iff _ _ _).mp sliced
  exact exists_pairs (fun point single block => DistributionPoint.writtenAlike) wholeBlocks
    lineBlocks

/-- A histogram with two finite bounds becomes one whole point and four lines, which carry the
same. -/
theorem Metric.points_whole_and_sliced_latency :
    let point : HistogramPoint := {
      time := 7
      count := 6
      counts := [1, 2, 3]
      bounds := [⟨0x3fe0000000000000⟩, ⟨0x3ff0000000000000⟩] }
    let data : MetricData := .histogram [point] Temporality.cumulative.code
    let metric : Metric := ⟨"latency", some data⟩
    (metric.data = some data ∧ data.distribution? = some .histogram) ∧
      ((∀ place ∈ point.bounds, place.isFinite = true) ∧ point.bounds.Nodup) ∧
        ∃ whole lines,
          metric.points .whole {} = .ok [whole] ∧ metric.points .sliced {} = .ok lines ∧
            lines.length = 4 ∧
              ∃ pairs : List (Point × List Point),
                pairs.map Prod.fst = [whole] ∧ pairs.flatMap Prod.snd = lines ∧
                  List.Forall₂ (DistributionPoint.WrittenAlike "latency" {})
                    [.histogram point] pairs := by
  intro point data metric
  have hasData : metric.data = some data := rfl
  exact ⟨⟨hasData, rfl⟩, by decide, _, _, rfl, rfl, rfl,
    (Metric.points_whole_and_sliced hasData rfl {}).2 _ _ rfl rfl⟩

end LineMetrics
