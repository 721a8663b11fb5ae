import LineMetrics.Proofs.PlaceKeys
import LineMetrics.Proofs.StatedDistributions

/-!
# Types told by the form of points

A point without a hint is given a type by its fields and tags. Where a metric is written
with fields or tags that stand for its type alone, that is the type its hint names: a whole
point has the value field of a gauge or a counter, or the count of a distribution, and a
slice of a histogram has a selecting tag or a total. Then a batch takes the point alike with
and without its hint.
-/

namespace LineMetrics

/-- The point without a hint. -/
def Point.unhinted (point : Point) : Point := { point with hint := .untyped }

theorem Point.hint_unhinted (point : Point) : point.unhinted.hint = .untyped := rfl

/-- Points of the data tell their type by their form. The whole points of a summary look like
those of a histogram, and of the slices only those of a histogram tell their type. -/
def MetricData.showsType : Schema -> MetricData -> Bool
  | .whole, .gauge _ => true
  | .whole, .sum .. => true
  | .whole, .histogram .. => true
  | .sliced, .histogram .. => true
  | _, _ => false

namespace Dictionary

variable {α : Type}

/-- A key with a value is listed. -/
theorem mem_keys_of_find? {dictionary : Dictionary α} {key : String} {value : α}
    (found : dictionary.find? key = some value) : key ∈ dictionary.keys :=
  List.mem_map_of_mem (find?_eq_some_iff.mp found)

/-- A key with a value is contained. -/
theorem contains_of_find? {dictionary : Dictionary α} {key : String} {value : α}
    (found : dictionary.find? key = some value) : dictionary.contains key = true := by
  rw [contains, found]
  rfl

/-- A key without a value is not contained. -/
theorem not_contains_of_find? {dictionary : Dictionary α} {key : String}
    (absent : dictionary.find? key = none) : ¬dictionary.contains key = true := by
  rw [contains, absent]
  exact Bool.false_ne_true

end Dictionary

/-! ## Whole points -/

namespace Whole

variable {point : Point} {value : FieldValue}

/-- The type of a point without a hint is the one that its hint names. -/
def TellsType (point : Point) : Prop :=
  point.hint ≠ .untyped ∧ typeOf point.unhinted = point.hint

/-- Without a hint, the fields decide on the type. -/
theorem typeOf_unhinted (point : Point) :
    typeOf point.unhinted =
      if point.fields.contains ReservedName.gauge then .gauge
      else if point.fields.contains ReservedName.counter then .sum
      else if point.fields.keys.any isDistributionField then .histogram
      else .untyped :=
  if_neg (not_not_intro rfl)

/-- The value field of a gauge tells its type. -/
theorem tellsType_gauge
    (hinted : point.hint = .gauge)
    (found : point.fields.find? ReservedName.gauge = some value) :
    TellsType point := by
  refine ⟨by rw [hinted]; decide, ?_⟩
  rw [typeOf_unhinted, if_pos (Dictionary.contains_of_find? found), hinted]

/-- The value field of a counter tells its type. -/
theorem tellsType_counter
    (hinted : point.hint = .sum)
    (noGauge : point.fields.find? ReservedName.gauge = none)
    (found : point.fields.find? ReservedName.counter = some value) :
    TellsType point := by
  refine ⟨by rw [hinted]; decide, ?_⟩
  rw [typeOf_unhinted, if_neg (Dictionary.not_contains_of_find? noGauge),
    if_pos (Dictionary.contains_of_find? found), hinted]

/-- The count of a histogram tells its type. -/
theorem tellsType_histogram
    (hinted : point.hint = .histogram)
    (noGauge : point.fields.find? ReservedName.gauge = none)
    (noCounter : point.fields.find? ReservedName.counter = none)
    (found : point.fields.find? ReservedName.count = some value) :
    TellsType point := by
  refine ⟨by rw [hinted]; decide, ?_⟩
  have counted : point.fields.keys.any isDistributionField = true :=
    List.any_eq_true.mpr ⟨_, Dictionary.mem_keys_of_find? found, rfl⟩
  rw [typeOf_unhinted, if_neg (Dictionary.not_contains_of_find? noGauge),
    if_neg (Dictionary.not_contains_of_find? noCounter), if_pos counted, hinted]

/-- A point that tells its type has the same observations without its hint. -/
theorem TellsType.observations_unhinted (tells : TellsType point) (now : UInt64) :
    observations now point.unhinted = observations now point := by
  rw [observations, observations, tells.2, typeOf_of_hint tells.1]
  rfl

/-- The parts of a distribution have no reserved field. -/
theorem find?_distributionPoint_reserved
    {key : String}
    (noNumber : Binary64.ofKey? key = none)
    (noWord : key ≠ "NaN")
    (point : Point)
    (count : UInt64)
    (sum : Binary64)
    (parts : List (Binary64 × Binary64)) :
    (distributionPoint point count sum parts).fields.find? key =
      if key = ReservedName.sum then some (.float sum)
      else if key = ReservedName.count then some (.float (.ofNat count.toNat))
      else point.fields.find? key := by
  rw [distributionPoint, withParts_eq]
  refine (Dictionary.find?_foldl_insert _ fun entry member => ?_).trans ?_
  · obtain ⟨part, -, rfl⟩ := List.mem_map.mp member
    exact Binary64.keyText_ne part.1 noNumber noWord
  · exact (Dictionary.find?_insert _ _ _ _).trans
      (if_congr Iff.rfl rfl (Dictionary.find?_insert _ _ _ _))

/-- The point of a data point of a gauge tells its type. -/
theorem tellsType_gaugePoint
    {placement : Placement}
    {metric : String}
    {number : NumberPoint}
    (converted : gaugePoint placement metric number = .ok point) :
    TellsType point := by
  obtain ⟨value, -, made⟩ := exists_of_bind_eq_ok converted
  cases made
  exact tellsType_gauge rfl ((Dictionary.find?_insert _ _ _ _).trans (if_pos rfl))

/-- The point of a data point of a counter tells its type, also if it is marked. -/
theorem tellsType_counterPoint
    {placement : Placement}
    {metric : String}
    {temporality : Temporality}
    {number : NumberPoint}
    (converted : counterPoint placement metric temporality number = .ok point) :
    TellsType point := by
  obtain ⟨value, -, made⟩ := exists_of_bind_eq_ok converted
  cases made
  cases temporality with
  | cumulative =>
      exact tellsType_counter rfl rfl ((Dictionary.find?_insert _ _ _ _).trans (if_pos rfl))
  | delta =>
      dsimp only
      rw [markDelta_eq]
      refine tellsType_counter rfl ?_ ((find?_counter_insert_start _ number.start _).trans
        ((Dictionary.find?_insert _ _ _ _).trans (if_pos rfl)))
      dsimp only
      split
      · rfl
      · rw [Dictionary.find?_insert, if_neg (by decide)]
        rfl

/-- The point of a data point of a histogram tells its type, whatever its bounds are. -/
theorem tellsType_histogramPoint
    {placement : Placement}
    {metric : String}
    {histogram : HistogramPoint}
    (converted : histogramPoint placement metric histogram = .ok point) :
    TellsType point := by
  obtain ⟨totals, -, made⟩ := exists_of_bind_eq_ok converted
  cases made
  have hinted (bare : Point) (count : UInt64) (sum : Binary64)
      (parts : List (Binary64 × Binary64)) :
      (distributionPoint bare count sum parts).hint = bare.hint := by
    rw [distributionPoint, withParts_eq]
    rfl
  refine tellsType_histogram (hinted _ _ _ _) ?_ ?_
    (show _ = some (.float (.ofNat histogram.count.toNat)) from ?_)
  · rw [find?_distributionPoint_reserved (by decide) (by decide)]
    rfl
  · rw [find?_distributionPoint_reserved (by decide) (by decide)]
    rfl
  · rw [find?_distributionPoint_reserved (by decide) (by decide)]
    rfl

/-- All points of data that show their type tell it. -/
theorem tellsType_of_mem_points
    {placement : Placement}
    {metric : String}
    {data : MetricData}
    {written : List Point}
    (shows : data.showsType .whole = true)
    (converted : points placement metric data = .ok written) :
    ∀ point ∈ written, TellsType point := by
  cases data with
  | gauge numbers => exact forall_mem_of_mapM_eq_ok (fun _ _ => tellsType_gaugePoint) converted
  | sum numbers code monotonic =>
      rw [points, sumPoints] at converted
      split at converted
      · cases converted
      · split at converted
        · exact forall_mem_of_mapM_eq_ok (fun _ _ => tellsType_counterPoint) converted
        · cases converted
  | histogram histograms code =>
      obtain ⟨-, -, converted⟩ := exists_of_bind_eq_ok converted
      exact forall_mem_of_mapM_eq_ok (fun _ _ => tellsType_histogramPoint) converted
  | exponentialHistogram => cases converted
  | summary summaries => cases shows

end Whole

/-! ## Sliced points -/

namespace Sliced

variable {point : Point} {metric : String}

/-- The point without empty keys is read as a slice of a histogram without its hint. -/
structure TellsHistogram (point : Point) : Prop where
  hinted : point.hint = .histogram
  named : ∀ entry ∈ point.fields.entries, entry.1 ≠ ""
  told : typeOf point.unhinted = .histogram

/-- The tag with the bound of a bucket tells the type of a slice. -/
theorem typeOf_unhinted_of_bound
    {bound : String}
    (found : point.tags.find? ReservedName.bucketBound = some bound) :
    typeOf point.unhinted = .histogram := by
  exact (if_neg (not_not_intro rfl)).trans
    (if_pos (.inl (Dictionary.contains_of_find? found)))

/-- A field with the ending of the count tells the type of a slice, whether or not an
attribute has the key of a selecting tag. -/
theorem typeOf_unhinted_of_total
    {value : FieldValue}
    (found : point.fields.find? (metric ++ ReservedName.countEnding) = some value) :
    typeOf point.unhinted = .histogram := by
  have total : point.unhinted.fields.keys.any isTotalField = true := by
    refine List.any_eq_true.mpr ⟨_, Dictionary.mem_keys_of_find? found, ?_⟩
    rw [isTotalField, stem?_append]
    rfl
  rw [typeOf, if_neg (not_not_intro point.hint_unhinted), if_pos total, ite_self]

/-- A slice that tells its type has the same observations without its hint. -/
theorem TellsHistogram.observations_unhinted (tells : TellsHistogram point) (now : UInt64) :
    observations now point.unhinted = observations now point := by
  have typed : typeOf point = .histogram := by
    rw [typeOf_of_hint (by rw [tells.hinted]; decide), tells.hinted]
  by_cases measured : point.measurement = ReservedName.prometheus
  · rw [observations_of_named now measured tells.named,
      observations_of_named now (show point.unhinted.measurement = _ from measured) tells.named,
      observation, observation, tells.told, typed]
    rfl
  · rw [observations, observations, if_pos measured]
    exact if_pos measured

/-- The point with the count and the sum of a histogram tells its type. -/
theorem tellsHistogram_totalPoint
    (hinted : point.hint = .histogram)
    (noFields : point.fields = ∅)
    (metric : String)
    (count : UInt64)
    (sum : Binary64) :
    TellsHistogram (totalPoint point metric count sum) := by
  have made : (totalPoint point metric count sum).fields =
      ((∅ : Fields).insert (metric ++ ReservedName.countEnding)
        (.float (.ofNat count.toNat))).insert
          (metric ++ ReservedName.sumEnding) (.float sum) := by
    rw [<- noFields]
    rfl
  have different :
      metric ++ ReservedName.countEnding ≠ metric ++ ReservedName.sumEnding := by
    intro same
    have stem := stem?_countEnding_sum metric
    rw [<- same, stem?_append] at stem
    cases stem
  have total : (totalPoint point metric count sum).fields.find?
      (metric ++ ReservedName.countEnding) = some (.float (.ofNat count.toNat)) := by
    rw [made, Dictionary.find?_insert, if_neg different, Dictionary.find?_insert, if_pos rfl]
  exact ⟨hinted, named_totalFields made, typeOf_unhinted_of_total total⟩

/-- The point with a bucket of a histogram tells its type. -/
theorem tellsHistogram_bucketPoint
    (hinted : point.hint = .histogram)
    (noFields : point.fields = ∅)
    (metric bound : String)
    (total : UInt64) :
    TellsHistogram (bucketPoint point metric bound total) := by
  refine ⟨hinted, fun entry member => ?_,
    typeOf_unhinted_of_bound (Point.find?_withTag point _ bound)⟩
  change entry ∈ Dictionary.insertEntry _ _ point.fields.entries at member
  rw [noFields] at member
  rw [List.mem_singleton.mp member]
  exact append_ne_empty metric (by decide)

/-- All points of a histogram tell their type. -/
theorem tellsHistogram_of_mem_points
    {placement : Placement}
    {histograms : List HistogramPoint}
    {code : Int}
    {written : List Point}
    (converted : points placement metric (.histogram histograms code) = .ok written) :
    ∀ point ∈ written, TellsHistogram point := by
  obtain ⟨-, -, converted⟩ := exists_of_bind_eq_ok converted
  obtain ⟨blocks, blocksConverted, made⟩ := exists_of_bind_eq_ok converted
  cases made
  intro point member
  obtain ⟨block, inBlocks, inBlock⟩ := List.mem_flatten.mp member
  refine (show ∀ block ∈ blocks, ∀ point ∈ block, TellsHistogram point from
    forall_mem_of_mapM_eq_ok (fun histogram block made => ?_) blocksConverted) block inBlocks
      point inBlock
  obtain ⟨totals, -, made⟩ := exists_of_bind_eq_ok made
  cases made
  refine List.forall_mem_cons.mpr ⟨tellsHistogram_totalPoint rfl rfl _ _ _, ?_⟩
  intro point member
  split at member
  · cases member
  · rcases List.mem_append.mp member with bucket | last
    · obtain ⟨part, -, rfl⟩ := List.mem_map.mp bucket
      exact tellsHistogram_bucketPoint rfl rfl _ _ _
    · rw [List.mem_singleton.mp last]
      exact tellsHistogram_bucketPoint rfl rfl _ _ _

end Sliced

namespace Batch

variable {batch : Batch} {placement : Placement} {metric : Metric} {data : MetricData}
  {written : List Point}

/-- Points with the same observations are answered alike. -/
theorem add_congr
    {now : UInt64}
    {point other : Point}
    (same : observations batch.schema now point = observations batch.schema now other) :
    batch.add now point = batch.add now other := by
  rw [add, add, same]

/-- Whatever a batch holds, it takes each point of a metric that shows its type alike with
and without the hint: it answers the same and is the same batch afterwards. -/
theorem add_unhinted
    (isData : metric.data = some data)
    (shows : data.showsType batch.schema = true)
    (converted : metric.points batch.schema placement = .ok written) :
    ∀ point ∈ written, ∀ now, batch.add now point.unhinted = batch.add now point := by
  intro point member now
  refine add_congr ?_
  rw [Metric.points, isData] at converted
  cases isSchema : batch.schema with
  | whole =>
      rw [isSchema] at shows converted
      exact (Whole.tellsType_of_mem_points shows converted point member).observations_unhinted now
  | sliced =>
      rw [isSchema] at shows converted
      cases data with
      | histogram histograms code =>
          exact (Sliced.tellsHistogram_of_mem_points converted point member).observations_unhinted
            now
      | _ => cases shows

/-- A histogram with an attribute that has the key of a selecting tag is written as three
slices, and a batch that holds a gauge answers each of them alike without its hint: the
total is refused because of the attribute, and the buckets are taken. -/
theorem add_unhinted_selecting_attribute :
    let data : MetricData := .histogram
      [{ attributes := [⟨"le", .text "slow"⟩], time := 5, count := 3, counts := [1, 2],
         bounds := [.zero] }] 2
    let metric : Metric := ⟨"wait", some data⟩
    let gauge : Point :=
      { measurement := "prometheus", fields := .ofList [("load", .int 1)], hint := .gauge }
    let batch := ((empty .sliced).run [⟨7, gauge⟩]).1
    let written := (metric.points batch.schema {}).toOption.getD []
    (data.showsType batch.schema = true ∧ metric.points batch.schema {} = .ok written) ∧
      written.map (fun point => (batch.add 9 point.unhinted).2) =
          [some (.invalidBucketBound "slow"), none, none] ∧
        ∀ point ∈ written, ∀ now, batch.add now point.unhinted = batch.add now point := by
  intro data metric gauge batch written
  have shows : data.showsType batch.schema = true := by decide +kernel
  have converted : metric.points batch.schema {} = .ok written := rfl
  exact ⟨⟨shows, converted⟩, by decide +kernel, add_unhinted rfl shows converted⟩

end Batch
end LineMetrics
