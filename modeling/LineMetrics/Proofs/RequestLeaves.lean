import LineMetrics.Doubles
import LineMetrics.Proofs.JsonLeaves
import LineMetrics.Request.Printer

/-!
# Leaves of requests

The leaves of a request are its binary64 numbers, and otherwise null, truth values, texts
and whole numbers of 64 bits, as long as the attributes are texts and the temporalities
are numbers of 32 bits. The data of a metric are then not nested deeper than six lists and
objects.
-/

namespace LineMetrics

/-- The value of the attribute is a text. -/
def Attribute.IsText (entry : Attribute) : Prop := ∃ text, entry.value = .text text

/-- The attributes of a dictionary of texts are texts. -/
theorem Attribute.isText_ofTags (tags : Dictionary String) :
    ∀ entry ∈ ofTags tags, entry.IsText := by
  rintro entry member
  obtain ⟨tag, -, rfl⟩ := List.mem_map.mp member
  exact ⟨tag.2, rfl⟩

/-- The attributes of the data points are texts, and a temporality is a number of 32
bits. -/
def MetricData.IsPlain : MetricData -> Prop
  | .gauge points => ∀ point ∈ points, ∀ entry ∈ point.attributes, entry.IsText
  | .sum points temporality _ =>
      (∀ point ∈ points, ∀ entry ∈ point.attributes, entry.IsText) ∧
        -0x80000000 ≤ temporality ∧ temporality ≤ 0x7fffffff
  | .histogram points temporality =>
      (∀ point ∈ points, ∀ entry ∈ point.attributes, entry.IsText) ∧
        -0x80000000 ≤ temporality ∧ temporality ≤ 0x7fffffff
  | .exponentialHistogram => True
  | .summary points => ∀ point ∈ points, ∀ entry ∈ point.attributes, entry.IsText

/-- The attributes of a resource are texts, and the data of its metrics are plain. -/
structure ResourceMetrics.IsPlain (metrics : ResourceMetrics) : Prop where
  attributes : ∀ attributes ∈ metrics.resource, ∀ entry ∈ attributes, entry.IsText
  data : ∀ scope ∈ metrics.scopes, ∀ metric ∈ scope.metrics, ∀ data ∈ metric.data, data.IsPlain

/-- A metric stands in the tree with its place. -/
theorem MetricTree.mem_placedMetrics
    {tree : MetricTree}
    {resource : ResourceMetrics}
    {scope : ScopeMetrics}
    {metric : Metric}
    (inTree : resource ∈ tree)
    (inResource : scope ∈ resource.scopes)
    (inScope : metric ∈ scope.metrics) :
    (⟨resource.resource.getD [], scope.scope⟩, metric) ∈ tree.placedMetrics :=
  List.mem_flatMap.mpr ⟨resource, inTree, List.mem_flatMap.mpr
    ⟨scope, inResource, List.mem_map.mpr ⟨metric, inScope, rfl⟩⟩⟩

namespace Request

open Json

/-- Null, truth values, texts and whole numbers of 64 bits have a property. -/
structure HoldsPlainly (holds : Json -> Prop) : Prop where
  null : holds .null
  bool : ∀ value, holds (.bool value)
  text : ∀ value, holds (.string value)
  whole : ∀ value, -0x8000000000000000 ≤ value -> value ≤ 0xffffffffffffffff ->
    holds (.int value)

/-- Every leaf that is written but for its binary64 numbers has a meaning. -/
theorem holdsPlainly_isReadableLeaf : HoldsPlainly IsReadableLeaf :=
  ⟨nofun, fun _ => nofun, fun _ => nofun, fun _ _ _ => nofun⟩

section Leaves

variable {holds : Json -> Prop} (plainly : HoldsPlainly holds)
include plainly

theorem holds_unsigned (value : UInt64) : holds (.int value.toNat) := by
  have below := value.toNat_lt
  exact plainly.whole _ (by omega) (by omega)

theorem leaves_attributesJson
    {attributes : List Attribute}
    (texts : ∀ entry ∈ attributes, entry.IsText) :
    (attributesJson attributes).Leaves holds := by
  refine leavesOfItems_iff.mpr (List.forall_mem_map.mpr fun entry member => ?_)
  obtain ⟨text, isText⟩ := texts entry member
  rw [isText]
  exact ⟨plainly.text _, ⟨plainly.text _, trivial⟩, trivial⟩

theorem leaves_numberPointJson
    {point : NumberPoint}
    (texts : ∀ entry ∈ point.attributes, entry.IsText)
    (doubles : ∀ number ∈ point.doubles, holds (.double number)) :
    (numberPointJson point).Leaves holds := by
  have attributes := leaves_attributesJson plainly texts
  have zero := plainly.whole 0 (by decide) (by decide)
  have value : LeavesOfMembers holds (numberMembers point.value) := by
    cases isValue : point.value with
    | none => trivial
    | some number =>
        cases number with
        | int whole =>
            have least := whole.le_toInt
            have greatest := whole.toInt_lt
            exact ⟨plainly.whole _ (by omega) (by omega), trivial⟩
        | double number =>
            refine ⟨doubles number ?_, trivial⟩
            rw [NumberPoint.doubles, isValue]
            exact List.mem_singleton.mpr rfl
  exact ⟨attributes, plainly.text _, plainly.text _, trivial, zero, value⟩

theorem leaves_histogramPointJson
    {point : HistogramPoint}
    (texts : ∀ entry ∈ point.attributes, entry.IsText)
    (doubles : ∀ number ∈ point.doubles, holds (.double number)) :
    (histogramPointJson point).Leaves holds := by
  have attributes := leaves_attributesJson plainly texts
  have zero := plainly.whole 0 (by decide) (by decide)
  have counts : LeavesOfItems holds (point.counts.map fun count => .int count.toNat) :=
    leavesOfItems_iff.mpr (List.forall_mem_map.mpr fun count _ => holds_unsigned plainly count)
  have bounds : LeavesOfItems holds (point.bounds.map .double) :=
    leavesOfItems_iff.mpr (List.forall_mem_map.mpr fun bound member =>
      doubles bound (List.mem_append_right _ member))
  rw [histogramPointJson]
  refine ⟨attributes, plainly.text _, plainly.text _, holds_unsigned plainly _, ?_, counts, bounds,
    trivial, zero, plainly.null, plainly.null, trivial⟩
  cases isSum : point.sum with
  | none => exact plainly.null
  | some sum =>
      refine doubles sum (List.mem_append_left _ ?_)
      rw [isSum]
      exact List.mem_singleton.mpr rfl

theorem leaves_summaryPointJson
    {point : SummaryPoint}
    (texts : ∀ entry ∈ point.attributes, entry.IsText)
    (doubles : ∀ number ∈ point.doubles, holds (.double number)) :
    (summaryPointJson point).Leaves holds := by
  have attributes := leaves_attributesJson plainly texts
  have zero := plainly.whole 0 (by decide) (by decide)
  have quantiles : LeavesOfItems holds (point.quantiles.map quantileJson) := by
    refine leavesOfItems_iff.mpr (List.forall_mem_map.mpr fun quantile member => ?_)
    have inPoint := fun number inQuantile =>
      doubles number (List.mem_cons_of_mem _ (List.mem_flatMap.mpr ⟨quantile, member, inQuantile⟩))
    exact ⟨inPoint _ List.mem_cons_self, inPoint _ (List.mem_cons_of_mem _ List.mem_cons_self),
      trivial⟩
  exact ⟨attributes, holds_unsigned plainly _, holds_unsigned plainly _, holds_unsigned plainly _,
    doubles point.sum List.mem_cons_self, quantiles, zero, trivial⟩

theorem leaves_dataMember
    {data : MetricData}
    (plain : data.IsPlain)
    (doubles : ∀ number ∈ data.doubles, holds (.double number)) :
    (dataMember data).2.Leaves holds := by
  have temporal {value : Int} (least : -0x80000000 ≤ value) (greatest : value ≤ 0x7fffffff) :
      holds (.int value) := plainly.whole value (by omega) (by omega)
  cases data with
  | gauge points =>
      refine ⟨leavesOfItems_iff.mpr (List.forall_mem_map.mpr fun point member => ?_), trivial⟩
      exact leaves_numberPointJson plainly (plain point member) fun number inPoint =>
        doubles number (List.mem_flatMap.mpr ⟨point, member, inPoint⟩)
  | sum points temporality monotonic =>
      refine ⟨leavesOfItems_iff.mpr (List.forall_mem_map.mpr fun point member => ?_),
        temporal plain.2.1 plain.2.2, plainly.bool monotonic, trivial⟩
      exact leaves_numberPointJson plainly (plain.1 point member) fun number inPoint =>
        doubles number (List.mem_flatMap.mpr ⟨point, member, inPoint⟩)
  | histogram points temporality =>
      refine ⟨leavesOfItems_iff.mpr (List.forall_mem_map.mpr fun point member => ?_),
        temporal plain.2.1 plain.2.2, trivial⟩
      exact leaves_histogramPointJson plainly (plain.1 point member) fun number inPoint =>
        doubles number (List.mem_flatMap.mpr ⟨point, member, inPoint⟩)
  | exponentialHistogram => exact ⟨trivial, plainly.whole 0 (by decide) (by decide), trivial⟩
  | summary points =>
      refine ⟨leavesOfItems_iff.mpr (List.forall_mem_map.mpr fun point member => ?_), trivial⟩
      exact leaves_summaryPointJson plainly (plain point member) fun number inPoint =>
        doubles number (List.mem_flatMap.mpr ⟨point, member, inPoint⟩)

theorem leaves_metricJson
    {metric : Metric}
    (plain : ∀ data ∈ metric.data, data.IsPlain)
    (doubles : ∀ number ∈ metric.data.toList.flatMap MetricData.doubles, holds (.double number)) :
    (metricJson metric).Leaves holds := by
  have named := plainly.text metric.name
  have empty := plainly.text ""
  cases isData : metric.data with
  | none =>
      rw [metricJson, isData]
      exact ⟨named, empty, empty, trivial, trivial⟩
  | some data =>
      rw [metricJson, isData]
      refine ⟨named, empty, empty, trivial, ?_, trivial⟩
      refine leaves_dataMember plainly (plain data isData) fun number inData => doubles number ?_
      rw [isData]
      exact List.mem_flatMap.mpr ⟨data, List.mem_singleton.mpr rfl, inData⟩

/-- All leaves of a request have a property that its binary64 numbers have. -/
theorem leaves_ofTree
    {tree : MetricTree}
    (plain : ∀ resource ∈ tree, resource.IsPlain)
    (doubles : ∀ number ∈ tree.doubles, holds (.double number)) :
    (ofTree tree).Leaves holds := by
  have zero := plainly.whole 0 (by decide) (by decide)
  refine ⟨leavesOfItems_iff.mpr (List.forall_mem_map.mpr fun resource inTree => ?_), trivial⟩
  have isPlain := plain resource inTree
  refine ⟨?_, leavesOfItems_iff.mpr (List.forall_mem_map.mpr fun scope inResource => ?_),
    plainly.text _, trivial⟩
  · cases isResource : resource.resource with
    | none => exact plainly.null
    | some attributes =>
        exact ⟨leaves_attributesJson plainly (isPlain.attributes attributes isResource), zero,
          trivial, trivial⟩
  · refine ⟨?_, leavesOfItems_iff.mpr (List.forall_mem_map.mpr fun metric inScope => ?_),
      plainly.text _, trivial⟩
    · cases scope.scope with
      | none => exact plainly.null
      | some scope => exact ⟨plainly.text _, plainly.text _, trivial, zero, trivial⟩
    · refine leaves_metricJson plainly (isPlain.data scope inResource metric inScope)
        fun number inMetric => doubles number ?_
      exact List.mem_flatMap.mpr ⟨(⟨resource.resource.getD [], scope.scope⟩, metric),
        MetricTree.mem_placedMetrics inTree inResource inScope, inMetric⟩

end Leaves

/-! ## Depth -/

theorem depth_attributesJson
    {attributes : List Attribute}
    (texts : ∀ entry ∈ attributes, entry.IsText) :
    (attributesJson attributes).depth ≤ 3 := by
  refine depth_list_le.mpr (List.forall_mem_map.mpr fun entry member => ?_)
  obtain ⟨text, isText⟩ := texts entry member
  rw [isText]
  exact Nat.le_refl 2

theorem depth_numberPointJson
    {point : NumberPoint}
    (texts : ∀ entry ∈ point.attributes, entry.IsText) :
    (numberPointJson point).depth ≤ 4 := by
  have attributes := depth_attributesJson texts
  have value : depthOfMembers (numberMembers point.value) = 0 := by
    rcases point.value with _ | (whole | number) <;> rfl
  rw [numberPointJson]
  simp only [wholeText, depth, depthOfMembers, depthOfItems, List.cons_append, List.nil_append,
    value]
  omega

theorem depth_histogramPointJson
    {point : HistogramPoint}
    (texts : ∀ entry ∈ point.attributes, entry.IsText) :
    (histogramPointJson point).depth ≤ 4 := by
  have attributes := depth_attributesJson texts
  have counts : depthOfItems (point.counts.map fun count => .int count.toNat) ≤ 0 :=
    depthOfItems_le_iff.mpr (List.forall_mem_map.mpr fun count _ => Nat.le_refl 0)
  have bounds : depthOfItems (point.bounds.map .double) ≤ 0 :=
    depthOfItems_le_iff.mpr (List.forall_mem_map.mpr fun bound _ => Nat.le_refl 0)
  rw [histogramPointJson]
  cases point.sum with
  | none =>
      simp only [wholeText, depth, depthOfMembers, depthOfItems]
      omega
  | some sum =>
      simp only [wholeText, depth, depthOfMembers, depthOfItems]
      omega

theorem depth_summaryPointJson
    {point : SummaryPoint}
    (texts : ∀ entry ∈ point.attributes, entry.IsText) :
    (summaryPointJson point).depth ≤ 4 := by
  have attributes := depth_attributesJson texts
  have quantiles : depthOfItems (point.quantiles.map quantileJson) ≤ 1 :=
    depthOfItems_le_iff.mpr (List.forall_mem_map.mpr fun quantile _ => Nat.le_refl 1)
  rw [summaryPointJson]
  simp only [depth, depthOfMembers]
  omega

/-- Plain data are nested no deeper than six lists and objects. -/
theorem depth_dataMember {data : MetricData} (plain : data.IsPlain) :
    (dataMember data).2.depth ≤ 6 := by
  cases data with
  | gauge points =>
      have numbers : depthOfItems (points.map numberPointJson) ≤ 4 :=
        depthOfItems_le_iff.mpr (List.forall_mem_map.mpr fun point member =>
          depth_numberPointJson (plain point member))
      simp only [dataMember, depth, depthOfMembers]
      omega
  | sum points temporality monotonic =>
      have numbers : depthOfItems (points.map numberPointJson) ≤ 4 :=
        depthOfItems_le_iff.mpr (List.forall_mem_map.mpr fun point member =>
          depth_numberPointJson (plain.1 point member))
      simp only [dataMember, depth, depthOfMembers]
      omega
  | histogram points temporality =>
      have histograms : depthOfItems (points.map histogramPointJson) ≤ 4 :=
        depthOfItems_le_iff.mpr (List.forall_mem_map.mpr fun point member =>
          depth_histogramPointJson (plain.1 point member))
      simp only [dataMember, depth, depthOfMembers]
      omega
  | exponentialHistogram => decide
  | summary points =>
      have summaries : depthOfItems (points.map summaryPointJson) ≤ 4 :=
        depthOfItems_le_iff.mpr (List.forall_mem_map.mpr fun point member =>
          depth_summaryPointJson (plain point member))
      simp only [dataMember, depth, depthOfMembers]
      omega

end Request
end LineMetrics
