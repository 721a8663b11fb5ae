import LineMetrics.Proofs.RequestLeaves
import LineMetrics.Proofs.WrittenNumbers
import LineMetrics.Request.Reader

/-!
# The form of requests

The JSON form of a metric tree is read as that tree, as long as its attributes are texts
and its temporalities are numbers of 32 bits. Each part of a request is read where it was
written; what is read as a whole before its form is looked at, the data of a metric, is
never nested deeper than six lists and objects.
-/

namespace LineMetrics

namespace Json

variable {α : Type}

/-- A record that is given by an object with just its members. -/
theorem record?_object
    {members : List (String × Json)}
    (names : List String)
    (named : members.map Prod.fst = names)
    (distinct : names.Nodup) :
    (Json.object members).record? names = some members := by
  have all : (members.filter fun member => member.1 ∈ names) = members :=
    List.filter_eq_self.mpr fun member isMember =>
      decide_eq_true (named ▸ List.mem_map_of_mem isMember)
  rw [record?, all, if_pos (named ▸ distinct)]

/-- A record that is given by an object with other members behind its own. -/
theorem record?_object_append
    {members others : List (String × Json)}
    (names : List String)
    (named : members.map Prod.fst = names)
    (distinct : names.Nodup)
    (apart : ∀ member ∈ others, member.1 ∉ names) :
    (Json.object (members ++ others)).record? names = some members := by
  have none : (others.filter fun member => member.1 ∈ names) = [] :=
    List.filter_eq_nil_iff.mpr fun member isMember =>
      fun isNamed => apart member isMember (of_decide_eq_true isNamed)
  rw [<- record?_object names named distinct, record?, record?, List.filter_append, none,
    List.append_nil]

theorem asUInt64?_toNat (value : UInt64) : (Json.int value.toNat).asUInt64? = some value := by
  have below := value.toNat_lt
  rw [asUInt64?, asIntWithin?, if_pos ⟨by omega, by omega⟩, Option.map_some, Int.toNat_natCast,
    UInt64.ofNat_toNat]

theorem asInt64?_toInt (value : Int64) : (Json.int value.toInt).asInt64? = some value := by
  have least := value.le_toInt
  have greatest := value.toInt_lt
  rw [asInt64?, asIntWithin?, if_pos ⟨by omega, by omega⟩, Option.map_some, Int64.ofInt_toInt]

/-- A list is read from the forms of its items if each of them is. -/
theorem asListOf?_map
    {read : Json -> Option α}
    {write : α -> Json}
    {values : List α}
    (restores : ∀ value ∈ values, read (write value) = some value) :
    (Json.list (values.map write)).asListOf? read = some values := by
  rw [asListOf?]
  induction values with
  | nil => rfl
  | cons value values inductionHypothesis =>
      obtain ⟨here, behind⟩ := List.forall_mem_cons.mp restores
      rw [List.map_cons, List.mapM_cons, here, inductionHypothesis behind]
      rfl

end Json

namespace Request

open Json

/-! ## Data points -/

/-- Texts among the attributes are read back, given room for an attribute and its value. -/
theorem attributes?_attributesJson
    {attributes : List Attribute}
    (room : Nat)
    (texts : ∀ entry ∈ attributes, entry.IsText) :
    attributes? (room + 3) (attributesJson attributes) = some attributes := by
  rw [attributes?, attributesJson]
  refine asListOf?_map fun entry member => ?_
  obtain ⟨key, value⟩ := entry
  obtain ⟨text, isText⟩ := texts _ member
  cases isText
  have isValue : value? (room + 1) (valueJson (.text text)) = some (.text text) := by
    rw [valueJson, value?, if_pos ⟨rfl, Nat.zero_le _⟩]
    rfl
  rw [attribute?]
  change ((asNullable? (fun json => value? (room + 1) json) (valueJson (.text text))).bind
    fun value => some (Attribute.mk key (value.getD .absent))) = _
  change (((value? (room + 1) (valueJson (.text text))).map some).bind _) = _
  rw [isValue]
  rfl

/-- A time is read from its text. -/
theorem asTimeText?_wholeText (time : UInt64) :
    asTimeText? (wholeText time.toNat) = some time := by
  have unsigned : (integerText (time.toNat : Int)).head? ≠ some '-' := by
    rw [integerText, if_neg (by omega), List.nil_append]
    exact head?_toDigits_ne_minus _
  change (if (String.ofList (integerText _)).toList.head? = some '-' then none
    else (readInteger? (String.ofList (integerText _)).toList).bind fun value =>
      (Json.int value).asUInt64?) = _
  rw [String.toList_ofList, if_neg unsigned, readInteger?_integerText, Option.bind_some,
    asUInt64?_toNat]

/-- No exemplars are read as such. -/
@[simp] theorem exemplars?_list_nil : exemplars? (.list []) = some () := rfl

/-- The flags that are written are read as numbers. -/
@[simp] theorem asUInt32?_zero : (Json.int 0).asUInt32? = some 0 := rfl

/-- The names of the members that state a number. -/
theorem mem_names_of_mem_numberMembers {value : Option Number} :
    ∀ member ∈ numberMembers value, member.1 ∈ ["asDouble", "asInt"] := by
  cases value with
  | none => exact fun member isMember => absurd isMember List.not_mem_nil
  | some number =>
      cases number with
      | int whole =>
          exact List.forall_mem_singleton.mpr (show "asInt" ∈ ["asDouble", "asInt"] by decide)
      | double number =>
          exact List.forall_mem_singleton.mpr (show "asDouble" ∈ ["asDouble", "asInt"] by decide)

/-- The number that stands behind the other parts of a data point is the one it states. -/
theorem stated_numberMembers
    {members : List (String × Json)}
    (named : members.map Prod.fst = numberPointNames)
    (value : Option Number) :
    ((members ++ numberMembers value).find? fun member =>
      member.1 ∈ ["asDouble", "asInt"]).bind number? = value := by
  have otherNames : ∀ name ∈ numberPointNames, name ∉ ["asDouble", "asInt"] := by decide
  have none : (members.find? fun member => member.1 ∈ ["asDouble", "asInt"]) = none :=
    List.find?_eq_none.mpr fun member isMember stating =>
      otherNames member.1 (named ▸ List.mem_map_of_mem isMember) (of_decide_eq_true stating)
  rw [List.find?_append, none, Option.none_or]
  cases value with
  | none => rfl
  | some number =>
      cases number with
      | int whole => exact congrArg (Option.map _) (asInt64?_toInt whole)
      | double number => rfl

/-- A data point is read back with its number. -/
theorem numberPoint?_numberPointJson
    {point : NumberPoint}
    (texts : ∀ entry ∈ point.attributes, entry.IsText) :
    numberPoint? (numberPointJson point) = some point := by
  have attributes : pointAttributes? (attributesJson point.attributes) = some point.attributes :=
    attributes?_attributesJson 124 texts
  have otherNames : ∀ name ∈ ["asDouble", "asInt"], name ∉ numberPointNames := by decide
  rw [numberPointJson, numberPoint?, record?_object_append numberPointNames rfl (by decide)
    fun member isMember => otherNames _ (mem_names_of_mem_numberMembers member isMember)]
  have stated := stated_numberMembers (show [("attributes", attributesJson point.attributes),
      ("startTimeUnixNano", wholeText point.start.toNat),
      ("timeUnixNano", wholeText point.time.toNat), ("exemplars", .list []),
      ("flags", .int 0)].map Prod.fst = numberPointNames from rfl) point.value
  simp only [stated, optional?, Option.bind_eq_bind, Option.bind_some,
    List.lookup_cons, attributes, String.reduceBEq, asTimeText?_wholeText,
    exemplars?_list_nil, asUInt32?_zero]

/-- A data point of a histogram is read back. -/
theorem histogramPoint?_histogramPointJson
    {point : HistogramPoint}
    (texts : ∀ entry ∈ point.attributes, entry.IsText) :
    histogramPoint? (histogramPointJson point) = some point := by
  have attributes : pointAttributes? (attributesJson point.attributes) = some point.attributes :=
    attributes?_attributesJson 124 texts
  have counts := asListOf?_map fun count (_ : count ∈ point.counts) => asUInt64?_toNat count
  have bounds : asListOf? asDouble? (.list (point.bounds.map .double)) = some point.bounds :=
    asListOf?_map fun bound _ => rfl
  obtain ⟨_, start, time, count, sum, _, _⟩ := point
  rw [histogramPoint?, histogramPointJson, record?_object histogramPointNames rfl (by decide)]
  cases sum with
  | none =>
      simp only [optional?, asNullable?, Option.bind_eq_bind, Option.bind_some, List.lookup_cons,
        attributes, String.reduceBEq, asTimeText?_wholeText, asUInt64?_toNat, counts,
        bounds, exemplars?_list_nil, asUInt32?_zero]
  | some sum =>
      simp only [optional?, asNullable?, asDouble?, Option.bind_eq_bind, Option.bind_some,
        List.lookup_cons, attributes, String.reduceBEq, asTimeText?_wholeText, asUInt64?_toNat,
        Option.map_some, counts, bounds, exemplars?_list_nil, asUInt32?_zero]

theorem quantile?_quantileJson (quantile : Quantile) :
    quantile? (quantileJson quantile) = some quantile := rfl

/-- A data point of a summary is read back. -/
theorem summaryPoint?_summaryPointJson
    {point : SummaryPoint}
    (texts : ∀ entry ∈ point.attributes, entry.IsText) :
    summaryPoint? (summaryPointJson point) = some point := by
  have attributes : pointAttributes? (attributesJson point.attributes) = some point.attributes :=
    attributes?_attributesJson 124 texts
  have quantiles := asListOf?_map fun quantile (_ : quantile ∈ point.quantiles) =>
    quantile?_quantileJson quantile
  rw [summaryPoint?, summaryPointJson, record?_object summaryPointNames rfl (by decide)]
  simp only [required?, Option.bind_eq_bind, Option.bind_some, List.lookup_cons, attributes,
    String.reduceBEq, asUInt64?_toNat, asDouble?, quantiles, asUInt32?_zero]

/-! ## Metrics -/

theorem asInt32?_int
    {value : Int}
    (least : -0x80000000 ≤ value)
    (greatest : value ≤ 0x7fffffff) :
    (Json.int value).asInt32? = some value := by
  rw [asInt32?, asIntWithin?, if_pos ⟨least, greatest⟩]

/-- Plain data are read back from the member that states them. -/
theorem data?_dataMember {data : MetricData} (plain : data.IsPlain) :
    data? (dataMember data) = some data := by
  cases data with
  | gauge points =>
      have read := asListOf?_map fun point member =>
        numberPoint?_numberPointJson (plain point member)
      rw [dataMember]
      change gauge? _ = _
      rw [gauge?, record?_object ["dataPoints"] rfl (by decide)]
      simp only [optional?, Option.bind_eq_bind, Option.bind_some, List.lookup_cons, String.reduceBEq,
        read]
  | sum points temporality monotonic =>
      have read := asListOf?_map fun point member =>
        numberPoint?_numberPointJson (plain.1 point member)
      rw [dataMember]
      change sum? _ = _
      rw [sum?, record?_object ["dataPoints", "aggregationTemporality", "isMonotonic"] rfl
        (by decide)]
      simp only [optional?, asBool?, Option.bind_eq_bind, Option.bind_some, List.lookup_cons,
        read, String.reduceBEq, asInt32?_int plain.2.1 plain.2.2]
  | histogram points temporality =>
      have read := asListOf?_map fun point member =>
        histogramPoint?_histogramPointJson (plain.1 point member)
      rw [dataMember]
      change histogram? _ = _
      rw [histogram?, record?_object ["dataPoints", "aggregationTemporality"] rfl (by decide)]
      simp only [optional?, Option.bind_eq_bind, Option.bind_some, List.lookup_cons, read,
        String.reduceBEq, asInt32?_int plain.2.1 plain.2.2]
  | exponentialHistogram => rfl
  | summary points =>
      have read := asListOf?_map fun point member =>
        summaryPoint?_summaryPointJson (plain point member)
      rw [dataMember]
      change summary? _ = _
      rw [summary?, onlyMember?, record?_object ["dataPoints"] rfl (by decide)]
      simp only [required?, Option.bind_eq_bind, Option.bind_some, List.lookup_cons, String.reduceBEq,
        read, Option.map_some]

/-- The member that states the data of a metric is named for that. -/
theorem dataMember_mem_dataNames (data : MetricData) : (dataMember data).1 ∈ dataNames := by
  cases data with
  | gauge points => exact show "gauge" ∈ dataNames by decide
  | sum points temporality monotonic => exact show "sum" ∈ dataNames by decide
  | histogram points temporality => exact show "histogram" ∈ dataNames by decide
  | exponentialHistogram => exact show "exponentialHistogram" ∈ dataNames by decide
  | summary points => exact show "summary" ∈ dataNames by decide

/-- A metric is read back with its data. -/
theorem metric?_metricJson
    {metric : Metric}
    (room : Nat)
    (plain : ∀ data ∈ metric.data, data.IsPlain) :
    metric? (room + 6) (metricJson metric) = some metric := by
  obtain ⟨name, data⟩ := metric
  have otherNames : ∀ name ∈ dataNames, name ∉ metricNames := by decide
  have apart : ∀ member ∈ (data.map dataMember).toList, member.1 ∉ metricNames := by
    cases data with
    | none => exact fun member isMember => absurd isMember List.not_mem_nil
    | some data =>
        exact List.forall_mem_singleton.mpr (otherNames _ (dataMember_mem_dataNames data))
  have others :
      (List.filter (fun member => member.1 ∉ metricNames)
        ([("name", Json.string name), ("description", .string ""), ("unit", .string ""),
          ("metadata", .list [])] ++ (data.map dataMember).toList)) =
        (data.map dataMember).toList := by
    rw [List.filter_append, List.filter_eq_self.mpr fun member isMember =>
      decide_eq_true (apart member isMember)]
    rfl
  have metadata : attributes? (room + 6) (.list []) = some [] := rfl
  rw [metricJson, metric?, record?_object_append metricNames rfl (by decide) apart, others]
  cases data with
  | none =>
      simp only [optional?, asText?, Option.map_none, Option.toList_none, areMembersReadable,
        depthOfMembers, Nat.le_add_left, and_self, ↓reduceIte, List.find?_nil, Option.bind_none,
        Option.bind_eq_bind, Option.bind_some, List.lookup_cons, String.reduceBEq, metadata]
  | some data =>
      have isPlain := plain data rfl
      have readable := areMembersReadable_of_leaves [dataMember data]
        (leavesOfMembers_iff.mpr (List.forall_mem_singleton.mpr
          (leaves_dataMember holdsPlainly_isReadableLeaf isPlain fun number _ same => by
            cases same)))
      have depth : depthOfMembers [dataMember data] ≤ room + 6 :=
        depthOfMembers_le_iff.mpr (List.forall_mem_singleton.mpr
          (Nat.le_trans (depth_dataMember isPlain) (Nat.le_add_left _ _)))
      simp only [optional?, asText?, Option.map_some, Option.toList_some, readable, depth,
        and_self, ↓reduceIte, dataMember_mem_dataNames, decide_true, List.find?_cons_of_pos,
        Option.bind_some, data?_dataMember isPlain, Option.bind_eq_bind, List.lookup_cons,
        String.reduceBEq, metadata]

/-! ## Places -/

theorem scopeMetrics?_scopeMetricsJson
    {metrics : ScopeMetrics}
    (room : Nat)
    (plain : ∀ metric ∈ metrics.metrics, ∀ data ∈ metric.data, data.IsPlain) :
    scopeMetrics? (room + 8) (scopeMetricsJson metrics) = some metrics := by
  have read := asListOf?_map fun metric member =>
    metric?_metricJson room (plain metric member)
  obtain ⟨scope, _⟩ := metrics
  rw [scopeMetricsJson, scopeMetrics?, record?_object ["scope", "metrics", "schemaUrl"] rfl
    (by decide)]
  have isScope : asNullable? (scope? (room + 7)) (scopeJson scope) = some scope := by
    cases scope with
    | none => rfl
    | some scope => rfl
  simp only [optional?, Nat.add_one_sub_one, Nat.reduceSubDiff, asText?, Option.bind_eq_bind,
    Option.bind_some, List.lookup_cons, isScope, String.reduceBEq, read]

theorem resourceMetrics?_resourceMetricsJson
    {metrics : ResourceMetrics}
    (room : Nat)
    (plain : metrics.IsPlain) :
    resourceMetrics? (room + 10) (resourceMetricsJson metrics) = some metrics := by
  have read := asListOf?_map fun scope member =>
    scopeMetrics?_scopeMetricsJson room (plain.data scope member)
  have isResource : asNullable? (resource? (room + 9)) (resourceJson metrics.resource) =
      some metrics.resource := by
    cases isSome : metrics.resource with
    | none => rfl
    | some attributes =>
        have attributesRead := attributes?_attributesJson (room + 6)
          (plain.attributes attributes isSome)
        change ((resource? (room + 9) _).map some) = _
        rw [resourceJson, resource?, record?_object ["attributes", "droppedAttributesCount", "entityRefs"] rfl
          (by decide)]
        simp only [optional?, asListOf?, Option.bind_eq_bind, Option.bind_some, List.lookup_cons,
          attributesRead, String.reduceBEq, asUInt32?_zero, List.mapM_nil, Option.pure_def,
          Option.bind_fun_some, Option.map_some]
  rw [resourceMetricsJson, resourceMetrics?,
    record?_object ["resource", "scopeMetrics", "schemaUrl"] rfl (by decide)]
  simp only [optional?, Nat.add_one_sub_one, Nat.reduceSubDiff, asText?, Option.bind_eq_bind,
    Option.bind_some, List.lookup_cons, isResource, String.reduceBEq, read]

/-- A plain metric tree is read back from its request. -/
theorem tree?_ofTree {tree : MetricTree} (plain : ∀ resource ∈ tree, resource.IsPlain) :
    tree? (ofTree tree) = some tree := by
  have read := asListOf?_map fun resource member =>
    resourceMetrics?_resourceMetricsJson 114 (plain resource member)
  rw [ofTree, tree?, onlyMember?, record?_object ["resourceMetrics"] rfl (by decide)]
  simpa only [required?, nestingLimit, Nat.reduceSub, Option.bind_eq_bind, Option.bind_some,
    List.lookup_cons, String.reduceBEq, Nat.reduceAdd] using read

end Request
end LineMetrics
