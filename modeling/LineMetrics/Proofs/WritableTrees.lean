import LineMetrics.Proofs.ArrivalOrder
import LineMetrics.Proofs.FiniteNumbers
import LineMetrics.Proofs.RequestLeaves
import LineMetrics.Proofs.WholeReadings

/-!
# Trees that can be written

The tree that is gathered from points with finite numbers holds finite numbers and texts
as attributes only. A reading has this property if its point has finite numbers, each slice
that is added to an assembly keeps it, and so the data of a metric have it. Of the bounds
of buckets, only the finite ones become part of a data point.
-/

namespace LineMetrics

/-! ## Properties -/

/-- The attributes are texts, and the number is finite. -/
structure NumberPoint.IsWritable (point : NumberPoint) : Prop where
  texts : ∀ entry ∈ point.attributes, entry.IsText
  finite : ∀ number ∈ point.doubles, number.isFinite = true

/-- The attributes are texts, and the numbers are finite. -/
structure HistogramPoint.IsWritable (point : HistogramPoint) : Prop where
  texts : ∀ entry ∈ point.attributes, entry.IsText
  finite : ∀ number ∈ point.doubles, number.isFinite = true

/-- The attributes are texts, and the numbers are finite. -/
structure SummaryPoint.IsWritable (point : SummaryPoint) : Prop where
  texts : ∀ entry ∈ point.attributes, entry.IsText
  finite : ∀ number ∈ point.doubles, number.isFinite = true

/-- The data are plain, and their numbers are finite. -/
structure MetricData.IsWritable (data : MetricData) : Prop where
  plain : data.IsPlain
  finite : ∀ number ∈ data.doubles, number.isFinite = true

/-- The attributes of a resource are texts, and the data of its metrics can be written. -/
structure ResourceMetrics.IsWritable (metrics : ResourceMetrics) : Prop where
  attributes : ∀ attributes ∈ metrics.resource, ∀ entry ∈ attributes, entry.IsText
  data : ∀ scope ∈ metrics.scopes, ∀ metric ∈ scope.metrics, ∀ data ∈ metric.data,
    data.IsWritable

/-- The numbers of the slice are finite, but for the bound of a bucket. -/
def Slice.IsWritable : Slice -> Prop
  | .bucket _ _ => True
  | .quantile place value => place.isFinite = true ∧ value.isFinite = true
  | .total _ sum => sum.isFinite = true

/-- What the reading says can be written. -/
def Reading.IsWritable : Reading -> Prop
  | .gauge point => point.IsWritable
  | .sum _ point => point.IsWritable
  | .histogram point => point.IsWritable
  | .summary point => point.IsWritable
  | .slice _ _ part => part.IsWritable

/-! ## Data -/

namespace MetricData

theorem isWritable_gauge
    {points : List NumberPoint}
    (writable : ∀ point ∈ points, point.IsWritable) :
    (MetricData.gauge points).IsWritable where
  plain point member := (writable point member).texts
  finite number member := by
    obtain ⟨point, inPoints, inPoint⟩ := List.mem_flatMap.mp member
    exact (writable point inPoints).finite number inPoint

theorem isWritable_sum
    {points : List NumberPoint}
    (temporality : Temporality)
    (monotonic : Bool)
    (writable : ∀ point ∈ points, point.IsWritable) :
    (MetricData.sum points temporality.code monotonic).IsWritable where
  plain := ⟨fun point member => (writable point member).texts, by cases temporality <;> decide⟩
  finite number member := by
    obtain ⟨point, inPoints, inPoint⟩ := List.mem_flatMap.mp member
    exact (writable point inPoints).finite number inPoint

theorem isWritable_histogram
    {points : List HistogramPoint}
    (temporality : Temporality)
    (writable : ∀ point ∈ points, point.IsWritable) :
    (MetricData.histogram points temporality.code).IsWritable where
  plain := ⟨fun point member => (writable point member).texts, by cases temporality <;> decide⟩
  finite number member := by
    obtain ⟨point, inPoints, inPoint⟩ := List.mem_flatMap.mp member
    exact (writable point inPoints).finite number inPoint

theorem isWritable_summary
    {points : List SummaryPoint}
    (writable : ∀ point ∈ points, point.IsWritable) :
    (MetricData.summary points).IsWritable where
  plain point member := (writable point member).texts
  finite number member := by
    obtain ⟨point, inPoints, inPoint⟩ := List.mem_flatMap.mp member
    exact (writable point inPoints).finite number inPoint

end MetricData

namespace Assembly

/-- The sum, the quantiles and their values are finite. -/
structure IsWritable (assembly : Assembly) : Prop where
  sum : ∀ sum ∈ assembly.sum, sum.isFinite = true
  quantiles : ∀ entry ∈ assembly.quantiles,
    entry.1.isFinite = true ∧ entry.2.isFinite = true

variable {assembly : Assembly}

/-- What is set at a place stands under that place or one that is numerically equal. -/
theorem kept_or_set_of_mem_setAt
    {place : Binary64}
    {value : α}
    {entries : List (Binary64 × α)} :
    ∀ entry ∈ setAt place value entries,
      entry ∈ entries ∨
        entry.2 = value ∧ (entry.1 = place ∨ entry.1 ∈ entries.map Prod.fst) := by
  induction entries with
  | nil => exact List.forall_mem_singleton.mpr (.inr ⟨rfl, .inl rfl⟩)
  | cons first entries inductionHypothesis =>
      rw [setAt]
      split
      · refine List.forall_mem_cons.mpr ⟨.inr ⟨rfl, .inr List.mem_cons_self⟩, ?_⟩
        exact fun entry member => .inl (List.mem_cons_of_mem _ member)
      · refine List.forall_mem_cons.mpr ⟨.inl List.mem_cons_self, fun entry member => ?_⟩
        rcases inductionHypothesis entry member with earlier | ⟨same, new | earlier⟩
        · exact .inl (List.mem_cons_of_mem _ earlier)
        · exact .inr ⟨same, .inl new⟩
        · exact .inr ⟨same, .inr (List.mem_cons_of_mem _ earlier)⟩

/-- An assembly can still be written when a slice is added that can be. -/
theorem IsWritable.add
    {slice : Slice}
    (writable : assembly.IsWritable)
    (isWritable : slice.IsWritable) :
    (assembly.add slice).IsWritable := by
  cases slice with
  | bucket bound count => exact ⟨writable.sum, writable.quantiles⟩
  | total count sum =>
      refine ⟨fun other same => ?_, writable.quantiles⟩
      cases same
      exact isWritable
  | quantile quantile value =>
      refine ⟨writable.sum, fun entry member => ?_⟩
      rcases kept_or_set_of_mem_setAt entry member with earlier | ⟨same, new | earlier⟩
      · exact writable.quantiles entry earlier
      · rw [same, new]
        exact isWritable
      · obtain ⟨other, inAssembly, samePlace⟩ := List.mem_map.mp earlier
        rw [same, <- samePlace]
        exact ⟨(writable.quantiles other inAssembly).1, isWritable.2⟩

theorem IsWritable.toHistogramPoint (writable : assembly.IsWritable) (series : Series) :
    (assembly.toHistogramPoint series).IsWritable where
  texts := Attribute.isText_ofTags series.attributes
  finite number member := by
    rcases List.mem_append.mp member with isSum | isBound
    · exact writable.sum number (Option.mem_toList.mp isSum)
    · obtain ⟨bucket, inBuckets, rfl⟩ := List.mem_map.mp isBound
      exact (List.mem_filter.mp inBuckets).2

theorem IsWritable.toSummaryPoint (writable : assembly.IsWritable) (series : Series) :
    (assembly.toSummaryPoint series).IsWritable where
  texts := Attribute.isText_ofTags series.attributes
  finite number member := by
    rcases List.mem_cons.mp member with rfl | inQuantiles
    · change (assembly.sum.getD .zero).isFinite = true
      cases isSum : assembly.sum with
      | none => decide
      | some sum => exact writable.sum sum isSum
    · obtain ⟨quantile, inPoint, isNumber⟩ := List.mem_flatMap.mp inQuantiles
      obtain ⟨entry, inOrder, rfl⟩ := List.mem_map.mp inPoint
      have finite := writable.quantiles entry
        ((inOrder_perm assembly.quantiles).mem_iff.mp inOrder)
      rcases List.mem_cons.mp isNumber with rfl | isValue
      · exact finite.1
      · rw [List.mem_singleton.mp isValue]
        exact finite.2

end Assembly

namespace Grouping

/-- The assembly of slices that can be written can be written. -/
theorem isWritable_assemble
    {parts : List SeriesSlice}
    (writable : ∀ part ∈ parts, part.slice.IsWritable) :
    (assemble parts).IsWritable := by
  induction parts using List.reverseRecOn with
  | nil => exact ⟨nofun, fun entry member => nomatch member⟩
  | append_singleton parts part inductionHypothesis =>
      obtain ⟨before, here⟩ := List.forall_mem_append.mp writable
      rw [assemble_append_singleton]
      exact (inductionHypothesis before).add (here part (List.mem_singleton.mpr rfl))

/-- The data of readings that can be written can be written. -/
theorem isWritable_dataOf
    {readings : List Reading}
    (kind : MetricKind)
    (writable : ∀ reading ∈ readings, reading.IsWritable) :
    (dataOf kind readings).IsWritable := by
  have numbers : ∀ point ∈ readings.filterMap Reading.number?, point.IsWritable := by
    intro point member
    obtain ⟨reading, inReadings, found⟩ := List.mem_filterMap.mp member
    have isWritable := writable reading inReadings
    cases reading <;> cases found <;> exact isWritable
  have series : ∀ group ∈ groups SeriesSlice.series (readings.filterMap Reading.slice?),
      (assemble group.2).IsWritable := by
    refine fun group inGroups => isWritable_assemble fun part member => ?_
    obtain ⟨reading, inReadings, found⟩ :=
      List.mem_filterMap.mp (of_mem_of_mem_groups inGroups member).1
    rw [Reading.eq_toReading_of_slice? found] at inReadings
    exact writable _ inReadings
  cases kind with
  | gauge => exact MetricData.isWritable_gauge numbers
  | sum temporality => exact MetricData.isWritable_sum temporality true numbers
  | whole distribution =>
      cases distribution with
      | histogram =>
          refine MetricData.isWritable_histogram .cumulative fun point member => ?_
          obtain ⟨reading, inReadings, found⟩ := List.mem_filterMap.mp member
          have isWritable := writable reading inReadings
          cases reading <;> cases found
          exact isWritable
      | summary =>
          refine MetricData.isWritable_summary fun point member => ?_
          obtain ⟨reading, inReadings, found⟩ := List.mem_filterMap.mp member
          have isWritable := writable reading inReadings
          cases reading <;> cases found
          exact isWritable
  | assembled =>
      change (assembledData _).IsWritable
      rw [assembledData]
      split
      · exact MetricData.isWritable_summary (List.forall_mem_map.mpr fun group member =>
          (series group member).toSummaryPoint group.1)
      · exact MetricData.isWritable_histogram .cumulative (List.forall_mem_map.mpr
          fun group member => (series group member).toHistogramPoint group.1)

/-- The tree of observations that can be written can be written. -/
theorem isWritable_tree
    {observations : List Observation}
    (writable : ∀ observation ∈ observations, observation.reading.IsWritable) :
    ∀ resource ∈ tree observations, resource.IsWritable := by
  refine List.forall_mem_map.mpr fun resource inTree => ⟨?_, ?_⟩
  · rintro attributes same
    cases same
    exact Attribute.isText_ofTags resource.1
  · refine List.forall_mem_map.mpr fun scope inResource => ?_
    refine List.forall_mem_map.mpr fun metric inScope data isData => ?_
    obtain ⟨first, -, made⟩ := Option.map_eq_some_iff.mp isData
    rw [<- made]
    refine isWritable_dataOf _ (List.forall_mem_map.mpr fun observation member => ?_)
    exact writable observation (List.mem_filter.mp (of_mem_of_mem_groups inTree
      (of_mem_of_mem_groups inResource (of_mem_of_mem_groups inScope member).1).1).1).1

end Grouping

/-- The numbers of a tree that can be written are finite. -/
theorem MetricTree.isFinite_doubles
    {tree : MetricTree}
    (writable : ∀ resource ∈ tree, resource.IsWritable) :
    ∀ number ∈ tree.doubles, number.isFinite = true := by
  intro number member
  obtain ⟨placed, inTree, inMetric⟩ := List.mem_flatMap.mp member
  obtain ⟨data, isData, inData⟩ := List.mem_flatMap.mp inMetric
  obtain ⟨resource, resourceMember, inResource⟩ := List.mem_flatMap.mp inTree
  obtain ⟨scope, scopeMember, inScope⟩ := List.mem_flatMap.mp inResource
  obtain ⟨metric, metricMember, rfl⟩ := List.mem_map.mp inScope
  exact ((writable resource resourceMember).data scope scopeMember metric metricMember data
    (Option.mem_toList.mp isData)).finite number inData

/-! ## Readings -/

namespace FieldValue

theorem IsFinite.toNumber
    {field : String}
    {value : FieldValue}
    {number : Number}
    (finite : value.IsFinite)
    (read : value.toNumber field = .ok number)
    (attributes : Dictionary String)
    (start time : UInt64) :
    NumberPoint.IsWritable ⟨Attribute.ofTags attributes, start, time, some number⟩ where
  texts := Attribute.isText_ofTags attributes
  finite double member := by
    cases number with
    | int whole => cases member
    | double number =>
        rw [List.mem_singleton.mp member]
        cases value <;> cases read
        exact finite number rfl

theorem IsFinite.toDouble
    {field : String}
    {value : FieldValue}
    {number : Binary64}
    (finite : value.IsFinite)
    (read : value.toDouble field = .ok number) :
    number.isFinite = true := by
  cases value with
  | int value =>
      cases read
      exact Binary64.isFinite_ofInt value
  | uint value =>
      cases read
      exact Binary64.isFinite_ofNat_count value
  | float value =>
      cases read
      exact finite number rfl
  | _ => cases read

end FieldValue

/-- A field of a point with finite numbers is finite. -/
theorem Point.IsFinite.find?
    {point : Point}
    {key : String}
    {value : FieldValue}
    (finite : point.IsFinite)
    (found : point.fields.find? key = some value) :
    value.IsFinite :=
  finite _ (Dictionary.find?_eq_some_iff.mp found)

namespace Whole

variable {point : Point} {observation : Observation}

theorem isWritable_of_numberObservations
    {time start : UInt64}
    {valueField : String}
    {reading : NumberPoint -> Reading}
    {result : List Observation}
    (finite : point.IsFinite)
    (makes : ∀ point : NumberPoint, point.IsWritable -> (reading point).IsWritable)
    (read : numberObservations point time valueField start reading = .ok result) :
    ∀ observation ∈ result, observation.reading.IsWritable := by
  rw [numberObservations] at read
  obtain ⟨found, numeric, made⟩ := exists_of_bind_eq_ok read
  cases made
  refine List.forall_mem_map.mpr fun stated member => makes _ ?_
  rw [numbers] at numeric
  split at numeric
  · rename_i value isField
    obtain ⟨number, isNumber, made⟩ := exists_of_bind_eq_ok numeric
    cases made
    cases List.mem_singleton.mp member
    exact (finite.find? isField).toNumber isNumber _ _ _
  · split at numeric
    · cases numeric
    · cases numeric
      obtain ⟨entry, inFields, isStated⟩ := List.mem_filterMap.mp member
      rw [fieldNumber?] at isStated
      split at isStated
      · cases isStated
      · obtain ⟨number, isNumber, made⟩ := Option.map_eq_some_iff.mp isStated
        cases made
        exact (finite entry inFields).toNumber (eq_ok_of_toOption isNumber) _ _ _

/-- The sum of a distribution is finite. -/
theorem isFinite_of_statedSum?
    {sum : Binary64}
    (finite : point.IsFinite)
    (stated : statedSum? point.fields = some sum) :
    sum.isFinite = true := by
  obtain ⟨value, found, isNumber⟩ := Option.bind_eq_some_iff.mp stated
  exact (finite.find? found).toDouble (eq_ok_of_toOption isNumber)

theorem isWritable_of_histogramObservation
    {time : UInt64}
    (finite : point.IsFinite)
    (read : histogramObservation point time = .ok observation) :
    observation.reading.IsWritable := by
  obtain ⟨count, sum, buckets, isDistribution, -, rfl⟩ := histogramObservation_eq_ok_iff.mp read
  refine ⟨Attribute.isText_ofTags _, fun number member => ?_⟩
  rcases List.mem_append.mp member with isSum | isBound
  · rw [List.mem_singleton.mp isSum]
    exact isFinite_of_statedSum? finite (distribution_eq_ok_iff.mp isDistribution).2.2.1
  · exact (places_of_distribution isDistribution).1 number isBound

theorem isWritable_of_summaryObservation
    {time : UInt64}
    (finite : point.IsFinite)
    (read : summaryObservation point time = .ok observation) :
    observation.reading.IsWritable := by
  obtain ⟨count, sum, quantiles, isDistribution, rfl⟩ := summaryObservation_eq_ok_iff.mp read
  have places := (places_of_distribution isDistribution).1
  obtain ⟨-, -, isSum, isInOrder⟩ := distribution_eq_ok_iff.mp isDistribution
  refine ⟨Attribute.isText_ofTags _, fun number member => ?_⟩
  rcases List.mem_cons.mp member with rfl | inQuantiles
  · exact isFinite_of_statedSum? finite isSum
  · obtain ⟨quantile, inPoint, isNumber⟩ := List.mem_flatMap.mp inQuantiles
    obtain ⟨entry, inOrder, rfl⟩ := List.mem_map.mp inPoint
    rcases List.mem_cons.mp isNumber with rfl | isValue
    · exact places entry.1 (List.mem_map_of_mem inOrder)
    · rw [List.mem_singleton.mp isValue]
      rw [isInOrder, (Assembly.inOrder_perm _).mem_iff] at inOrder
      obtain ⟨field, inFields, stated⟩ := List.mem_filterMap.mp inOrder
      exact (finite field inFields).toDouble (statedPart?_eq_some stated).2

/-- What a whole point with finite numbers says can be written. -/
theorem isWritable_of_mem_observations
    {now : UInt64}
    {result : List Observation}
    (finite : point.IsFinite)
    (read : observations now point = .ok result) :
    ∀ observation ∈ result, observation.reading.IsWritable := by
  rw [observations] at read
  cases type : typeOf point with
  | untyped =>
      rw [type] at read
      refine isWritable_of_numberObservations finite ?_ read
      exact fun _ writable => writable
  | gauge =>
      rw [type] at read
      refine isWritable_of_numberObservations finite ?_ read
      exact fun _ writable => writable
  | sum =>
      rw [type] at read
      have untagged : Point.IsFinite
        { point with tags := point.tags.erase ReservedName.temporality } := finite
      refine isWritable_of_numberObservations untagged ?_ read
      exact fun _ writable => writable
  | histogram =>
      rw [type] at read
      obtain ⟨observation, isObservation, rfl⟩ := exists_of_map_eq_ok read
      exact List.forall_mem_singleton.mpr
        (isWritable_of_histogramObservation finite isObservation)
  | summary =>
      rw [type] at read
      obtain ⟨observation, isObservation, rfl⟩ := exists_of_map_eq_ok read
      exact List.forall_mem_singleton.mpr
        (isWritable_of_summaryObservation finite isObservation)

end Whole

namespace Sliced

variable {point : Point} {observation : Observation}

theorem isWritable_of_numberObservation
    {kind : String}
    {time : UInt64}
    {reading : NumberPoint -> Reading}
    (finite : point.IsFinite)
    (makes : ∀ point : NumberPoint, point.IsWritable -> (reading point).IsWritable)
    (read : numberObservation kind reading point time = .ok observation) :
    observation.reading.IsWritable := by
  rw [numberObservation] at read
  split at read
  · rename_i metric value isOnly
    obtain ⟨number, isNumber, made⟩ := exists_of_bind_eq_ok read
    cases made
    refine makes _ ((finite (metric, value) ?_).toNumber isNumber _ _ _)
    rw [isOnly]
    exact List.mem_singleton.mpr rfl
  · cases read

theorem isWritable_of_bucketSlice
    {fields : Fields}
    {bound metric : String}
    {slice : Slice}
    (read : bucketSlice fields bound = .ok (metric, slice)) :
    slice.IsWritable := by
  rw [bucketSlice] at read
  dsimp only at read
  split at read
  · cases read
  · split at read
    · cases read
    · obtain ⟨count, -, made⟩ := exists_of_bind_eq_ok read
      cases made
      trivial

theorem isWritable_of_quantileSlice
    {quantile metric : String}
    {slice : Slice}
    (finite : point.IsFinite)
    (read : quantileSlice point.fields quantile = .ok (metric, slice)) :
    slice.IsWritable := by
  rw [quantileSlice] at read
  split at read
  · cases read
  · rename_i place isPlace
    split at read
    · cases read
    · rename_i key value isOnly
      obtain ⟨number, isNumber, made⟩ := exists_of_bind_eq_ok read
      cases made
      refine ⟨(Option.filter_eq_some_iff.mp isPlace).2,
        (finite (metric, value) ?_).toDouble isNumber⟩
      rw [isOnly]
      exact List.mem_singleton.mpr rfl
    · cases read

theorem isWritable_of_totalSlice
    {metric : String}
    {slice : Slice}
    (finite : point.IsFinite)
    (read : totalSlice point.fields = .ok (metric, slice)) :
    slice.IsWritable := by
  rw [totalSlice] at read
  dsimp only at read
  split at read
  · rename_i stem key count sum found
    obtain ⟨number, -, read⟩ := exists_of_bind_eq_ok read
    obtain ⟨isSum, isNumber, made⟩ := exists_of_bind_eq_ok read
    cases made
    obtain ⟨entry, -, isTotal⟩ := List.exists_of_findSome?_eq_some found
    obtain ⟨value, isField, same⟩ := Option.map_eq_some_iff.mp isTotal
    cases same
    exact (finite.find? isField).toDouble isNumber
  · cases read
  · split at read
    · cases read
    · cases read

theorem isWritable_of_sliceObservation
    {preferSummary : Bool}
    {time : UInt64}
    (finite : point.IsFinite)
    (read : sliceObservation preferSummary point time = .ok observation) :
    observation.reading.IsWritable := by
  rw [sliceObservation] at read
  dsimp only at read
  split at read
  · obtain ⟨⟨metric, slice⟩, isSlice, made⟩ := exists_of_bind_eq_ok read
    cases made
    exact isWritable_of_bucketSlice isSlice
  · obtain ⟨⟨metric, slice⟩, isSlice, made⟩ := exists_of_bind_eq_ok read
    cases made
    exact isWritable_of_quantileSlice finite isSlice
  · obtain ⟨⟨metric, slice⟩, isSlice, made⟩ := exists_of_bind_eq_ok read
    cases made
    exact isWritable_of_totalSlice finite isSlice

/-- What a sliced point with finite numbers says can be written. -/
theorem isWritable_of_mem_observations
    {now : UInt64}
    {result : List Observation}
    (finite : point.IsFinite)
    (read : observations now point = .ok result) :
    ∀ observation ∈ result, observation.reading.IsWritable := by
  rw [observations] at read
  split at read
  · cases read
  · obtain ⟨observation, isObservation, rfl⟩ := exists_of_map_eq_ok read
    refine List.forall_mem_singleton.mpr ?_
    have kept : Point.IsFinite
        { point with fields := point.fields.filter fun key _ => key ≠ "" } :=
      fun entry member => finite entry (List.mem_filter.mp member).1
    rw [Sliced.observation] at isObservation
    split at isObservation
    · cases isObservation
    · refine isWritable_of_numberObservation kept ?_ isObservation
      exact fun _ writable => writable
    · refine isWritable_of_numberObservation kept ?_ isObservation
      exact fun _ writable => writable
    · exact isWritable_of_sliceObservation kept isObservation
    · exact isWritable_of_sliceObservation kept isObservation

end Sliced

namespace Batch

/-- The tree of points with finite numbers can be written. -/
theorem isWritable_run
    {schema : Schema}
    {arrivals : List Arrival}
    (finite : ∀ arrival ∈ arrivals, arrival.point.IsFinite) :
    ∀ resource ∈ ((empty schema).run arrivals).1.finish, resource.IsWritable := by
  rw [finish_run]
  refine Grouping.isWritable_tree fun observation member => ?_
  obtain ⟨arrival, isArrival, result, read, inResult⟩ :=
    Grouping.exists_of_mem_observations member
  cases schema with
  | whole =>
      exact Whole.isWritable_of_mem_observations (finite arrival isArrival) read observation
        inResult
  | sliced =>
      exact Sliced.isWritable_of_mem_observations (finite arrival isArrival) read observation
        inResult

end Batch
end LineMetrics
