import LineMetrics.Proofs.TagRoundTrip
import LineMetrics.Proofs.TotalLines
import LineMetrics.Proofs.WholeGrammar
import Mathlib.Algebra.Order.Floor.Semifield
import Mathlib.Data.Rat.Floor

/-!
# Counts are whole parts

A number stands for an exact rational value. As a count it is cut down to the whole part of
that value, or to the greatest count if the value is beyond it, and no other value is
taken for a count. So every count that a point states, of all observations or of a bucket,
is the whole part of what stands in its field, up to the greatest count.
-/

namespace LineMetrics

/-- The exact value of a finite number. -/
def Binary64.exact (number : Binary64) : ℚ := number.inUnits / unitsPerOne

namespace FieldValue

/-- The exact value of a number that is finite. -/
def rational? : FieldValue -> Option ℚ
  | .int value => some value.toInt
  | .uint value => some value.toNat
  | .float value => if value.isFinite then some value.exact else none
  | .text _ => none
  | .bool _ => none

/-- The count is the whole part of the exact value, or it is the greatest count and the value
is beyond it. -/
def CountsAs (value : FieldValue) (count : UInt64) : Prop :=
  ∃ exact, value.rational? = some exact ∧ count.toNat ≤ exact ∧
    (exact < count.toNat + 1 ∨ (count.toNat + 1 = 2 ^ 64 ∧ 2 ^ 64 ≤ exact))

/-- The count of a value is its whole part, or the greatest count. -/
theorem ofNat_min_eq_iff
    {whole : Nat}
    {exact : ℚ}
    {count : UInt64}
    (nonnegative : 0 ≤ exact)
    (isWhole : ⌊exact⌋₊ = whole) :
    UInt64.ofNat (min whole (UInt64.size - 1)) = count ↔
      count.toNat ≤ exact ∧
        (exact < count.toNat + 1 ∨ (count.toNat + 1 = 2 ^ 64 ∧ 2 ^ 64 ≤ exact)) := by
  have below : (count.toNat : ℚ) ≤ exact ↔ count.toNat ≤ whole := by
    rw [<- isWhole, Nat.le_floor_iff nonnegative]
  have above : exact < count.toNat + 1 ↔ whole < count.toNat + 1 := by
    rw [<- isWhole, Nat.floor_lt nonnegative, Nat.cast_succ]
  have beyond : 2 ^ 64 ≤ exact ↔ 2 ^ 64 ≤ whole := by
    rw [<- isWhole, Nat.le_floor_iff nonnegative, Nat.cast_pow, Nat.cast_ofNat]
  have size := count.toNat_lt
  rw [below, above, beyond, <- UInt64.toNat_inj, UInt64.toNat_ofNat', UInt64.size]
  omega

/-- One has units. -/
theorem unitsPerOne_cast_pos : (0 : ℚ) < Binary64.unitsPerOne := by
  rw [Nat.cast_pos]
  decide +kernel

/-- The exact value of a number has the sign of its units. -/
theorem exact_nonneg_iff (number : Binary64) : 0 ≤ number.exact ↔ 0 ≤ number.inUnits := by
  rw [Binary64.exact, le_div_iff₀ unitsPerOne_cast_pos, zero_mul, Int.cast_nonneg_iff]

/-- The whole part of a number is that of its exact value. -/
theorem floor_exact {number : Binary64} (nonnegative : 0 ≤ number.inUnits) :
    ⌊number.exact⌋₊ = number.wholePart := by
  have units : number.inUnits = number.units := by
    rw [Binary64.inUnits] at nonnegative ⊢
    cases isNegative : number.isNegative with
    | true =>
        rw [isNegative, if_pos rfl] at nonnegative
        rw [if_pos rfl]
        omega
    | false => rfl
  rw [Binary64.exact, units, Int.cast_natCast, Nat.floor_div_eq_div, Binary64.wholePart]

/-- A value without an exact value counts as nothing. -/
theorem not_countsAs_of_rational?_eq_none
    {value : FieldValue}
    (none : value.rational? = none)
    (count : UInt64) :
    ¬value.CountsAs count := by
  rintro ⟨exact, isExact, -⟩
  rw [none] at isExact
  cases isExact

/-- What a value with an exact value counts as. -/
theorem countsAs_iff_of_rational?
    {value : FieldValue}
    {exact : ℚ}
    (isExact : value.rational? = some exact)
    (count : UInt64) :
    value.CountsAs count ↔ count.toNat ≤ exact ∧
      (exact < count.toNat + 1 ∨ (count.toNat + 1 = 2 ^ 64 ∧ 2 ^ 64 ≤ exact)) := by
  rw [CountsAs, isExact]
  constructor
  · rintro ⟨_, same, whole⟩
    cases same
    exact whole
  · exact fun whole => ⟨exact, rfl, whole⟩

/-- A signed number is converted to a count exactly if it counts as it. -/
theorem toCount_int_eq_ok_iff (field : String) (value : Int64) (count : UInt64) :
    (FieldValue.int value).toCount field = .ok count ↔
      (FieldValue.int value).CountsAs count := by
  rw [countsAs_iff_of_rational? rfl, toCount]
  by_cases negative : value < 0
  · have below : value.toInt < 0 := Int64.lt_iff_toInt_lt.mp negative
    have belowExact : (value.toInt : ℚ) < 0 := Int.cast_lt_zero.mpr below
    rw [if_pos negative]
    refine iff_of_false error_ne_ok fun whole => ?_
    exact absurd (Nat.cast_nonneg count.toNat) (not_le.mpr (whole.1.trans_lt belowExact))
  · have above : ¬value.toInt < 0 := fun below => negative (Int64.lt_iff_toInt_lt.mpr below)
    have bound := value.toInt_lt
    have isWhole : ⌊(value.toInt : ℚ)⌋₊ = value.toInt.toNat := by
      rw [<- Int.floor_toNat, Int.floor_intCast]
    have same : value.toUInt64 = UInt64.ofNat (min value.toInt.toNat (UInt64.size - 1)) := by
      have clamped := Int64.toNat_toUInt64_of_le (Int64.le_iff_toInt_le.mpr (not_lt.mp above))
      change value.toUInt64.toNat = value.toInt.toNat at clamped
      rw [<- clamped, UInt64.size, min_eq_left (by omega), UInt64.ofNat_toNat]
    rw [if_neg negative, Except.ok.injEq, same]
    exact ofNat_min_eq_iff (Int.cast_nonneg (not_lt.mp above)) isWhole

/-- A value is converted to a count exactly if it counts as it. -/
theorem toCount_eq_ok_iff (field : String) (value : FieldValue) (count : UInt64) :
    value.toCount field = .ok count ↔ value.CountsAs count := by
  cases value with
  | int value => exact toCount_int_eq_ok_iff field value count
  | uint value =>
      have bound := value.toNat_lt
      have same : value = UInt64.ofNat (min value.toNat (UInt64.size - 1)) := by
        rw [UInt64.size, min_eq_left (by omega), UInt64.ofNat_toNat]
      rw [countsAs_iff_of_rational? rfl, toCount, Except.ok.injEq]
      nth_rewrite 1 [same]
      exact ofNat_min_eq_iff (Nat.cast_nonneg _) (Nat.floor_natCast _)
  | float value =>
      rw [toCount]
      cases finite : value.isFinite with
      | false =>
          exact iff_of_false error_ne_ok (not_countsAs_of_rational?_eq_none
            (by rw [rational?, finite]; rfl) count)
      | true =>
          have isExact : (FieldValue.float value).rational? = some value.exact := if_pos finite
          rw [countsAs_iff_of_rational? isExact, Bool.true_and]
          by_cases nonnegative : 0 ≤ value.inUnits
          · rw [(Binary64.isAtLeastZero_iff finite).mpr nonnegative, if_pos rfl,
              Except.ok.injEq]
            exact ofNat_min_eq_iff ((exact_nonneg_iff value).mpr nonnegative)
              (floor_exact nonnegative)
          · rw [if_neg (mt (Binary64.isAtLeastZero_iff finite).mp nonnegative)]
            refine iff_of_false error_ne_ok fun whole => nonnegative ?_
            exact (exact_nonneg_iff value).mp ((Nat.cast_nonneg _).trans whole.1)
  | text value => exact iff_of_false error_ne_ok (not_countsAs_of_rational?_eq_none rfl count)
  | bool value => exact iff_of_false error_ne_ok (not_countsAs_of_rational?_eq_none rfl count)

/-- A value is converted to a count exactly if its exact value is zero or more. -/
theorem isOk_toCount_iff (field : String) (value : FieldValue) :
    (value.toCount field).isOk = true ↔ ∃ exact, value.rational? = some exact ∧ 0 ≤ exact := by
  rw [toCount_isOk]
  cases value with
  | int value =>
      rw [isCount, decide_eq_true_iff]
      constructor
      · exact fun nonnegative => ⟨_, rfl, Int.cast_nonneg nonnegative⟩
      · rintro ⟨_, same, nonnegative⟩
        cases same
        exact Int.cast_nonneg_iff.mp nonnegative
  | uint value => exact iff_of_true rfl ⟨_, rfl, Nat.cast_nonneg _⟩
  | float value =>
      rw [isCount, rational?]
      cases value.isFinite with
      | false => simp
      | true => simp [exact_nonneg_iff]
  | text value => exact iff_of_false Bool.false_ne_true (by rintro ⟨_, none, -⟩; cases none)
  | bool value => exact iff_of_false Bool.false_ne_true (by rintro ⟨_, none, -⟩; cases none)

end FieldValue

/-- The field with the key states the count. -/
def StatesCount (fields : Fields) (key : String) (count : UInt64) : Prop :=
  ∃ value, fields.find? key = some value ∧ value.CountsAs count

/-- The buckets of the data point are closed by its count, and each of the others has its
bound from the key of a field that states its count. -/
def StatesBuckets (fields : Fields) (point : HistogramPoint) : Prop :=
  ∃ buckets : List (Binary64 × UInt64),
    point.bounds = buckets.map Prod.fst ∧
      point.counts = Buckets.perBucket (buckets.map Prod.snd ++ [point.count]) ∧
      ∀ bucket ∈ buckets, ∃ key,
        Binary64.ofFiniteKey? key = some bucket.1 ∧ StatesCount fields key bucket.2

/-- The counts of a reading of the metric are stated by the fields. -/
def Reading.CountsAreStated (fields : Fields) (metric : String) : Reading -> Prop
  | .gauge _ => True
  | .sum _ _ => True
  | .histogram point =>
      StatesCount fields ReservedName.count point.count ∧ StatesBuckets fields point
  | .summary point => StatesCount fields ReservedName.count point.count
  | .slice _ _ (.bucket _ count) =>
      StatesCount fields (metric ++ ReservedName.bucketEnding) count
  | .slice _ _ (.quantile _ _) => True
  | .slice _ _ (.total count _) =>
      StatesCount fields (metric ++ ReservedName.countEnding) count

/-- A field that is converted to a count states it. -/
theorem statesCount_of_toCount
    {fields : Fields}
    {key field : String}
    {value : FieldValue}
    {count : UInt64}
    (found : fields.find? key = some value)
    (converted : value.toCount field = .ok count) :
    StatesCount fields key count :=
  ⟨value, found, (FieldValue.toCount_eq_ok_iff field value count).mp converted⟩

/-- What some fields state is stated by all fields among which they are found. -/
theorem countsAreStated_of_find?
    {some all : Fields}
    (found : ∀ key value, some.find? key = .some value -> all.find? key = .some value)
    {metric : String}
    {reading : Reading}
    (stated : reading.CountsAreStated some metric) :
    reading.CountsAreStated all metric := by
  have states {key : String} {count : UInt64} (states : StatesCount some key count) :
      StatesCount all key count := by
    obtain ⟨value, isValue, counts⟩ := states
    exact ⟨value, found key value isValue, counts⟩
  match reading, stated with
  | .gauge _, _ => trivial
  | .sum _ _, _ => trivial
  | .histogram point, ⟨count, buckets, bounds, counts, each⟩ =>
      refine ⟨states count, buckets, bounds, counts, fun bucket member => ?_⟩
      obtain ⟨key, isBound, statesBucket⟩ := each bucket member
      exact ⟨key, isBound, states statesBucket⟩
  | .summary _, count => exact states count
  | .slice _ _ (.bucket _ _), count => exact states count
  | .slice _ _ (.quantile _ _), _ => trivial
  | .slice _ _ (.total _ _), count => exact states count

namespace Whole

/-- The count that fields state stands in the field of the count. -/
theorem statesCount_of_statedCount?
    {fields : Fields}
    {count : UInt64}
    (stated : statedCount? fields = some count) :
    StatesCount fields ReservedName.count count := by
  obtain ⟨value, found, converted⟩ := Option.bind_eq_some_iff.mp stated
  exact statesCount_of_toCount found (eq_ok_of_toOption converted)

/-- The counts of a histogram are stated. -/
theorem countsAreStated_of_histogramObservation
    {point : Point}
    {time : UInt64}
    {observation : Observation}
    (read : histogramObservation point time = .ok observation) :
    observation.reading.CountsAreStated point.fields observation.metric := by
  obtain ⟨count, sum, buckets, stated, -, rfl⟩ := histogramObservation_eq_ok_iff.mp read
  obtain ⟨-, statedCount, -, inOrder⟩ := distribution_eq_ok_iff.mp stated
  refine ⟨statesCount_of_statedCount? statedCount, buckets, rfl, rfl, fun bucket member => ?_⟩
  rw [inOrder, (Assembly.inOrder_perm _).mem_iff, List.mem_filterMap] at member
  obtain ⟨entry, isEntry, statesBucket⟩ := member
  obtain ⟨isBound, converted⟩ := statedPart?_eq_some statesBucket
  exact ⟨entry.1, isBound,
    statesCount_of_toCount (Dictionary.find?_eq_some_iff.mpr isEntry) converted⟩

/-- The count of a summary is stated. -/
theorem countsAreStated_of_summaryObservation
    {point : Point}
    {time : UInt64}
    {observation : Observation}
    (read : summaryObservation point time = .ok observation) :
    observation.reading.CountsAreStated point.fields observation.metric := by
  obtain ⟨count, sum, quantiles, stated, rfl⟩ := summaryObservation_eq_ok_iff.mp read
  exact statesCount_of_statedCount? (distribution_eq_ok_iff.mp stated).2.1

/-- The counts that a whole point says are stated. -/
theorem countsAreStated_of_observations
    {now : UInt64}
    {point : Point}
    {result : List Observation}
    (read : observations now point = .ok result) :
    ∀ observation ∈ result,
      observation.reading.CountsAreStated point.fields observation.metric := by
  intro observation member
  rw [observations] at read
  cases type : typeOf point <;> rw [type] at read <;> dsimp only at read
  case untyped | gauge | sum =>
    obtain ⟨metric, number, rfl⟩ := exists_of_mem_numberObservations read member
    trivial
  case histogram =>
    obtain ⟨only, said, rfl⟩ := exists_of_map_eq_ok read
    cases List.mem_singleton.mp member
    exact countsAreStated_of_histogramObservation said
  case summary =>
    obtain ⟨only, said, rfl⟩ := exists_of_map_eq_ok read
    cases List.mem_singleton.mp member
    exact countsAreStated_of_summaryObservation said

end Whole

namespace Sliced

variable {fields : Fields} {metric text : String} {slice : Slice} {preferSummary : Bool}
  {series : Series}

/-- The count of a bucket is stated. -/
theorem countsAreStated_of_bucketSlice
    (read : bucketSlice fields text = .ok (metric, slice)) :
    (Reading.slice preferSummary series slice).CountsAreStated fields metric := by
  rw [bucketSlice] at read
  split at read
  · cases read
  · dsimp only at read
    split at read
    · cases read
    · rename_i stem key value found
      obtain ⟨count, converted, made⟩ := exists_of_bind_eq_ok read
      obtain ⟨⟨other, otherValue⟩, member, isStem⟩ := List.exists_of_findSome?_eq_some found
      obtain ⟨_, stemmed, same⟩ := Option.map_eq_some_iff.mp isStem
      cases made
      cases same
      rw [stem?_eq_some_iff] at stemmed
      exact statesCount_of_toCount
        (Dictionary.find?_eq_some_iff.mpr (stemmed ▸ member)) converted

/-- A quantile has no count. -/
theorem countsAreStated_of_quantileSlice
    (read : quantileSlice fields text = .ok (metric, slice)) :
    (Reading.slice preferSummary series slice).CountsAreStated fields metric := by
  rw [quantileSlice] at read
  split at read
  · cases read
  · split at read
    · cases read
    · obtain ⟨value, -, made⟩ := exists_of_bind_eq_ok read
      cases made
      trivial
    · cases read

/-- The count of a total is stated. -/
theorem countsAreStated_of_totalSlice
    (read : totalSlice fields = .ok (metric, slice)) :
    (Reading.slice preferSummary series slice).CountsAreStated fields metric := by
  cases found : firstPair? fields with
  | none =>
      rw [totalSlice_of_no_pair (firstPair?_eq_none_iff.mp found)] at read
      cases read
  | some pair =>
      obtain ⟨name, key, countValue, sumValue⟩ := pair
      obtain ⟨isFirst, rfl, foundCount, foundSum⟩ := of_firstPair? found
      rw [totalSlice_of_isFirstPair isFirst foundCount foundSum] at read
      obtain ⟨count, converted, read⟩ := exists_of_bind_eq_ok read
      obtain ⟨sum, -, made⟩ := exists_of_bind_eq_ok read
      cases made
      exact statesCount_of_toCount foundCount converted

/-- The count that a slice says is stated. -/
theorem countsAreStated_of_sliceObservation
    {point : Point}
    {time : UInt64}
    {observation : Observation}
    (read : sliceObservation preferSummary point time = .ok observation) :
    observation.reading.CountsAreStated point.fields observation.metric := by
  rw [sliceObservation_eq preferSummary time rfl] at read
  obtain ⟨⟨metric, slice⟩, selected, rfl⟩ := exists_of_map_eq_ok read
  rw [selectedSlice] at selected
  dsimp only [Observation.under]
  split at selected
  · exact countsAreStated_of_bucketSlice selected
  · exact countsAreStated_of_quantileSlice selected
  · exact countsAreStated_of_totalSlice selected

/-- The counts that a sliced point says are stated. -/
theorem countsAreStated_of_observations
    {now : UInt64}
    {point : Point}
    {result : List Observation}
    (read : observations now point = .ok result) :
    ∀ observation ∈ result,
      observation.reading.CountsAreStated point.fields observation.metric := by
  rw [observations] at read
  split at read
  · cases read
  · obtain ⟨only, said, rfl⟩ := exists_of_map_eq_ok read
    rw [List.forall_mem_singleton]
    -- the fields without a key are not read
    apply countsAreStated_of_find? fun key value found =>
      (Option.filter_eq_some_iff.mp ((Dictionary.find?_filter _ _ _).symm.trans found)).1
    have named : ∀ entry ∈ (keyed point).fields.entries, entry.1 ≠ "" :=
      fun entry member => of_decide_eq_true (List.mem_filter.mp member).2
    rw [observation] at said
    split at said
    · cases said
    · obtain ⟨metric, number, -, rfl⟩ := exists_of_numberObservation named said
      trivial
    · obtain ⟨metric, number, -, rfl⟩ := exists_of_numberObservation named said
      trivial
    · exact countsAreStated_of_sliceObservation said
    · exact countsAreStated_of_sliceObservation said

end Sliced

namespace Batch

/-- A number is converted to a count exactly if it is finite and not negative, and then the
count is its whole part, or the greatest count if the number is beyond it. Every count that a
point says is such a conversion of what stands in its field. -/
theorem counts_are_whole_parts (schema : Schema) (now : UInt64) (point : Point) :
    (∀ field value count,
      FieldValue.toCount field value = .ok count ↔ value.CountsAs count) ∧
    (∀ field value,
      (FieldValue.toCount field value).isOk = true ↔
        ∃ exact, value.rational? = some exact ∧ 0 ≤ exact) ∧
    ∀ result,
      observations schema now point = .ok result ->
        ∀ observation ∈ result,
          observation.reading.CountsAreStated point.fields observation.metric := by
  refine ⟨FieldValue.toCount_eq_ok_iff, FieldValue.isOk_toCount_iff, fun result read => ?_⟩
  cases schema with
  | whole => exact Whole.countsAreStated_of_observations read
  | sliced => exact Sliced.countsAreStated_of_observations read

/-- A histogram with a bucket of three and three quarters, closed by a count of five, has three
in its first bucket and two behind it. -/
theorem counts_are_whole_parts_fraction :
    let point : Point := {
      measurement := "lag"
      fields := .ofList
        [("1", .float ⟨0x400E000000000000⟩), ("count", .int 5), ("sum", .int 7)]
      time := 5 }
    let lag : Observation := .under (.split ∅) "lag" <| .histogram {
      time := 5
      count := 5
      sum := some ⟨0x401C000000000000⟩
      counts := [3, 2]
      bounds := [⟨0x3FF0000000000000⟩] }
    observations .whole 9 point = .ok [lag] ∧
      lag.reading.CountsAreStated point.fields "lag" := by
  intro point lag
  have read : observations .whole 9 point = .ok [lag] := by decide +kernel
  obtain ⟨-, -, stated⟩ := counts_are_whole_parts .whole 9 point
  exact ⟨read, stated [lag] read lag (List.mem_singleton_self lag)⟩

/-- The number two to the power of sixty-four is no count, but it is converted to one, to the
greatest count, which is not its whole part. -/
theorem toCount_beyond_greatest :
    let value : FieldValue := .float ⟨0x43F0000000000000⟩
    let count : UInt64 := 18446744073709551615
    value.rational? = some (2 ^ 64) ∧
      value.toCount "count" = .ok count ∧
      ¬((count.toNat : ℚ) ≤ 2 ^ 64 ∧ (2 ^ 64 : ℚ) < count.toNat + 1) := by
  intro value count
  have units : (⟨0x43F0000000000000⟩ : Binary64).inUnits = 2 ^ 64 * Binary64.unitsPerOne := by
    decide +kernel
  have exact : (⟨0x43F0000000000000⟩ : Binary64).exact = 2 ^ 64 := by
    rw [Binary64.exact, units, Int.cast_mul, Int.cast_natCast,
      mul_div_cancel_right₀ _ (ne_of_gt FieldValue.unitsPerOne_cast_pos)]
    norm_num
  have finite : (⟨0x43F0000000000000⟩ : Binary64).isFinite = true := by decide +kernel
  refine ⟨?_, by decide +kernel, ?_⟩
  · rw [FieldValue.rational?, if_pos finite, exact]
  -- the greatest count plus one is the number itself
  rintro ⟨-, below⟩
  have size : (count.toNat : ℚ) + 1 = 2 ^ 64 := by
    rw [show count.toNat = 2 ^ 64 - 1 from rfl]
    norm_num
  exact absurd below (by rw [size]; exact lt_irrefl _)

end Batch
end LineMetrics
