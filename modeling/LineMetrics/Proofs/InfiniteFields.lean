import LineMetrics.Batch
import LineMetrics.Proofs.TagRoundTrip

/-!
# Fields for infinite buckets

A whole histogram is closed by its count, and so a field for an infinite bucket says
nothing: neither the type of a point nor the histogram that it says depends on the fields
whose keys are plus or minus infinity, whatever their values are.
-/

namespace LineMetrics

namespace Binary64

/-- The key is plus or minus infinity. -/
def isInfiniteKey (key : String) : Bool := (ofKey? key).any isInfinite

/-- A key of infinity is not a finite number. -/
theorem ofFiniteKey?_of_isInfiniteKey
    {key : String}
    (infinite : isInfiniteKey key = true) :
    ofFiniteKey? key = none := by
  obtain ⟨number, read, isInfinite⟩ := (Option.any_eq_true _ _).mp infinite
  have notFinite : number.isFinite ≠ true := by
    rw [Binary64.isInfinite, beq_iff_eq] at isInfinite
    rw [isFinite, isInfinite]
    decide
  rw [ofFiniteKey?, read, Option.filter_some, if_neg notFinite]

/-- A key of infinity is neither that of the count nor that of the sum. -/
theorem ne_of_isInfiniteKey
    {key : String}
    (infinite : isInfiniteKey key = true) :
    key ≠ ReservedName.count ∧ key ≠ ReservedName.sum := by
  have apart (other : String) (noNumber : isInfiniteKey other = false) : key ≠ other := by
    rintro rfl
    exact Bool.noConfusion (noNumber.symm.trans infinite)
  exact ⟨apart _ (by decide), apart _ (by decide)⟩

end Binary64

namespace Whole

/-- The point without the fields for infinite buckets. -/
def withoutInfinite (point : Point) : Point :=
  { point with fields := point.fields.filter fun key _ => !Binary64.isInfiniteKey key }

/-- A field with another key is found as before. -/
theorem find?_withoutInfinite
    {key : String}
    (point : Point)
    (other : Binary64.isInfiniteKey key = false) :
    (withoutInfinite point).fields.find? key = point.fields.find? key := by
  refine (Dictionary.find?_filter _ point.fields key).trans ?_
  rw [other]
  cases point.fields.find? key <;> rfl

/-- The type of a point does not depend on its fields for infinite buckets. -/
theorem typeOf_withoutInfinite (point : Point) :
    typeOf (withoutInfinite point) = typeOf point := by
  have gauge : (withoutInfinite point).fields.contains ReservedName.gauge =
      point.fields.contains ReservedName.gauge :=
    congrArg Option.isSome (find?_withoutInfinite point (by decide))
  have counter : (withoutInfinite point).fields.contains ReservedName.counter =
      point.fields.contains ReservedName.counter :=
    congrArg Option.isSome (find?_withoutInfinite point (by decide))
  have distribution : (withoutInfinite point).fields.keys.any isDistributionField =
      point.fields.keys.any isDistributionField := by
    rw [Dictionary.keys, Dictionary.keys, List.any_map, List.any_map]
    refine List.any_filter.trans (congrArg point.fields.entries.any (funext fun entry => ?_))
    dsimp only [Function.comp_apply]
    cases infinite : Binary64.isInfiniteKey entry.1 with
    | false => rfl
    | true =>
        obtain ⟨noCount, noSum⟩ := Binary64.ne_of_isInfiniteKey infinite
        rw [isDistributionField, Binary64.ofFiniteKey?_of_isInfiniteKey infinite,
          decide_eq_false noCount, decide_eq_false noSum]
        rfl
  rw [typeOf, typeOf, gauge, counter, distribution]
  rfl

/-- A field for an infinite bucket is passed over. -/
theorem add_of_isInfiniteKey
    {α : Type}
    (readPart : String -> FieldValue -> Except Error α)
    (fields : DistributionFields α)
    {entry : String × FieldValue}
    (infinite : Binary64.isInfiniteKey entry.1 = true) :
    fields.add readPart entry = .ok fields := by
  obtain ⟨noCount, noSum⟩ := Binary64.ne_of_isInfiniteKey infinite
  rw [DistributionFields.add, if_neg noCount, if_neg noSum,
    Binary64.ofFiniteKey?_of_isInfiniteKey infinite]

/-- A point states the same distribution without its fields for infinite buckets. -/
theorem distribution_withoutInfinite
    {α : Type}
    (kind : Distribution)
    (readPart : String -> FieldValue -> Except Error α)
    (point : Point) :
    distribution kind readPart (withoutInfinite point) = distribution kind readPart point := by
  have passed :
      (withoutInfinite point).fields.entries.foldlM (DistributionFields.add readPart) {} =
        point.fields.entries.foldlM (DistributionFields.add readPart) {} := by
    refine List.foldlM_filter.trans ?_
    congr 1
    funext fields entry
    by_cases infinite : Binary64.isInfiniteKey entry.1 = true
    · rw [add_of_isInfiniteKey readPart fields infinite, if_neg (by simpa using infinite)]
      rfl
    · rw [if_pos (by simpa using infinite)]
  rw [distribution, distribution, passed]
  rfl

/-- A point says the same histogram without its fields for infinite buckets. -/
theorem histogramObservation_withoutInfinite (point : Point) (time : UInt64) :
    histogramObservation (withoutInfinite point) time = histogramObservation point time := by
  rw [histogramObservation, histogramObservation, distribution_withoutInfinite]
  rfl

end Whole

namespace Batch

/-- A point that is processed as a histogram is added as it would be without its fields for
infinite buckets, and is refused for the same cause. -/
theorem add_withoutInfinite
    {batch : Batch}
    {point : Point}
    (now : UInt64)
    (whole : batch.schema = .whole)
    (histogram : Whole.typeOf point = .histogram) :
    batch.add now (Whole.withoutInfinite point) = batch.add now point := by
  have said : observations .whole now (Whole.withoutInfinite point) =
      observations .whole now point := by
    change Whole.observations now _ = Whole.observations now _
    rw [Whole.observations, Whole.observations, Whole.typeOf_withoutInfinite, histogram]
    exact congrArg (Except.map ([·]))
      (Whole.histogramObservation_withoutInfinite point (point.timeOr now))
  rw [add, add, whole, said]

end Batch
end LineMetrics
