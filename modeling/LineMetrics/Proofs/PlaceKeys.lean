import LineMetrics.Proofs.WholePoints
import LineMetrics.Sliced.Points

/-!
# The keys of places

The places of a distribution, the bounds of its buckets or its quantiles, are written as
texts: as the keys of fields or as the values of tags. The text of a place states the place
itself, with its sign and to its last bit, so two places have the same field or the same tag
only if they are the same.
-/

namespace LineMetrics

/-- Points do not name two places alike, neither by the key of a field nor by a tag. -/
structure Binary64.NamedApart (left right : Binary64) : Prop where
  key : left.keyText ≠ right.keyText
  bound : ∀ (leftPoint rightPoint : Point) (leftMetric rightMetric : String)
      (leftTotal rightTotal : UInt64),
    (Sliced.bucketPoint leftPoint leftMetric left.keyText leftTotal).tags.find?
        ReservedName.bucketBound ≠
      (Sliced.bucketPoint rightPoint rightMetric right.keyText rightTotal).tags.find?
        ReservedName.bucketBound
  quantile : ∀ (leftPoint rightPoint : Point) (leftMetric rightMetric : String)
      (leftValue rightValue : Binary64),
    (Sliced.quantilePoint leftPoint leftMetric ⟨left, leftValue⟩).tags.find?
        ReservedName.quantile ≠
      (Sliced.quantilePoint rightPoint rightMetric ⟨right, rightValue⟩).tags.find?
        ReservedName.quantile

namespace Whole

/-- Parts at other places leave the field of a number as it is. -/
theorem find?_withParts
    {number : Binary64}
    {parts : List (Binary64 × Binary64)}
    (isNumber : number.isNaN = false)
    (elsewhere : ∀ part ∈ parts, part.1 ≠ number)
    (point : Point) :
    (withParts point parts).fields.find? number.keyText =
      point.fields.find? number.keyText := by
  rw [withParts_eq]
  apply Dictionary.find?_foldl_insert
  intro entry member same
  obtain ⟨part, isPart, rfl⟩ := List.mem_map.mp member
  exact elsewhere part isPart (Binary64.eq_of_keyText_eq isNumber same.symm).symm

/-- Of the parts at a number the last one has the field of the number. -/
theorem find?_withParts_append
    {number : Binary64}
    {later : List (Binary64 × Binary64)}
    (isNumber : number.isNaN = false)
    (elsewhere : ∀ part ∈ later, part.1 ≠ number)
    (point : Point)
    (earlier : List (Binary64 × Binary64))
    (value : Binary64) :
    (withParts point (earlier ++ (number, value) :: later)).fields.find? number.keyText =
      some (.float value) := by
  rw [withParts, List.foldl_append, List.foldl_cons]
  refine (find?_withParts isNumber elsewhere _).trans ?_
  exact (Dictionary.find?_insert _ _ _ _).trans (if_pos rfl)

end Whole

/-- The text in a tag of a part is that of its place. -/
theorem Point.find?_withTag (point : Point) (key value : String) :
    (point.withTag key value).tags.find? key = some value :=
  (Dictionary.find?_insert _ _ _ _).trans (if_pos rfl)

namespace Binary64

/-- Numbers with different texts are named apart. -/
theorem namedApart {left right : Binary64} (key : left.keyText ≠ right.keyText) :
    left.NamedApart right where
  key := key
  bound leftPoint rightPoint leftMetric rightMetric leftTotal rightTotal same := by
    change (leftPoint.withTag ReservedName.bucketBound _).tags.find? _ =
      (rightPoint.withTag ReservedName.bucketBound _).tags.find? _ at same
    rw [Point.find?_withTag, Point.find?_withTag] at same
    exact key (Option.some.inj same)
  quantile leftPoint rightPoint leftMetric rightMetric leftValue rightValue same := by
    change (leftPoint.withTag ReservedName.quantile _).tags.find? _ =
      (rightPoint.withTag ReservedName.quantile _).tags.find? _ at same
    rw [Point.find?_withTag, Point.find?_withTag] at same
    exact key (Option.some.inj same)

/-- The key of a number, be it normal, subnormal, a zero or an infinity, is read as the same
number. So the field with this key has the last part at the number, whatever other parts
there are, and no other place has the key or a tag with it. -/
theorem key_round_trip {number : Binary64} (isNumber : number.isNaN = false) :
    ofKey? number.keyText = some number ∧
      (∀ (point : Point) (earlier later : List (Binary64 × Binary64)) (value : Binary64),
        (∀ part ∈ later, part.1 ≠ number) ->
          (Whole.withParts point (earlier ++ (number, value) :: later)).fields.find?
            number.keyText = some (.float value)) ∧
        ∀ other : Binary64, other ≠ number -> number.NamedApart other := by
  refine ⟨ofKey?_keyText isNumber, fun point earlier later value elsewhere => ?_,
    fun other different => namedApart fun same => ?_⟩
  · exact Whole.find?_withParts_append isNumber elsewhere point earlier value
  · exact different (eq_of_keyText_eq isNumber same).symm

/-- The zero with a minus sign is read back with its sign, and is named apart from the other
zero. -/
theorem key_round_trip_negative_zero :
    let negativeZero : Binary64 := ⟨0x8000000000000000⟩
    (negativeZero.isNaN = false ∧ zero ≠ negativeZero ∧
        ∀ part ∈ [(zero, zero)], part.1 ≠ negativeZero) ∧
      ofKey? negativeZero.keyText = some negativeZero ∧
        (Whole.withParts ⟨"latency", ∅, ∅, 0, .summary⟩
            [(negativeZero, negativeZero), (zero, zero)]).fields.find? negativeZero.keyText =
          some (.float negativeZero) ∧
        negativeZero.NamedApart zero := by
  intro negativeZero
  have isNumber : negativeZero.isNaN = false := by decide
  have different : zero ≠ negativeZero := by decide
  have elsewhere : ∀ part ∈ [(zero, zero)], part.1 ≠ negativeZero := by decide
  obtain ⟨read, field, apart⟩ := key_round_trip isNumber
  exact ⟨⟨isNumber, different, elsewhere⟩, read,
    field _ [] [(zero, zero)] negativeZero elsewhere, apart zero different⟩

end Binary64
end LineMetrics
