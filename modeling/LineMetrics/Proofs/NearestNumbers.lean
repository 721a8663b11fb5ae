import LineMetrics.Json.Number
import LineMetrics.Proofs.NumberText
import LineMetrics.Proofs.RoundingErrors

/-!
# Numbers are nearest to their text in JSON

However a finite number is written in JSON, with an exponent or with a zero behind its point,
the nearest number to the text is that number.
-/

namespace LineMetrics
namespace Decimal

/-- A tenth of ten times a number is rounded as the number. -/
theorem nearest_mul_ten
    {coefficient : Nat}
    (finite : (mk coefficient 0).nearest < Binary64.infiniteMagnitude) :
    (mk (coefficient * 10) (-1)).nearest = (mk coefficient 0).nearest := by
  by_cases zero : coefficient = 0
  · rw [zero, Nat.zero_mul, nearest_zero, nearest_zero]
  · have whole := nearest_of_nonneg 0 zero
    have tenth := nearest_of_neg 0 (Nat.mul_ne_zero zero (show 10 ≠ 0 by decide))
    have scaled := Binary64.roundMagnitude_mul_right (coefficient * Binary64.unitsPerOne) 1
      (show 0 < 10 by decide)
    rw [Nat.mul_right_comm, Nat.one_mul] at scaled
    rw [if_neg (by omega), Nat.zero_add, Nat.pow_one, scaled] at tenth
    rw [Nat.pow_zero, Nat.mul_one] at whole
    refine tenth.trans (Eq.trans ?_ whole.symm)
    split at whole
    · exact absurd (whole ▸ finite) (Nat.lt_irrefl _)
    · rename_i moderate
      exact (if_neg moderate).symm

/-- The exponent behind a mark is read with its sign. -/
theorem readExponent?_written (exponent : Int) :
    readExponent? ('e' :: (if exponent < 0 then '-' else '+') ::
        Nat.toDigits 10 exponent.natAbs) =
      some exponent := by
  have areDigits := all_isDigit_toDigits exponent.natAbs
  have someDigits : Nat.toDigits 10 exponent.natAbs ≠ [] := Nat.toDigits_ne_nil
  rw [readExponent?, if_pos (.inl rfl)]
  by_cases negative : exponent < 0
  · rw [if_pos negative, splitSign]
    dsimp only
    rw [if_pos ⟨someDigits, areDigits⟩, if_pos rfl, digitsValue_toDigits,
      Int.ofNat_natAbs_of_nonpos (Int.le_of_lt negative), Int.neg_neg]
  · rw [if_neg negative, splitSign]
    dsimp only
    rw [if_pos ⟨someDigits, areDigits⟩, if_neg Bool.false_ne_true, digitsValue_toDigits,
      Int.natAbs_of_nonneg (Int.not_lt.mp negative)]

/-- Digits, what stands behind them up to an exponent, and the exponent are read as one number. -/
theorem read?_of_splitFraction
    {whole behind fraction power : List Char}
    {exponent : Int}
    (areWhole : whole.all Char.isDigit)
    (someWhole : whole ≠ [])
    (stops : ∀ first ∈ behind.head?, first.isDigit = false)
    (split : splitFraction behind = (fraction, power))
    (readPower : readExponent? power = some exponent) :
    read? (whole ++ behind) =
      some ⟨digitsValue (whole ++ fraction), exponent - fraction.length⟩ := by
  rw [read?, span_isDigit_append areWhole stops]
  dsimp only
  rw [split, if_neg fun none => someWhole none.1, readPower]
  rfl

variable {whole fraction others : List Char} {exponent : Int}

/-- Digits with an exponent behind them are the coefficient of that exponent. -/
theorem read?_wholeExponent
    (areWhole : whole.all Char.isDigit)
    (someWhole : whole ≠ [])
    (power : readExponent? ('e' :: others) = some exponent) :
    read? (whole ++ 'e' :: others) = some ⟨digitsValue whole, exponent⟩ := by
  have split : splitFraction ('e' :: others) = ([], 'e' :: others) := rfl
  rw [read?_of_splitFraction areWhole someWhole (by simp) split power, List.append_nil,
    List.length_nil, Int.natCast_zero, Int.sub_zero]

/-- Digits around a point lower the exponent behind them by the places behind the point. -/
theorem read?_pointExponent
    (areWhole : whole.all Char.isDigit)
    (areFraction : fraction.all Char.isDigit)
    (someWhole : whole ≠ [])
    (power : readExponent? ('e' :: others) = some exponent) :
    read? (whole ++ '.' :: (fraction ++ 'e' :: others)) =
      some ⟨digitsValue (whole ++ fraction), exponent - fraction.length⟩ := by
  have split : splitFraction ('.' :: (fraction ++ 'e' :: others)) = (fraction, 'e' :: others) :=
    span_isDigit_append areFraction (by simp)
  exact read?_of_splitFraction areWhole someWhole (by simp) split power

/-- A decimal is read from its text with an exponent. -/
theorem read?_scientificText (decimal : Decimal) :
    read? (Json.scientificText decimal) = some decimal := by
  obtain ⟨coefficient, exponent⟩ := decimal
  have areDigits : (Nat.toDigits 10 coefficient).all Char.isDigit = true :=
    all_isDigit_toDigits coefficient
  have value := digitsValue_toDigits coefficient
  have someDigits : 0 < (Nat.toDigits 10 coefficient).length := Nat.length_toDigits_pos
  unfold Json.scientificText digits
  dsimp only
  generalize Nat.toDigits 10 coefficient = digits at areDigits value someDigits
  have power := readExponent?_written (exponent + (digits.length - 1 : Nat))
  have pieces := List.take_append_drop 1 digits
  have areParts := areDigits
  rw [<- pieces, List.all_append, Bool.and_eq_true] at areParts
  have someWhole : digits.take 1 ≠ [] := by
    refine List.ne_nil_of_length_pos ?_
    rw [List.length_take]
    omega
  rw [List.append_assoc]
  by_cases short : digits.length ≤ 1
  · have single : digits.length - 1 = 0 := by omega
    rw [single, Int.natCast_zero, Int.add_zero] at power ⊢
    rw [if_pos short, List.nil_append, read?_wholeExponent areParts.1 someWhole power,
      List.take_of_length_le short, value]
  · rw [if_neg short]
    refine (read?_pointExponent areParts.1 areParts.2 someWhole power).trans ?_
    rw [pieces, value, List.length_drop, Int.add_sub_cancel]

/-- A whole number is rounded the same with a zero behind its point. -/
theorem read?_positional_point
    {coefficient power : Nat}
    (finite : (mk coefficient power).nearest < Binary64.infiniteMagnitude) :
    ∃ other, read? ((mk coefficient power).positional ++ ['.', '0']) = some other ∧
      other.nearest = (mk coefficient power).nearest := by
  have areDigits := all_isDigit_toDigits coefficient
  have value := digitsValue_toDigits coefficient
  have someDigits : Nat.toDigits 10 coefficient ≠ [] := Nat.toDigits_ne_nil
  have areWhole :
      (Nat.toDigits 10 coefficient ++ List.replicate power '0').all Char.isDigit = true := by
    rw [List.all_append, areDigits, all_isDigit_replicate]
    rfl
  have isZero : ['0'].all Char.isDigit = true := rfl
  have moved := nearest_mul_pow finite
  refine ⟨⟨coefficient * 10 ^ power * 10, -1⟩, ?_, ?_⟩
  · have shifted := digitsValue_append_zeros (Nat.toDigits 10 coefficient) (power + 1)
    rw [value, List.replicate_succ', <- List.append_assoc, Nat.pow_succ, <- Nat.mul_assoc]
      at shifted
    rw [<- shifted]
    exact read?_point areWhole isZero (List.append_ne_nil_of_left_ne_nil someDigits _)
  · rw [nearest_mul_ten (moved.trans_lt finite), moved]

/-- However it is written, a decimal is read as one that rounds to the same. -/
theorem read?_decimalText
    {decimal : Decimal}
    (finite : decimal.nearest < Binary64.infiniteMagnitude) :
    ∃ other, read? (Json.decimalText decimal) = some other ∧ other.nearest = decimal.nearest := by
  rw [Json.decimalText]
  split
  · split
    · rename_i whole
      obtain ⟨coefficient, exponent⟩ := decimal
      obtain ⟨power, rfl⟩ := Int.eq_ofNat_of_zero_le whole
      exact read?_positional_point finite
    · rw [List.append_nil]
      exact read?_positional finite
  · exact ⟨decimal, read?_scientificText decimal, rfl⟩

/-- The text of a decimal starts with a digit. -/
theorem exists_decimalText_eq (decimal : Decimal) :
    ∃ first rest, Json.decimalText decimal = first :: rest ∧ first.isDigit = true := by
  rw [Json.decimalText]
  split
  · obtain ⟨first, rest, isText, digit⟩ := exists_positional_eq decimal
    exact ⟨first, _, by rw [isText]; rfl, digit⟩
  · obtain ⟨first, rest, isDigits⟩ := List.exists_cons_of_ne_nil decimal.digits_ne_nil
    have areDigits := all_isDigit_toDigits decimal.coefficient
    rw [show Nat.toDigits 10 decimal.coefficient = first :: rest from isDigits, List.all_cons,
      Bool.and_eq_true] at areDigits
    rw [Json.scientificText, isDigits]
    exact ⟨first, _, rfl, areDigits.1⟩

end Decimal

namespace Binary64

/-- The number nearest to the text of a finite number is the number. -/
theorem read?_doubleText {number : Binary64} (finite : number.isFinite = true) :
    read? (Json.doubleText number) = some number := by
  have rounded := Decimal.nearest_shortest .toEvenDigit (of_decide_eq_true finite)
  obtain ⟨decimal, read, same⟩ :=
    Decimal.read?_decimalText (rounded.trans_lt (of_decide_eq_true finite))
  obtain ⟨first, rest, digits, digit⟩ :=
    Decimal.exists_decimalText_eq (Decimal.shortest .toEvenDigit number.magnitude)
  rw [Json.doubleText, if_pos finite, digits, read?_of_isDigit rest digit, <- digits, read,
    Option.map_some, same, rounded, ofMagnitude_magnitude]

end Binary64
end LineMetrics
