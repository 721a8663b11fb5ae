import LineMetrics.Rereading
import LineMetrics.Proofs.FiniteNumbers
import LineMetrics.Proofs.ReadSymbols
import LineMetrics.Proofs.ShortDecimals

/-!
# Finite numbers are read again

The text of a finite number is read as a number, with the digits of the shortest decimal as
the significand. They fit, since the shortest decimal is short.
-/

namespace LineMetrics
namespace Json

/-! ## Significands -/

namespace Significand

/-- More digits make no less of a number. -/
theorem le_ofDigitChars (digits : List Char) (value : Nat) :
    value ≤ Nat.ofDigitChars 10 digits value := by
  induction digits generalizing value with
  | nil => exact Nat.le_refl _
  | cons digit digits inductionHypothesis =>
      rw [Nat.ofDigitChars_cons]
      exact le_trans (by omega) (inductionHypothesis _)

/-- Digits in front of the point are all taken if they fit. -/
theorem takeWhole_of_le
    {digits : List Char}
    (value : Nat)
    (exponent : Int)
    (fits : Nat.ofDigitChars 10 digits value ≤ greatest) :
    takeWhole ⟨value, exponent⟩ digits = ⟨Nat.ofDigitChars 10 digits value, exponent⟩ := by
  induction digits generalizing value with
  | nil => rfl
  | cons digit digits inductionHypothesis =>
      rw [Nat.ofDigitChars_cons, Nat.mul_comm] at fits ⊢
      rw [takeWhole]
      dsimp only
      rw [if_pos ((le_ofDigitChars _ _).trans fits)]
      exact inductionHypothesis _ fits

/-- Digits behind the point are all taken if they fit. -/
theorem takeFraction_of_le
    {digits : List Char}
    (value : Nat)
    (exponent : Int)
    (fits : Nat.ofDigitChars 10 digits value ≤ greatest) :
    takeFraction ⟨value, exponent⟩ digits =
      ⟨Nat.ofDigitChars 10 digits value, exponent - digits.length⟩ := by
  induction digits generalizing value exponent with
  | nil =>
      rw [takeFraction, List.length_nil, Int.ofNat_zero, Int.sub_zero]
      rfl
  | cons digit digits inductionHypothesis =>
      rw [Nat.ofDigitChars_cons, Nat.mul_comm] at fits ⊢
      rw [takeFraction]
      dsimp only
      rw [if_pos ((le_ofDigitChars _ _).trans fits), inductionHypothesis _ _ fits,
        List.length_cons]
      congr 1
      omega

end Significand

/-- The value of a number with a fraction or an exponent, given its significand. -/
def ofSignificand (negative : Bool) (significand : Significand) : Json :=
  match significand.magnitude? with
  | some magnitude => .double (.ofMagnitude negative magnitude)
  | none => .unreadable

/-- All digits of a number with a fraction or an exponent are its significand if they fit. -/
theorem ofNumberParts_of_le
    {whole : List Char}
    {fraction : Option (List Char)}
    {exponent : Option Int}
    (negative : Bool)
    (fits : digitsValue (whole ++ fraction.getD []) ≤ Significand.greatest)
    (inexact : fraction ≠ none ∨ exponent ≠ none) :
    ofNumberParts negative whole fraction exponent =
      ofSignificand negative
        ⟨digitsValue (whole ++ fraction.getD []),
          exponent.getD 0 - (fraction.getD []).length⟩ := by
  rw [digitsValue, Nat.ofDigitChars_append] at fits ⊢
  have wholeFits := (Significand.le_ofDigitChars (fraction.getD []) _).trans fits
  have exponents : 0 - ((fraction.getD []).length : Int) + exponent.getD 0 =
      exponent.getD 0 - (fraction.getD []).length := by omega
  unfold ofNumberParts
  rw [Significand.takeWhole_of_le 0 0 wholeFits, Significand.takeFraction_of_le _ 0 fits]
  dsimp only
  rw [exponents]
  cases fraction with
  | some digits => rfl
  | none =>
      cases exponent with
      | some exponent => rfl
      | none => exact (inexact.elim (· rfl) (· rfl)).elim

/-! ## Texts of numbers -/

/-- The parts of a number are read from their texts. -/
theorem readUnsigned?_parts
    {whole : List Char}
    {fraction : Option (List Char)}
    {exponent : Option Int}
    {power : List Text.Symbol}
    (negative : Bool)
    (areWhole : whole.all Char.isDigit)
    (someWhole : whole ≠ [])
    (leading : whole.length = 1 ∨ whole.head? ≠ some '0')
    (areFraction : ∀ digits, fraction = some digits ->
      digits ≠ [] ∧ digits.all Char.isDigit)
    (ends : EndsDigits power)
    (unpointed : ∀ behind, power ≠ some '.' :: behind)
    (readPower : readExponent? power = some (exponent, [])) :
    readUnsigned? negative (whole.map some ++ (fractionSymbols fraction ++ power)) =
      some (ofNumberParts negative whole fraction exponent, []) := by
  have readFraction : readFraction? (fractionSymbols fraction ++ power) =
      some (fraction, power) := by
    cases fraction with
    | none =>
        rw [fractionSymbols, List.nil_append, readFraction?]
        exact unpointed
    | some digits =>
        obtain ⟨someDigit, areDigits⟩ := areFraction digits rfl
        rw [fractionSymbols, List.cons_append, readFraction?,
          readDigits_digits (List.all_eq_true.mp areDigits) ends]
        exact if_neg someDigit
  rw [readUnsigned?, readDigits_digits (List.all_eq_true.mp areWhole)
    (endsDigits_fractionSymbols fraction ends)]
  dsimp only
  rw [if_neg, readFraction]
  · change (readExponent? power).bind _ = _
    rw [readPower]
    rfl
  · rintro (none | ⟨long, zero⟩)
    · exact someWhole none
    · rcases leading with single | nonzero
      · omega
      · exact nonzero zero

/-- Digits on both sides of a point are read as their significand. -/
theorem readUnsigned?_point
    {whole fraction : List Char}
    (negative : Bool)
    (areWhole : whole.all Char.isDigit)
    (someWhole : whole ≠ [])
    (leading : whole.length = 1 ∨ whole.head? ≠ some '0')
    (areFraction : fraction.all Char.isDigit)
    (someFraction : fraction ≠ [])
    (fits : digitsValue (whole ++ fraction) ≤ Significand.greatest) :
    readUnsigned? negative ((whole ++ '.' :: fraction).map some) =
      some (ofSignificand negative ⟨digitsValue (whole ++ fraction), -fraction.length⟩, []) := by
  have fractionDigits : ∀ digits, some fraction = some digits ->
      digits ≠ [] ∧ digits.all Char.isDigit = true := by
    rintro digits made
    cases made
    exact ⟨someFraction, areFraction⟩
  have nothing : EndsDigits [] := trivial
  have noExponent : readExponent? [] = some (none, []) := rfl
  have read := readUnsigned?_parts negative areWhole someWhole leading fractionDigits nothing
    (by rintro behind same; cases same) noExponent
  rw [ofNumberParts_of_le negative fits (.inl (Option.some_ne_none _)), List.append_nil] at read
  rw [List.map_append]
  rw [Option.getD_some, Option.getD_none, Int.zero_sub] at read
  exact read

/-- The exponent that is written with its sign is read. -/
theorem readExponent?_written (exponent : Int) :
    readExponent? (some 'e' :: some (if exponent < 0 then '-' else '+') ::
        (Nat.toDigits 10 exponent.natAbs).map some) =
      some (some exponent, []) := by
  have areDigits := List.all_eq_true.mp (all_isDigit_toDigits exponent.natAbs)
  have readDigits : readDigits ((Nat.toDigits 10 exponent.natAbs).map some) =
      (Nat.toDigits 10 exponent.natAbs, []) :=
    readDigits_map (all_isDigit_toDigits _)
  rw [readExponent?, if_pos (.inl rfl)]
  by_cases negative : exponent < 0
  · rw [if_pos negative, readSign]
    dsimp only
    rw [readDigits]
    dsimp only
    rw [if_neg Nat.toDigits_ne_nil, if_pos rfl, digitsValue_toDigits,
      Int.ofNat_natAbs_of_nonpos (Int.le_of_lt negative), Int.neg_neg]
  · rw [if_neg negative, readSign]
    dsimp only
    rw [readDigits]
    dsimp only
    rw [if_neg Nat.toDigits_ne_nil, if_neg Bool.false_ne_true, digitsValue_toDigits,
      Int.natAbs_of_nonneg (Int.not_lt.mp negative)]

/-! ## Texts of decimals -/

section Texts

variable {decimal : Decimal}

/-- The digits of a decimal do not start with a zero in front of other digits. -/
theorem leading_digits (decimal : Decimal) :
    decimal.digits.length = 1 ∨ decimal.digits.head? ≠ some '0' := by
  by_cases zero : decimal.coefficient = 0
  · left
    rw [Decimal.digits, zero]
    rfl
  · exact .inr (head?_toDigits_ne zero)

/-- A coefficient is less than the power of ten with as many zeros as it has digits. -/
theorem coefficient_lt (decimal : Decimal) :
    decimal.coefficient < 10 ^ decimal.digits.length :=
  (Nat.length_toDigits_le_iff (by decide) Nat.length_toDigits_pos).mp (Nat.le_refl _)

/-- The digits that a short decimal is written with fit in the significand. -/
theorem digits_writtenSignificand_le (short : decimal.coefficient ≤ 10 ^ 18) :
    decimal.writtenSignificand.digits ≤ Significand.greatest := by
  rw [Decimal.writtenSignificand]
  cases whole : decimal.isWrittenWhole with
  | false => exact short.trans (by decide)
  | true =>
      rw [Decimal.isWrittenWhole, decide_eq_true_iff] at whole
      have within := Nat.mul_lt_mul_of_pos_right (coefficient_lt decimal)
        (Nat.pow_pos (n := decimal.exponent.toNat + 1) (show 0 < 10 by decide))
      have most : 10 ^ (decimal.digits.length + (decimal.exponent.toNat + 1)) ≤ 10 ^ 17 :=
        Nat.pow_le_pow_right (by decide) (by omega)
      rw [<- Nat.pow_add] at within
      exact (Nat.le_of_lt (within.trans_le most)).trans (by decide)

/-- A whole number that is not too long is read with the zero behind its point. -/
theorem readUnsigned?_whole
    (negative : Bool)
    (short : decimal.coefficient ≤ 10 ^ 18)
    (zero : decimal.coefficient = 0 -> decimal.exponent = 0)
    (whole : decimal.isWrittenWhole = true) :
    readUnsigned? negative ((decimal.positional ++ ['.', '0']).map some) =
      some (ofSignificand negative decimal.writtenSignificand, []) := by
  have fits := digits_writtenSignificand_le short
  rw [Decimal.writtenSignificand, if_pos whole] at fits ⊢
  rw [Decimal.isWrittenWhole, decide_eq_true_iff] at whole
  obtain ⟨coefficient, exponent⟩ := decimal
  obtain ⟨power, rfl⟩ := Int.eq_ofNat_of_zero_le whole.1
  dsimp only [Int.toNat_natCast] at zero fits ⊢
  have areDigits := all_isDigit_toDigits coefficient
  have someDigits : Nat.toDigits 10 coefficient ≠ [] := Nat.toDigits_ne_nil
  have value := digitsValue_append_zeros (Nat.toDigits 10 coefficient) (power + 1)
  rw [digitsValue_toDigits, List.replicate_succ', <- List.append_assoc] at value
  have areWhole :
      (Nat.toDigits 10 coefficient ++ List.replicate power '0').all Char.isDigit = true := by
    rw [List.all_append, areDigits, all_isDigit_replicate]
    rfl
  have leading : (Nat.toDigits 10 coefficient ++ List.replicate power '0').length = 1 ∨
      (Nat.toDigits 10 coefficient ++ List.replicate power '0').head? ≠ some '0' := by
    by_cases isZero : coefficient = 0
    · left
      obtain rfl : power = 0 := Int.ofNat_eq_zero.mp (zero isZero)
      rw [isZero]
      rfl
    · right
      rw [List.head?_append_of_ne_nil _ someDigits]
      exact head?_toDigits_ne isZero
  have isZero : ['0'].all Char.isDigit = true := rfl
  have read := readUnsigned?_point negative areWhole (by simp [someDigits]) leading isZero
    (List.cons_ne_nil _ _) (value ▸ fits)
  rw [value] at read
  rw [Decimal.positional, Decimal.digits]
  exact read

/-- Digits with a point inside of them are read as their significand. -/
theorem readUnsigned?_point_inside
    {digits : List Char}
    {places : Nat}
    (negative : Bool)
    (areDigits : digits.all Char.isDigit)
    (leading : digits.length = 1 ∨ digits.head? ≠ some '0')
    (inside : 0 < places ∧ places < digits.length)
    (fits : digitsValue digits ≤ Significand.greatest) :
    readUnsigned? negative
        ((digits.take (digits.length - places) ++
          '.' :: digits.drop (digits.length - places)).map some) =
      some (ofSignificand negative ⟨digitsValue digits, -places⟩, []) := by
  have someWhole : digits.take (digits.length - places) ≠ [] := by
    refine List.ne_nil_of_length_pos ?_
    rw [List.length_take]
    omega
  have isLength : (digits.drop (digits.length - places)).length = places := by
    rw [List.length_drop]
    omega
  have someFraction : digits.drop (digits.length - places) ≠ [] := by
    refine List.ne_nil_of_length_pos ?_
    omega
  have pieces := List.take_append_drop (digits.length - places) digits
  have first := leading.resolve_left (by omega)
  rw [<- pieces, List.head?_append_of_ne_nil _ someWhole] at first
  rw [<- pieces, List.all_append, Bool.and_eq_true] at areDigits
  rw [readUnsigned?_point negative areDigits.1 someWhole (.inr first) areDigits.2 someFraction
    (by rw [pieces]; exact fits), pieces, isLength]

/-- Digits behind a point and zeros are read as their significand. -/
theorem readUnsigned?_point_in_front
    {digits : List Char}
    {places : Nat}
    (negative : Bool)
    (areDigits : digits.all Char.isDigit)
    (someDigits : digits ≠ [])
    (outside : digits.length ≤ places)
    (fits : digitsValue digits ≤ Significand.greatest) :
    readUnsigned? negative
        (('0' :: '.' :: (List.replicate (places - digits.length) '0' ++ digits)).map some) =
      some (ofSignificand negative ⟨digitsValue digits, -places⟩, []) := by
  have isLength : (List.replicate (places - digits.length) '0' ++ digits).length = places := by
    rw [List.length_append, List.length_replicate]
    omega
  have areFraction :
      (List.replicate (places - digits.length) '0' ++ digits).all Char.isDigit := by
    rw [List.all_append, areDigits, all_isDigit_replicate]
    rfl
  have value : digitsValue (['0'] ++ (List.replicate (places - digits.length) '0' ++ digits)) =
      digitsValue digits := digitsValue_zeros_append (places - digits.length + 1) digits
  have isZero : ['0'].all Char.isDigit = true := rfl
  have read := readUnsigned?_point negative isZero (List.cons_ne_nil _ _) (.inl rfl) areFraction
    (by simp [someDigits]) (by rw [value]; exact fits)
  rw [value, isLength] at read
  exact read

/-- A number with digits behind the point is read from its positional text. -/
theorem readUnsigned?_positional
    {predecessor : Nat}
    (negative : Bool)
    (short : decimal.coefficient ≤ 10 ^ 18)
    (fraction : decimal.exponent = .negSucc predecessor) :
    readUnsigned? negative (decimal.positional.map some) =
      some (ofSignificand negative ⟨decimal.coefficient, decimal.exponent⟩, []) := by
  obtain ⟨coefficient, exponent⟩ := decimal
  cases fraction
  have leading := leading_digits ⟨coefficient, .negSucc predecessor⟩
  have areDigits := all_isDigit_toDigits coefficient
  have value := digitsValue_toDigits coefficient
  have someDigits : Nat.toDigits 10 coefficient ≠ [] := Nat.toDigits_ne_nil
  have fits : digitsValue (Nat.toDigits 10 coefficient) ≤ Significand.greatest :=
    value.trans_le (short.trans (by decide))
  unfold Decimal.positional
  unfold Decimal.digits at leading ⊢
  generalize Nat.toDigits 10 coefficient = digits at leading areDigits value someDigits fits
  dsimp only
  rw [<- value]
  split
  · rename_i inside
    exact readUnsigned?_point_inside negative areDigits leading
      ⟨Nat.succ_pos predecessor, inside⟩ fits
  · rename_i outside
    exact readUnsigned?_point_in_front negative areDigits someDigits (Nat.not_lt.mp outside) fits

/-- A number with an exponent is read from its text. -/
theorem readUnsigned?_scientific
    (negative : Bool)
    (short : decimal.coefficient ≤ 10 ^ 18) :
    readUnsigned? negative ((scientificText decimal).map some) =
      some (ofSignificand negative ⟨decimal.coefficient, decimal.exponent⟩, []) := by
  have fits : decimal.coefficient ≤ Significand.greatest := short.trans (by decide)
  have someDigits : 0 < decimal.digits.length := Nat.length_toDigits_pos
  have areDigits : decimal.digits.all Char.isDigit = true := all_isDigit_toDigits _
  have value : digitsValue decimal.digits = decimal.coefficient := digitsValue_toDigits _
  have pieces := List.take_append_drop 1 decimal.digits
  have areParts := areDigits
  rw [<- pieces, List.all_append, Bool.and_eq_true] at areParts
  have first : (decimal.digits.take 1).length = 1 := by
    rw [List.length_take]
    omega
  have others : (decimal.digits.drop 1).length = decimal.digits.length - 1 := List.length_drop
  unfold scientificText
  generalize decimal.digits = digits at someDigits value pieces areParts first others
  have fraction :
      (if digits.length ≤ 1 then none else some (digits.drop 1)).getD [] = digits.drop 1 := by
    split
    · exact (List.eq_nil_of_length_eq_zero (by omega)).symm
    · rfl
  have texts : (if digits.length ≤ 1 then [] else '.' :: digits.drop 1).map some =
      fractionSymbols (if digits.length ≤ 1 then none else some (digits.drop 1)) := by
    split <;> rfl
  have areFraction : ∀ behind, (if digits.length ≤ 1 then none else some (digits.drop 1)) =
      some behind -> behind ≠ [] ∧ behind.all Char.isDigit = true := by
    intro behind made
    split at made
    · cases made
    · cases made
      refine ⟨fun none => ?_, areParts.2⟩
      rw [none, List.length_nil] at others
      omega
  generalize (if digits.length ≤ 1 then none else some (digits.drop 1)) = behind
    at fraction texts areFraction
  have read := readUnsigned?_parts negative areParts.1 (fun none => by simp [none] at first)
    (.inl first) areFraction (by exact rfl) (by rintro behind same; cases same)
    (readExponent?_written (decimal.exponent + (digits.length - 1 : Nat)))
  rw [ofNumberParts_of_le negative (by rw [fraction, pieces, value]; exact fits)
    (.inr (Option.some_ne_none _)), fraction, pieces, value, others, Option.getD_some,
    Int.add_sub_cancel] at read
  rw [List.map_append, List.map_append, texts, List.append_assoc]
  exact read

/-- The text of a short decimal is read as its significand. -/
theorem readUnsigned?_decimalText
    (negative : Bool)
    (short : decimal.coefficient ≤ 10 ^ 18)
    (zero : decimal.coefficient = 0 -> decimal.exponent = 0) :
    readUnsigned? negative ((decimalText decimal).map some) =
      some (ofSignificand negative decimal.writtenSignificand, []) := by
  rw [decimalText]
  cases whole : decimal.isWrittenWhole with
  | true =>
      have parts := whole
      rw [Decimal.isWrittenWhole, decide_eq_true_iff] at parts
      have read := readUnsigned?_whole negative short zero whole
      have someDigits : 0 < decimal.digits.length := Nat.length_toDigits_pos
      rw [if_pos ⟨by omega, parts.2⟩, if_pos parts.1]
      exact read
  | false =>
      rw [Decimal.writtenSignificand, if_neg (ne_true_of_eq_false whole)]
      rw [Decimal.isWrittenWhole, decide_eq_false_iff_not] at whole
      split
      · rename_i near
        have below : ¬0 ≤ decimal.exponent := fun nonneg => whole ⟨nonneg, near.2⟩
        obtain ⟨predecessor, fraction⟩ := Int.eq_negSucc_of_lt_zero (Int.not_le.mp below)
        rw [if_neg below, List.append_nil]
        exact readUnsigned?_positional negative short fraction
      · exact readUnsigned?_scientific negative short

end Texts

end Json
end LineMetrics
