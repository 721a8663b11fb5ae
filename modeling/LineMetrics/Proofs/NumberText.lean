import LineMetrics.Binary64.Text
import LineMetrics.Proofs.Rounding
import Mathlib.Data.List.TakeDrop

/-!
# Numbers survive their text

The shortest decimal of a number rounds to the number, also where the search for it
fails and the value is written out in full. The positional text of a decimal is read as
a decimal that rounds to the same number, so the key of a number states that number.
-/

namespace LineMetrics

/-- Digits in front of something else are split off. -/
theorem span_isDigit_append
    {digits rest : List Char}
    (areDigits : digits.all Char.isDigit)
    (stops : ∀ first ∈ rest.head?, first.isDigit = false) :
    (digits ++ rest).span Char.isDigit = (digits, rest) := by
  have allDigits := List.all_eq_true.mp areDigits
  have noMore : rest.takeWhile Char.isDigit = [] ∧ rest.dropWhile Char.isDigit = rest := by
    cases rest with
    | nil => exact ⟨rfl, rfl⟩
    | cons first others => simp [stops first rfl]
  rw [List.span_eq_takeWhile_dropWhile, List.takeWhile_append_of_pos allDigits,
    List.dropWhile_append_of_pos allDigits, noMore.1, noMore.2, List.append_nil]

/-- Nothing is left behind digits alone. -/
theorem span_isDigit {digits : List Char} (areDigits : digits.all Char.isDigit) :
    digits.span Char.isDigit = (digits, []) := by
  have noMore : ∀ first ∈ ([] : List Char).head?, first.isDigit = false := by
    intro first member
    cases member
  have split := span_isDigit_append areDigits noMore
  rw [List.append_nil] at split
  exact split

theorem all_isDigit_replicate (count : Nat) :
    (List.replicate count '0').all Char.isDigit = true := by
  rw [List.all_eq_true]
  intro digit member
  rw [List.eq_of_mem_replicate member]
  rfl

/-- Zeros behind digits multiply by a power of ten. -/
theorem digitsValue_append_zeros (digits : List Char) (count : Nat) :
    digitsValue (digits ++ List.replicate count '0') = digitsValue digits * 10 ^ count := by
  rw [digitsValue, Nat.ofDigitChars_append, Nat.ofDigitChars_replicate_zero, Nat.mul_comm]
  rfl

/-- Zeros in front of digits do not change their value. -/
theorem digitsValue_zeros_append (count : Nat) (digits : List Char) :
    digitsValue (List.replicate count '0' ++ digits) = digitsValue digits := by
  rw [digitsValue, Nat.ofDigitChars_append, Nat.ofDigitChars_replicate_zero, Nat.mul_zero]
  rfl

namespace Decimal

/-- The nearest number to a whole multiple of a power of ten. -/
theorem nearest_of_nonneg
    {coefficient : Nat}
    (power : Nat)
    (nonzero : coefficient ≠ 0) :
    (mk coefficient power).nearest =
      if 1024 ≤ coefficient.log2 + 3 * power then Binary64.infiniteMagnitude
      else
        Binary64.roundMagnitude (coefficient * 10 ^ power * Binary64.unitsPerOne) 1 := by
  rw [nearest, if_neg nonzero]
  rfl

/-- The nearest number to a fraction with a power of ten below. -/
theorem nearest_of_neg
    {coefficient : Nat}
    (predecessor : Nat)
    (nonzero : coefficient ≠ 0) :
    (mk coefficient (.negSucc predecessor)).nearest =
      if coefficient.log2 + 1076 ≤ 3 * (predecessor + 1) then 0
      else
        Binary64.roundMagnitude (coefficient * Binary64.unitsPerOne)
          (10 ^ (predecessor + 1)) := by
  rw [nearest, if_neg nonzero]
  rfl

/-- A power of five has more than twice as many bits as its exponent says. -/
theorem le_log2_mul_pow_five
    {coefficient : Nat}
    (places : Nat)
    (nonzero : coefficient ≠ 0) :
    2 * places ≤ (coefficient * 5 ^ places).log2 := by
  have positive : 0 < 5 ^ places := Nat.pow_pos (by decide)
  rw [Nat.le_log2 (Nat.mul_ne_zero nonzero (Nat.ne_of_gt positive)), Nat.pow_mul]
  calc
    (2 ^ 2) ^ places ≤ 5 ^ places := Nat.pow_le_pow_left (by decide) places
    _ ≤ coefficient * 5 ^ places := Nat.le_mul_of_pos_left _ (Nat.pos_of_ne_zero nonzero)

/-- A number is written out in full with a decimal that rounds to it. -/
theorem nearest_exactly
    {magnitude : Nat}
    (nonzero : magnitude ≠ 0)
    (finite : magnitude < Binary64.infiniteMagnitude) :
    (exactly magnitude).nearest = magnitude := by
  have units := Binary64.unitsOf_ne_zero nonzero finite
  have bits := le_log2_mul_pow_five 1074 units
  have inFull (places : Nat) :
      Binary64.roundMagnitude
          (Binary64.unitsOf magnitude * 5 ^ places * 2 ^ places) (10 ^ places) =
        magnitude := by
    rw [Nat.mul_assoc, <- Nat.mul_pow]
    exact Binary64.roundMagnitude_unitsOf finite (Nat.pow_pos (by decide))
  have coefficient (places : Nat) : Binary64.unitsOf magnitude * 5 ^ places ≠ 0 :=
    Nat.mul_ne_zero units (Nat.ne_of_gt (Nat.pow_pos (by decide)))
  apply (nearest_of_neg 1073 (coefficient 1074)).trans
  rw [if_neg (by omega), Binary64.unitsPerOne_eq]
  exact inFull 1074

/-- The shortest decimal of a finite number rounds to it. -/
theorem nearest_shortest
    {magnitude : Nat}
    (halfway : Halfway)
    (finite : magnitude < Binary64.infiniteMagnitude) :
    (shortest halfway magnitude).nearest = magnitude := by
  unfold shortest
  by_cases zero : magnitude = 0
  · rw [if_pos zero, zero]
    rfl
  · rw [if_neg zero]
    cases found : searchFrom halfway magnitude (coarsestExponent magnitude) 24 with
    | none =>
        rw [Option.getD_none]
        exact nearest_exactly zero finite
    | some decimal =>
        rw [Option.getD_some]
        exact nearest_of_searchFrom 24 _ found

/-- A power of ten may be moved into the coefficient. -/
theorem nearest_mul_pow
    {coefficient power : Nat}
    (finite : (mk coefficient power).nearest < Binary64.infiniteMagnitude) :
    (mk (coefficient * 10 ^ power) 0).nearest = (mk coefficient power).nearest := by
  by_cases zero : coefficient = 0
  · rw [zero, Nat.zero_mul, nearest_zero, nearest_zero]
  · have nonzero : coefficient * 10 ^ power ≠ 0 :=
      Nat.mul_ne_zero zero (Nat.ne_of_gt (Nat.pow_pos (by decide)))
    rw [nearest_of_nonneg power zero] at finite ⊢
    split at finite
    · exact absurd finite (Nat.lt_irrefl _)
    · rename_i moderate
      rw [if_neg moderate]
      apply (nearest_of_nonneg 0 nonzero).trans
      split
      · rename_i large
        have infinite : 2 ^ ((coefficient * 10 ^ power).log2 + 1074) ≤
            coefficient * 10 ^ power * Binary64.unitsPerOne := by
          rw [Nat.pow_add, Binary64.unitsPerOne_eq]
          exact Nat.mul_le_mul_right _ (Nat.log2_self_le nonzero)
        rw [Binary64.roundMagnitude_of_le (by omega) infinite]
      · rw [Nat.pow_zero, Nat.mul_one]

/-- Digits alone are read as a whole number. -/
theorem read?_digits
    {digits : List Char}
    (areDigits : digits.all Char.isDigit)
    (someDigits : digits ≠ []) :
    read? digits = some ⟨digitsValue digits, 0⟩ := by
  rw [read?, span_isDigit areDigits]
  dsimp only [splitFraction]
  rw [if_neg fun none => someDigits none.1, List.append_nil]
  rfl

/-- Digits around a point are read as the value of all of them, with the places behind
the point. -/
theorem read?_point
    {whole fraction : List Char}
    (areWhole : whole.all Char.isDigit)
    (areFraction : fraction.all Char.isDigit)
    (someWhole : whole ≠ []) :
    read? (whole ++ '.' :: fraction) =
      some ⟨digitsValue (whole ++ fraction), -fraction.length⟩ := by
  have splitWhole : (whole ++ '.' :: fraction).span Char.isDigit = (whole, '.' :: fraction) :=
    span_isDigit_append areWhole (by simp)
  have splitRest : splitFraction ('.' :: fraction) = (fraction, []) := span_isDigit areFraction
  rw [read?, splitWhole]
  dsimp only
  rw [splitRest, if_neg fun none => someWhole none.1]
  simp [readExponent?]

/-- The positional text of a decimal is read as a decimal that rounds to the same. -/
theorem read?_positional
    {decimal : Decimal}
    (finite : decimal.nearest < Binary64.infiniteMagnitude) :
    ∃ other, read? decimal.positional = some other ∧ other.nearest = decimal.nearest := by
  obtain ⟨coefficient, exponent⟩ := decimal
  have areDigits := all_isDigit_toDigits coefficient
  have value := digitsValue_toDigits coefficient
  have someDigits : Nat.toDigits 10 coefficient ≠ [] := Nat.toDigits_ne_nil
  unfold positional digits
  generalize Nat.toDigits 10 coefficient = digits at areDigits value someDigits
  dsimp only
  cases exponent with
  | ofNat power =>
      refine ⟨⟨coefficient * 10 ^ power, 0⟩, ?_, nearest_mul_pow finite⟩
      have allDigits : (digits ++ List.replicate power '0').all Char.isDigit := by
        rw [List.all_append, areDigits, all_isDigit_replicate]
        rfl
      rw [read?_digits allDigits (by simp [someDigits]), digitsValue_append_zeros, value]
  | negSucc predecessor =>
      refine ⟨⟨coefficient, .negSucc predecessor⟩, ?_, rfl⟩
      dsimp only
      split
      · rename_i inside
        have places :
            (digits.drop (digits.length - (predecessor + 1))).length = predecessor + 1 := by
          rw [List.length_drop]
          omega
        have someWhole : digits.take (digits.length - (predecessor + 1)) ≠ [] := by
          intro none
          have length := congrArg List.length none
          rw [List.length_take, List.length_nil] at length
          omega
        have pieces := List.take_append_drop (digits.length - (predecessor + 1)) digits
        have areParts := areDigits
        rw [<- pieces, List.all_append, Bool.and_eq_true] at areParts
        rw [read?_point areParts.1 areParts.2 someWhole, pieces, value, places]
        rfl
      · rename_i outside
        have places :
            (List.replicate (predecessor + 1 - digits.length) '0' ++ digits).length =
              predecessor + 1 := by
          rw [List.length_append, List.length_replicate]
          omega
        have areFraction :
            (List.replicate (predecessor + 1 - digits.length) '0' ++ digits).all
              Char.isDigit := by
          rw [List.all_append, areDigits, all_isDigit_replicate]
          rfl
        have isZero : ['0'].all Char.isDigit := rfl
        have zeros :
            digitsValue
                (['0'] ++ (List.replicate (predecessor + 1 - digits.length) '0' ++ digits)) =
              digitsValue digits :=
          digitsValue_zeros_append (predecessor + 1 - digits.length + 1) digits
        have read := read?_point isZero areFraction (List.cons_ne_nil _ _)
        rw [places, zeros, value] at read
        exact read

/-- Positional texts start with a digit. -/
theorem exists_positional_eq (decimal : Decimal) :
    ∃ first rest, decimal.positional = first :: rest ∧ first.isDigit = true := by
  have areDigits := all_isDigit_toDigits decimal.coefficient
  have someDigits : Nat.toDigits 10 decimal.coefficient ≠ [] := Nat.toDigits_ne_nil
  unfold positional digits
  generalize Nat.toDigits 10 decimal.coefficient = digits at areDigits someDigits
  cases digits with
  | nil => exact absurd rfl someDigits
  | cons first rest =>
      rw [List.all_cons, Bool.and_eq_true] at areDigits
      cases decimal.exponent with
      | ofNat power => exact ⟨first, _, rfl, areDigits.1⟩
      | negSucc predecessor =>
          dsimp only
          split
          · rename_i inside
            obtain ⟨kept, length⟩ :=
              Nat.exists_eq_add_of_lt inside
            refine ⟨first, rest.take kept ++ '.' :: rest.drop kept, ?_, areDigits.1⟩
            rw [length, show predecessor + 1 + kept + 1 - (predecessor + 1) = kept + 1 by omega]
            rfl
          · exact ⟨'0', _, rfl, rfl⟩

end Decimal

namespace Binary64

/-- No word for infinity starts with a digit. -/
theorem toLower_ne_of_isDigit {first : Char} (digit : first.isDigit = true) :
    first.toLower ≠ 'i' := by
  simp only [Char.isDigit, Bool.and_eq_true, decide_eq_true_eq] at digit
  unfold Char.toLower
  split
  · rename_i upper
    exact absurd (UInt32.le_trans upper.1 digit.2) (by decide)
  · rintro rfl
    exact absurd digit.2 (by decide)

/-- A text that starts with a digit has no sign and is no word for infinity. -/
theorem read?_of_isDigit
    {first : Char}
    (rest : List Char)
    (digit : first.isDigit = true)
    (negative : Bool) :
    read? ((if negative then ['-'] else []) ++ first :: rest) =
      (Decimal.read? (first :: rest)).map fun decimal =>
        ofMagnitude negative decimal.nearest := by
  have sign :
      splitSign ((if negative then ['-'] else []) ++ first :: rest) =
        (negative, first :: rest) := by
    cases negative with
    | true => rfl
    | false =>
        rw [if_neg Bool.false_ne_true, List.nil_append]
        unfold splitSign
        split
        · rename_i same
          cases same
          cases digit
        · rename_i same
          cases same
          cases digit
        · rfl
  have noWord : String.ofList ((first :: rest).map Char.toLower) ∉ infinityWords := by
    intro word
    have initial : ∀ word ∈ infinityWords, word.toList.head? = some 'i' := by decide
    have same := initial _ word
    rw [String.toList_ofList, List.map_cons, List.head?_cons] at same
    exact toLower_ne_of_isDigit digit (Option.some.inj same)
  rw [read?, sign]
  dsimp only
  rw [if_neg noWord]

/-- The key of a number states the number. -/
theorem ofKey?_keyText {number : Binary64} (isNumber : number.isNaN = false) :
    ofKey? number.keyText = some number := by
  unfold keyText
  cases infinite : number.isInfinite with
  | true =>
      have magnitude : number.magnitude = infiniteMagnitude := eq_of_beq infinite
      rw [if_pos rfl, <- ofMagnitude_magnitude number, magnitude,
        isNegative_ofMagnitude _ (by decide)]
      cases number.isNegative <;> decide
  | false =>
      have finite : number.magnitude < infiniteMagnitude := by
        simp only [isNaN, isInfinite, decide_eq_false_iff_not, beq_eq_false_iff_ne] at *
        omega
      have rounded := Decimal.nearest_shortest .awayFromZero finite
      obtain ⟨decimal, read, same⟩ := Decimal.read?_positional (rounded ▸ finite)
      obtain ⟨first, rest, digits, digit⟩ :=
        Decimal.exists_positional_eq (Decimal.shortest .awayFromZero number.magnitude)
      rw [if_neg Bool.false_ne_true, plainText, isNumber, infinite,
        if_neg Bool.false_ne_true, if_neg Bool.false_ne_true, ofKey?, String.toList_ofList,
        signText, plainDigits, digits, read?_of_isDigit rest digit, <- digits, read,
        Option.map_some, same, rounded, ofMagnitude_magnitude]

/-- A key states the finite number that it was written for. -/
theorem ofFiniteKey?_keyText {number : Binary64} (finite : number.isFinite = true) :
    ofFiniteKey? number.keyText = some number := by
  rw [ofFiniteKey?, ofKey?_keyText (isNaN_of_isFinite finite), Option.filter_some,
    if_pos finite]

/-- All that are no number have the word for NaN as their key. -/
theorem keyText_of_isNaN {number : Binary64} (isNaN : number.isNaN = true) :
    number.keyText = "NaN" := by
  have notInfinite : number.isInfinite = false := by
    simp only [Binary64.isNaN, isInfinite, decide_eq_true_eq, beq_eq_false_iff_ne] at *
    omega
  rw [keyText, notInfinite, if_neg Bool.false_ne_true, plainText, if_pos isNaN]

/-- No number has the key, if it states none and is not the word for NaN. -/
theorem keyText_ne
    {key : String}
    (number : Binary64)
    (noNumber : ofKey? key = none)
    (noWord : key ≠ "NaN") :
    number.keyText ≠ key := by
  intro same
  cases isNaN : number.isNaN with
  | false =>
      rw [<- same, ofKey?_keyText isNaN] at noNumber
      cases noNumber
  | true => exact noWord (same.symm.trans (keyText_of_isNaN isNaN))

/-- Only one number has the key of a number. -/
theorem eq_of_keyText_eq
    {left right : Binary64}
    (isNumber : left.isNaN = false)
    (same : left.keyText = right.keyText) :
    left = right := by
  have read := ofKey?_keyText isNumber
  cases isNaN : right.isNaN with
  | false =>
      rw [same, ofKey?_keyText isNaN] at read
      exact (Option.some.inj read).symm
  | true =>
      have noNumber : ofKey? "NaN" = none := by decide
      rw [same, keyText_of_isNaN isNaN, noNumber] at read
      cases read

end Binary64
end LineMetrics
