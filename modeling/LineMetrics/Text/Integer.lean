/-!
# Whole numbers in text

A whole number is written with decimal digits, behind a minus sign if it is negative.
A plus sign and zeros in front of the digits are read as well.
-/

namespace LineMetrics

/-- The value of a run of decimal digits. -/
def digitsValue (digits : List Char) : Nat := Nat.ofDigitChars 10 digits 0

/-- Whether a text starts with a minus sign, and the text behind its sign. -/
def splitSign : List Char -> Bool × List Char
  | '-' :: rest => (true, rest)
  | '+' :: rest => (false, rest)
  | rest => (false, rest)

/-- The text of a whole number. -/
def integerText (value : Int) : List Char :=
  (if value < 0 then ['-'] else []) ++ Nat.toDigits 10 value.natAbs

/-- Read a whole number. -/
def readInteger? (text : List Char) : Option Int :=
  let (negative, digits) := splitSign text
  if digits ≠ [] ∧ digits.all Char.isDigit then
    some (if negative then -digitsValue digits else digitsValue digits)
  else none

@[simp] theorem digitsValue_toDigits (value : Nat) :
    digitsValue (Nat.toDigits 10 value) = value :=
  Nat.ofDigitChars_toDigits (by decide) (by decide)

/-- Written digits are decimal digits. -/
theorem all_isDigit_toDigits (value : Nat) :
    (Nat.toDigits 10 value).all Char.isDigit = true :=
  List.all_eq_true.mpr fun _ member =>
    Nat.isDigit_of_mem_toDigits (by decide) (by decide) member

/-- Digits have no sign in front of them. -/
theorem splitSign_of_all_isDigit {digits : List Char} (areDigits : digits.all Char.isDigit) :
    splitSign digits = (false, digits) := by
  unfold splitSign
  split
  · simp at areDigits
  · simp at areDigits
  · rfl

/-- What is written is read back. -/
@[simp] theorem readInteger?_integerText (value : Int) :
    readInteger? (integerText value) = some value := by
  have areDigits := all_isDigit_toDigits value.natAbs
  have someDigits : Nat.toDigits 10 value.natAbs ≠ [] := Nat.toDigits_ne_nil
  by_cases negative : value < 0
  · have split : splitSign (integerText value) = (true, Nat.toDigits 10 value.natAbs) := by
      simp only [integerText, if_pos negative, List.singleton_append, splitSign]
    simp only [readInteger?, split, if_pos (And.intro someDigits areDigits), if_true,
      digitsValue_toDigits, Int.ofNat_natAbs_of_nonpos (Int.le_of_lt negative), Int.neg_neg]
  · have split : splitSign (integerText value) = (false, Nat.toDigits 10 value.natAbs) := by
      simp only [integerText, if_neg negative, List.nil_append,
        splitSign_of_all_isDigit areDigits]
    simp only [readInteger?, split, if_pos (And.intro someDigits areDigits),
      Bool.false_eq_true, if_false, digitsValue_toDigits,
      Int.natAbs_of_nonneg (Int.not_lt.mp negative)]

end LineMetrics
