import LineMetrics.Instant
import LineMetrics.Proofs.Dates
import LineMetrics.Proofs.NumberText
import Mathlib.Data.Nat.Digits.Defs

/-!
# Instants survive their text

The text of an instant is a row of numbers of fixed width with signs between them. Each
number is read back in front of whatever follows it, and so are the date, the time of day
and the fraction of a second, so the text is read as the instant that it was written for.
-/

namespace LineMetrics
namespace Instant

/-- A number that fits is written with exactly so many digits. -/
theorem length_padded
    {width value : Nat}
    (fits : value < 10 ^ width)
    (positive : 0 < width) :
    (padded width value).length = width := by
  have digits := Nat.toDigits_length 10 value width positive fits
  rw [padded, List.length_append, List.length_replicate]
  omega

theorem all_isDigit_padded (width value : Nat) :
    (padded width value).all Char.isDigit = true := by
  rw [padded, List.all_append, all_isDigit_replicate, all_isDigit_toDigits, Bool.and_self]

/-- Zeros in front do not change a number. -/
theorem digitsValue_padded (width value : Nat) :
    digitsValue (padded width value) = value := by
  rw [padded, digitsValue_zeros_append, digitsValue_toDigits]

/-- A number that fits is read back in front of anything. -/
theorem readDigits?_padded
    {width value : Nat}
    (fits : value < 10 ^ width)
    (positive : 0 < width)
    (rest : List Char) :
    readDigits? width (padded width value ++ rest) = some (value, rest) := by
  have length := length_padded fits positive
  rw [readDigits?, List.take_left' length, List.drop_left' length,
    if_pos ⟨length, all_isDigit_padded width value⟩, digitsValue_padded]

/-- An allowed character is passed over. -/
theorem pass?_cons
    {allowed : List Char}
    {character : Char}
    (member : character ∈ allowed)
    (rest : List Char) :
    pass? allowed (character :: rest) = some rest := if_pos member

/-- A date with four digits for the year is read back. -/
theorem readDate?_padded
    {date : Date}
    (valid : date.isValid = true)
    (fits : date.year < 10 ^ 4)
    (rest : List Char) :
    readDate?
        (padded 4 date.year ++ '-' ::
          (padded 2 date.month ++ '-' :: (padded 2 date.day ++ rest))) =
      some (date, rest) := by
  obtain ⟨month, day⟩ := Date.lt_of_isValid valid
  rw [readDate?, readDigits?_padded fits (by decide)]
  dsimp only [Option.bind_eq_bind, Option.bind_some]
  rw [pass?_cons (List.mem_singleton_self _), Option.bind_some,
    readDigits?_padded month (by decide)]
  dsimp only [Option.bind_some]
  rw [pass?_cons (List.mem_singleton_self _), Option.bind_some,
    readDigits?_padded day (by decide)]
  exact if_pos valid

/-- A second of a day is read back from hours, minutes and seconds. -/
theorem readSecondOfDay?_padded
    {second : Nat}
    (within : second < 86400)
    (rest : List Char) :
    readSecondOfDay?
        (padded 2 (second / 3600) ++ ':' ::
          (padded 2 (second / 60 % 60) ++ ':' :: (padded 2 (second % 60) ++ rest))) =
      some (second, rest) := by
  rw [readSecondOfDay?, readDigits?_padded (by omega) (by decide)]
  dsimp only [Option.bind_eq_bind, Option.bind_some]
  rw [pass?_cons (List.mem_singleton_self _), Option.bind_some,
    readDigits?_padded (by omega) (by decide)]
  dsimp only [Option.bind_some]
  rw [pass?_cons (List.mem_singleton_self _), Option.bind_some,
    readDigits?_padded (by omega) (by decide)]
  dsimp only [Option.bind_some]
  have total : second / 3600 * 3600 + second / 60 % 60 * 60 + second % 60 = second := by omega
  rw [if_pos (by omega), total]

/-- Nine digits of a second are read back. -/
theorem readFraction?_padded
    {fraction : Nat}
    (within : fraction < 10 ^ 9) :
    readFraction? ('.' :: (padded 9 fraction ++ ['Z'])) = some (fraction, ['Z']) := by
  have length := length_padded within (by decide)
  have stops : ∀ first ∈ ['Z'].head?, first.isDigit = false := by
    intro first member
    cases Option.some.inj member
    rfl
  have some : padded 9 fraction ≠ [] := List.ne_nil_of_length_eq_add_one length
  rw [readFraction?]
  dsimp only
  rw [span_isDigit_append (all_isDigit_padded 9 fraction) stops]
  dsimp only
  rw [if_neg some, List.take_left' length, digitsValue_padded]

/-- The date of an instant that has a text has a year of four digits. -/
theorem year_lt {nanos : Nat} (bounded : nanos ≤ latest) :
    (Date.ofDayNumber (epochDay + nanos / nanosPerDay)).year < 10 ^ 4 := by
  obtain ⟨-, year, -⟩ := Date.dayNumber_ofDayNumber (epochDay + nanos / nanosPerDay)
  obtain ⟨started, -⟩ := Date.daysBeforeYear_yearOfDay (epochDay + nanos / nanosPerDay)
  rw [year]
  simp only [Date.daysBeforeYear, epochDay, nanosPerDay, nanosPerSecond, latest] at *
  omega

/-- A text whose parts are read one behind another, with the clock set to universal time,
is read as the instant that they state. -/
theorem read?_of_parts
    {text time fractionText : List Char}
    {date : Date}
    {second fraction nanos : Nat}
    (readDate : readDate? text = some (date, 'T' :: time))
    (readSecond : readSecondOfDay? time = some (second, fractionText))
    (readFraction : readFraction? fractionText = some (fraction, ['Z']))
    (stated : (((date.dayNumber : Int) - epochDay) * 86400 + second) * nanosPerSecond +
      fraction = nanos)
    (bounded : nanos ≤ latest) :
    read? text = some (UInt64.ofNat nanos) := by
  rw [read?, readDate]
  dsimp only [Option.bind_eq_bind, Option.bind_some]
  rw [pass?_cons List.mem_cons_self, Option.bind_some, readSecond]
  dsimp only [Option.bind_some]
  have universal : readOffset? ['Z'] = some (0, []) := rfl
  rw [readFraction]
  dsimp only [Option.bind_some]
  rw [universal, Option.bind_some, Int.sub_zero, stated,
    if_pos ⟨rfl, Int.natCast_nonneg nanos, Int.ofNat_le.mpr bounded⟩, Int.toNat_natCast]

/-- The text of an instant is read as the instant. -/
theorem read?_textOf {nanos : Nat} (bounded : nanos ≤ latest) :
    read? (textOf nanos) = some (UInt64.ofNat nanos) := by
  obtain ⟨valid, -, day⟩ := Date.dayNumber_ofDayNumber (epochDay + nanos / nanosPerDay)
  have second : nanos % nanosPerDay / nanosPerSecond < 86400 := by
    simp only [nanosPerDay, nanosPerSecond]
    omega
  have fraction : nanos % nanosPerSecond < 10 ^ 9 := Nat.mod_lt _ (by decide)
  rw [textOf]
  simp only [List.append_assoc, List.cons_append]
  refine read?_of_parts (readDate?_padded valid (year_lt bounded) _)
    (readSecondOfDay?_padded second _) (readFraction?_padded fraction) ?_ bounded
  rw [day]
  simp only [epochDay, nanosPerDay, nanosPerSecond]
  omega

/-- The text of an instant is read as the instant, up to the latest one. -/
theorem read?_text (instant : UInt64) :
    read? (text instant).toList = some (UInt64.ofNat (min instant.toNat latest)) := by
  rw [text, String.toList_ofList, read?_textOf (Nat.min_le_right _ _)]

/-- A field with the text of an instant states the instant, up to the latest one. -/
theorem ofFieldValue_text (instant : UInt64) :
    ofFieldValue (.text (text instant)) =
      .ok (UInt64.ofNat (min instant.toNat latest)) := by
  rw [ofFieldValue, read?_text]

/-- An instant that has a text of its own is not cut off. -/
theorem ofNat_min_latest {instant : UInt64} (fits : instant.toNat < 2 ^ 63) :
    UInt64.ofNat (min instant.toNat latest) = instant := by
  have within : instant.toNat ≤ latest := by
    simp only [latest]
    omega
  rw [Nat.min_eq_left within, UInt64.ofNat_toNat]

end Instant
end LineMetrics
