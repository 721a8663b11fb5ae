import LineMetrics.Calendar
import Mathlib.Algebra.Ring.Nat

/-!
# The day of a date

Every day number leads to a date that exists in the calendar, and that date leads back
to the number: the year is the one in which the day lies, and the months of the year are
passed one by one until the rest lies within one of them.
-/

namespace LineMetrics
namespace Date

/-- A day that lies within the given months is led to one of them, as the rest that the
months before it leave. -/
theorem splitMonths_eq
    {lengths : List Nat}
    {days : Nat}
    (month : Nat)
    (within : days < lengths.sum) :
    ∃ index day,
      splitMonths month days lengths = (month + index, day) ∧
        index < lengths.length ∧ 1 ≤ day ∧ day ≤ lengths.getD index 0 ∧
        (lengths.take index).sum + (day - 1) = days := by
  induction lengths generalizing month days with
  | nil => exact absurd within (Nat.not_lt_zero days)
  | cons length lengths inductionHypothesis =>
      rw [splitMonths]
      by_cases here : days < length
      · rw [if_pos here]
        refine ⟨0, days + 1, rfl, Nat.zero_lt_succ _, Nat.le_add_left _ _, here, ?_⟩
        rw [List.take_zero, List.sum_nil, Nat.zero_add, Nat.add_sub_cancel]
      · rw [List.sum_cons] at within
        have withinRest : days - length < lengths.sum := by omega
        obtain ⟨index, day, split, inList, first, last, behind⟩ :=
          inductionHypothesis (month + 1) withinRest
        refine ⟨index + 1, day, ?_, Nat.succ_lt_succ inList, first, last, ?_⟩
        · rw [if_neg here, split, Nat.add_assoc, Nat.add_comm 1]
        · rw [List.take_succ_cons, List.sum_cons]
          omega

/-- A year has as many days as its months. -/
theorem daysBeforeYear_succ (year : Nat) :
    daysBeforeYear (year + 1) = daysBeforeYear year + (monthLengths year).sum := by
  have fourth : (year + 1 + 3) / 4 = (year + 3) / 4 + if year % 4 = 0 then 1 else 0 := by
    split <;> omega
  have century :
      (year + 1 + 99) / 100 = (year + 99) / 100 + if year % 100 = 0 then 1 else 0 := by
    split <;> omega
  have fourCenturies :
      (year + 1 + 399) / 400 = (year + 399) / 400 + if year % 400 = 0 then 1 else 0 := by
    split <;> omega
  have passed : (year + 99) / 100 ≤ 365 * year := by omega
  have days : (monthLengths year).sum = if isLeapYear year then 366 else 365 := by
    rw [monthLengths]
    cases isLeapYear year <;> rfl
  rw [days, daysBeforeYear, daysBeforeYear, fourth, century, fourCenturies]
  generalize (year + 3) / 4 = fourths
  generalize (year + 99) / 100 = centuries at passed
  generalize (year + 399) / 400 = quadruples
  by_cases isFourth : year % 4 = 0
  · by_cases isCentury : year % 100 = 0
    · by_cases isQuadruple : year % 400 = 0
      · have leap : isLeapYear year = true := by simp [isLeapYear, isFourth, isQuadruple]
        rw [if_pos isFourth, if_pos isCentury, if_pos isQuadruple, if_pos leap]
        omega
      · have leap : ¬isLeapYear year = true := by simp [isLeapYear, isCentury, isQuadruple]
        rw [if_pos isFourth, if_pos isCentury, if_neg isQuadruple, if_neg leap]
        omega
    · have noQuadruple : year % 400 ≠ 0 := by omega
      have leap : isLeapYear year = true := by simp [isLeapYear, isFourth, isCentury]
      rw [if_pos isFourth, if_neg isCentury, if_neg noQuadruple, if_pos leap]
      omega
  · have noCentury : year % 100 ≠ 0 := by omega
    have noQuadruple : year % 400 ≠ 0 := by omega
    have leap : ¬isLeapYear year = true := by simp [isLeapYear, isFourth]
    rw [if_neg isFourth, if_neg noCentury, if_neg noQuadruple, if_neg leap]
    omega

/-- No month is longer than 31 days. -/
theorem getD_monthLengths_le (year index : Nat) : (monthLengths year).getD index 0 ≤ 31 := by
  cases leap : isLeapYear year <;>
    simp only [monthLengths, leap] <;>
    match index with
    | 0 | 1 | 2 | 3 | 4 | 5 | 6 | 7 | 8 | 9 | 10 | 11 => decide
    | _ + 12 => exact Nat.zero_le 31

/-- The date of a day exists, in the year in which the day lies, and is the date of that
day. -/
theorem dayNumber_ofDayNumber (number : Nat) :
    (ofDayNumber number).isValid = true ∧ (ofDayNumber number).year = yearOfDay number ∧
      (ofDayNumber number).dayNumber = number := by
  obtain ⟨started, notEnded⟩ := daysBeforeYear_yearOfDay number
  rw [daysBeforeYear_succ] at notEnded
  have within :
      number - daysBeforeYear (yearOfDay number) < (monthLengths (yearOfDay number)).sum := by
    omega
  obtain ⟨index, day, split, inYear, first, last, behind⟩ := splitMonths_eq 1 within
  have isDate : ofDayNumber number = ⟨yearOfDay number, 1 + index, day⟩ := by
    rw [ofDayNumber, split]
  have months : index < 12 := inYear
  rw [isDate, isValid, dayNumber]
  dsimp only
  rw [Nat.add_sub_cancel_left]
  refine ⟨?_, rfl, ?_⟩
  · simp only [Bool.and_eq_true, decide_eq_true_eq]
    omega
  · change daysBeforeYear _ + ((monthLengths _).take index).sum + (day - 1) = number
    omega

/-- A date that exists is written with two digits for the month and for the day. -/
theorem lt_of_isValid {date : Date} (valid : date.isValid = true) :
    date.month < 10 ^ 2 ∧ date.day < 10 ^ 2 := by
  simp only [isValid, Bool.and_eq_true, decide_eq_true_eq] at valid
  have lastDay := getD_monthLengths_le date.year (date.month - 1)
  omega

end Date
end LineMetrics
