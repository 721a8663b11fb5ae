/-!
# Calendar dates

Dates of the Gregorian calendar, carried back to the year zero, are numbered by
days. `Date.dayNumber` and `Date.ofDayNumber` lead from the one to the other.
-/

namespace LineMetrics

/-- A year, a month from one to twelve, and a day of the month from one. -/
structure Date where
  year : Nat
  month : Nat
  day : Nat
  deriving DecidableEq

namespace Date

/-- Every fourth year is a leap year, except centuries not divisible by 400. -/
def isLeapYear (year : Nat) : Bool :=
  year % 4 = 0 && (year % 100 ≠ 0 || year % 400 = 0)

/-- The lengths of the months of a year. -/
def monthLengths (year : Nat) : List Nat :=
  [31, if isLeapYear year then 29 else 28, 31, 30, 31, 30, 31, 31, 30, 31, 30, 31]

/-- The number of days before a year, counted from the start of the year zero. -/
def daysBeforeYear (year : Nat) : Nat :=
  365 * year + (year + 3) / 4 - (year + 99) / 100 + (year + 399) / 400

/-- The day exists in the calendar. -/
def isValid (date : Date) : Bool :=
  1 ≤ date.month && date.month ≤ 12 && 1 ≤ date.day &&
    date.day ≤ (monthLengths date.year).getD (date.month - 1) 0

/-- The number of days before a date, counted from the start of the year zero. -/
def dayNumber (date : Date) : Nat :=
  daysBeforeYear date.year + ((monthLengths date.year).take (date.month - 1)).foldr (· + ·) 0 +
    (date.day - 1)

/-- The year in which a day lies. The mean length of a year leads to the year or to
a neighbour of it. -/
def yearOfDay (number : Nat) : Nat :=
  let guess := number * 400 / 146097
  if number < daysBeforeYear guess then guess - 1
  else if daysBeforeYear (guess + 1) ≤ number then guess + 1
  else guess

/-- The month, counted from the given one, and the day of the month, for a day that
lies the given number of days behind the start of the first month. -/
def splitMonths (month days : Nat) : List Nat -> Nat × Nat
  | [] => (month, days + 1)
  | length :: lengths =>
      if days < length then (month, days + 1)
      else splitMonths (month + 1) (days - length) lengths

/-- The date that a number of days leads to. -/
def ofDayNumber (number : Nat) : Date :=
  let year := yearOfDay number
  let (month, day) := splitMonths 1 (number - daysBeforeYear year) (monthLengths year)
  ⟨year, month, day⟩

/-- Four centuries hold as many days as the next four. -/
theorem daysBeforeYear_add (cycles year : Nat) :
    daysBeforeYear (400 * cycles + year) = 146097 * cycles + daysBeforeYear year := by
  simp only [daysBeforeYear]
  omega

/-- A year starts within a year of where years of mean length would put it. -/
theorem daysBeforeYear_near_mean (year : Nat) :
    146097 * year ≤ 400 * daysBeforeYear year + 146097 ∧
      400 * daysBeforeYear year ≤ 146097 * year + 146097 := by
  have inCycle : ∀ offset < 400,
      146097 * offset ≤ 400 * daysBeforeYear offset + 146097 ∧
        400 * daysBeforeYear offset ≤ 146097 * offset + 146097 := by
    intro offset below
    simp only [daysBeforeYear]
    omega
  have ⟨lower, upper⟩ := inCycle (year % 400) (Nat.mod_lt _ (by decide))
  have cycles := daysBeforeYear_add (year / 400) (year % 400)
  rw [Nat.div_add_mod] at cycles
  omega

/-- A day lies in its year. -/
theorem daysBeforeYear_yearOfDay (number : Nat) :
    daysBeforeYear (yearOfDay number) ≤ number ∧
      number < daysBeforeYear (yearOfDay number + 1) := by
  simp only [yearOfDay]
  generalize guessed : number * 400 / 146097 = guess
  split
  · rename_i early
    have := daysBeforeYear_near_mean (guess - 1)
    have positive : guess ≠ 0 := by
      intro none
      rw [none] at early
      exact Nat.not_lt_zero number early
    rw [Nat.sub_add_cancel (Nat.pos_of_ne_zero positive)]
    omega
  · split
    · have := daysBeforeYear_near_mean (guess + 1 + 1)
      omega
    · omega

end Date
end LineMetrics
