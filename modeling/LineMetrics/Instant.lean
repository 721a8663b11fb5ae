import LineMetrics.Calendar
import LineMetrics.FieldValue
import LineMetrics.Text.Integer

/-!
# Instants

An instant is a number of nanoseconds since the start of 1970, universal time. Its
text is the internet date and time format: a date, a time of day and the distance
of the local clock from universal time.
-/

namespace LineMetrics
namespace Instant

/-- The number of the first day of 1970. -/
def epochDay : Nat := 719528

def nanosPerSecond : Nat := 1000000000

def nanosPerDay : Nat := 86400 * nanosPerSecond

/-- The last instant that has a text, which is the greatest signed number of 64 bits. -/
def latest : Nat := 9223372036854775807

/-- A number with zeros in front up to a width. -/
def padded (width value : Nat) : List Char :=
  let digits := Nat.toDigits 10 value
  List.replicate (width - digits.length) '0' ++ digits

/-- The text of an instant in universal time with nine digits of a second. -/
def textOf (nanos : Nat) : List Char :=
  let date := Date.ofDayNumber (epochDay + nanos / nanosPerDay)
  let second := nanos % nanosPerDay / nanosPerSecond
  padded 4 date.year ++ '-' :: padded 2 date.month ++ '-' :: padded 2 date.day ++
    'T' :: padded 2 (second / 3600) ++ ':' :: padded 2 (second / 60 % 60) ++
    ':' :: padded 2 (second % 60) ++ '.' :: padded 9 (nanos % nanosPerSecond) ++ ['Z']

/-- The text of an instant; every later instant is written as the latest one. -/
def text (instant : UInt64) : String := String.ofList (textOf (min instant.toNat latest))

/-- Read a number of exactly so many digits, and what follows it. -/
def readDigits? (count : Nat) (text : List Char) : Option (Nat × List Char) :=
  let digits := text.take count
  if digits.length = count ∧ digits.all Char.isDigit then
    some (digitsValue digits, text.drop count)
  else none

/-- Pass over one of the allowed characters. -/
def pass? (allowed : List Char) : List Char -> Option (List Char)
  | [] => none
  | character :: rest => if character ∈ allowed then some rest else none

/-- Read a date, and what follows it. -/
def readDate? (text : List Char) : Option (Date × List Char) := do
  let (year, text) <- readDigits? 4 text
  let text <- pass? ['-'] text
  let (month, text) <- readDigits? 2 text
  let text <- pass? ['-'] text
  let (day, text) <- readDigits? 2 text
  let date : Date := ⟨year, month, day⟩
  if date.isValid then some (date, text) else none

/-- Read a time of day in seconds, and what follows it. The second sixty stands for
the first of the next minute. -/
def readSecondOfDay? (text : List Char) : Option (Nat × List Char) := do
  let (hour, text) <- readDigits? 2 text
  let text <- pass? [':'] text
  let (minute, text) <- readDigits? 2 text
  let text <- pass? [':'] text
  let (second, text) <- readDigits? 2 text
  if hour < 24 ∧ minute < 60 ∧ second ≤ 60 then
    some (hour * 3600 + minute * 60 + second, text)
  else none

/-- Read the nanoseconds of a decimal fraction, if one is there, and what follows it.
Digits behind the ninth are passed over. -/
def readFraction? (text : List Char) : Option (Nat × List Char) :=
  match text with
  | '.' :: rest =>
      let (digits, rest) := rest.span Char.isDigit
      if digits = [] then none
      else some (digitsValue ((digits ++ List.replicate 9 '0').take 9), rest)
  | text => some (0, text)

/-- Read the seconds by which a local clock is ahead of universal time, and what
follows. The mathematical minus sign is a minus sign too. -/
def readOffset? : List Char -> Option (Int × List Char)
  | 'Z' :: rest => some (0, rest)
  | 'z' :: rest => some (0, rest)
  | sign :: rest => do
      let direction : Int <-
        if sign = '+' then some 1
        else if sign = '-' ∨ sign = '\u2212' then some (-1)
        else none
      let (hours, rest) <- readDigits? 2 rest
      let rest <- pass? [':'] rest
      let (minutes, rest) <- readDigits? 2 rest
      if hours < 24 ∧ minutes < 60 then
        some (direction * (hours * 3600 + minutes * 60), rest)
      else none
  | [] => none

/-- Read an instant from a whole text. It must not lie before 1970 nor after the
latest instant. -/
def read? (text : List Char) : Option UInt64 := do
  let (date, text) <- readDate? text
  let text <- pass? ['T', 't', ' '] text
  let (second, text) <- readSecondOfDay? text
  let (fraction, text) <- readFraction? text
  let (offset, text) <- readOffset? text
  let seconds : Int := ((date.dayNumber : Int) - epochDay) * 86400 + second - offset
  let nanos := seconds * nanosPerSecond + fraction
  if text = [] ∧ 0 ≤ nanos ∧ nanos ≤ latest then some (UInt64.ofNat nanos.toNat) else none

/-- The instant that a start time field states: a text, or a whole number of
nanoseconds. -/
def ofFieldValue : FieldValue -> Except Error UInt64
  | .text value =>
      match read? value.toList with
      | some instant => .ok instant
      | none => .error (.invalidTimestamp value)
  | .int value =>
      if value < 0 then .error (.invalidTimestamp (FieldValue.int value).display)
      else .ok value.toUInt64
  | .uint value => .ok value
  | other => .error (.invalidTimestamp other.display)

end Instant
end LineMetrics
