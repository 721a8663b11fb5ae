import LineMetrics.Decimal
import LineMetrics.Text.Integer

/-!
# Reading numbers from text

A number is an optional sign and then either a word for infinity or decimal
digits. The digits may hold one point, with at least one digit on either side of
it taken together, and may be followed by an exponent.
-/

namespace LineMetrics

namespace Decimal

/-- The exponent that a text states: none at all, or a marked whole number. -/
def readExponent? : List Char -> Option Int
  | [] => some 0
  | mark :: rest =>
      if mark = 'e' ∨ mark = 'E' then
        let (negative, digits) := splitSign rest
        if digits ≠ [] ∧ digits.all Char.isDigit then
          some (if negative then -digitsValue digits else digitsValue digits)
        else none
      else none

/-- The digits behind a decimal point, and the text behind them. -/
def splitFraction : List Char -> List Char × List Char
  | '.' :: rest => rest.span Char.isDigit
  | rest => ([], rest)

/-- Read an unsigned decimal number. -/
def read? (text : List Char) : Option Decimal := do
  let (whole, rest) := text.span Char.isDigit
  let (fraction, rest) := splitFraction rest
  if whole = [] ∧ fraction = [] then none
  else
    let exponent <- readExponent? rest
    some ⟨digitsValue (whole ++ fraction), exponent - fraction.length⟩

end Decimal

namespace Binary64

/-- The lower-case words for infinity. -/
def infinityWords : List String := ["inf", "infinity"]

/-- Read a number that is not NaN, rounded to the nearest binary64 number. Words
for infinity are taken in any letter case. -/
def read? (text : List Char) : Option Binary64 :=
  let (negative, rest) := splitSign text
  if String.ofList (rest.map Char.toLower) ∈ infinityWords then
    some (ofMagnitude negative infiniteMagnitude)
  else
    (Decimal.read? rest).map fun decimal => ofMagnitude negative decimal.nearest

end Binary64
end LineMetrics
