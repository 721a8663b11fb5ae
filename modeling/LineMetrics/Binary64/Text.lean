import LineMetrics.Decimal.Reader
import LineMetrics.Decimal.Shortest

/-!
# The plain text of a binary64 number

Messages, tags and keys write a number with the fewest digits that read back and
never with an exponent. Keys have their own words for the infinities.
-/

namespace LineMetrics
namespace Binary64

/-- The absolute value of a finite number, written without an exponent. A number
halfway between two shortest decimals is written with the larger one. -/
def plainDigits (number : Binary64) : List Char :=
  (Decimal.shortest .awayFromZero number.magnitude).positional

/-- A minus sign for a number with its sign bit set. -/
def signText (number : Binary64) : List Char := if number.isNegative then ['-'] else []

/-- The text of a number in messages and tags. -/
def plainText (number : Binary64) : String :=
  if number.isNaN then "NaN"
  else if number.isInfinite then String.ofList number.signText ++ "inf"
  else String.ofList (number.signText ++ number.plainDigits)

/-- The text of a bucket bound or a quantile in a key. -/
def keyText (number : Binary64) : String :=
  if number.isInfinite then (if number.isNegative then "-Inf" else "+Inf")
  else number.plainText

/-- The bucket bound or quantile that a key states. -/
def ofKey? (key : String) : Option Binary64 := read? key.toList

/-- The finite bucket bound or quantile that a key states. -/
def ofFiniteKey? (key : String) : Option Binary64 := (ofKey? key).filter isFinite

end Binary64
end LineMetrics
