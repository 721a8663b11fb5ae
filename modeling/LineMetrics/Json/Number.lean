import LineMetrics.Decimal.Reader
import LineMetrics.Decimal.Shortest
import LineMetrics.Json

/-!
# Numbers in JSON

A number without fraction and exponent is whole as long as 64 bits hold it, signed
or not. Any other number is read in two roundings: its leading digits, as many as
64 bits hold, give a whole number, which is then multiplied or divided by a power
of ten. So a long number may be read as a neighbour of the nearest one.

Numbers are written with the fewest digits that the nearest binary64 number needs,
with an exponent when they are very small or very large.
-/

namespace LineMetrics
namespace Json

/-- The leading digits of a number that 64 bits hold, and the power of ten that they
are to be multiplied by. -/
structure Significand where
  digits : Nat
  exponent : Int
  deriving DecidableEq

namespace Significand

/-- The greatest significand. -/
def greatest : Nat := UInt64.size - 1

/-- Take the digits in front of the point. A digit that does not fit, and every digit
behind it, counts as a power of ten. -/
def takeWhole (significand : Significand) : List Char -> Significand
  | [] => significand
  | digit :: digits =>
      let extended := significand.digits * 10 + (digit.toNat - '0'.toNat)
      if extended ≤ greatest then takeWhole ⟨extended, significand.exponent⟩ digits
      else ⟨significand.digits, significand.exponent + (digits.length + 1)⟩

/-- Take the digits behind the point, up to the first that does not fit. -/
def takeFraction (significand : Significand) : List Char -> Significand
  | [] => significand
  | digit :: digits =>
      let extended := significand.digits * 10 + (digit.toNat - '0'.toNat)
      if extended ≤ greatest then
        takeFraction ⟨extended, significand.exponent - 1⟩ digits
      else significand

/-- The magnitude of a significand: a whole number, rounded, times or divided by a
power of ten, rounded again. Powers below the least one that is a normal number are
divided out in two steps. A magnitude that is too large has no value. -/
def magnitude? (significand : Significand) : Option Nat :=
  let whole := (Binary64.ofNat significand.digits).magnitude
  match significand.exponent with
  | .ofNat power =>
      if significand.digits = 0 then some 0
      else if 308 < power then none
      else
        let product := Binary64.timesMagnitude whole (Binary64.powerOfTen power)
        if product < Binary64.infiniteMagnitude then some product else none
  | .negSucc predecessor =>
      let power := predecessor + 1
      if power ≤ 308 then
        some (Binary64.divideMagnitude whole (Binary64.powerOfTen power))
      else if power ≤ 616 then
        some
          (Binary64.divideMagnitude
            (Binary64.divideMagnitude whole (Binary64.powerOfTen 308))
            (Binary64.powerOfTen (power - 308)))
      else some 0

end Significand

/-- A number given by its parts: its sign, the digits in front of the point, the
digits behind it, and the exponent. -/
def ofNumberParts
    (negative : Bool)
    (whole : List Char)
    (fraction : Option (List Char))
    (exponent : Option Int) : Json :=
  let value := digitsValue whole
  let inexact :=
    let significand :=
      (Significand.takeWhole ⟨0, 0⟩ whole).takeFraction (fraction.getD [])
    match Significand.magnitude?
        ⟨significand.digits, significand.exponent + exponent.getD 0⟩ with
    | some magnitude => .double (.ofMagnitude negative magnitude)
    | none => .unreadable
  match fraction, exponent with
  | none, none =>
      if negative then
        if 0 < value ∧ value ≤ 0x8000000000000000 then .int (-value) else inexact
      else if value ≤ Significand.greatest then .int value
      else inexact
  | _, _ => inexact

/-- A decimal number with one digit in front of the point and an exponent. -/
def scientificText (decimal : Decimal) : List Char :=
  let digits := decimal.digits
  let exponent := decimal.exponent + (digits.length - 1 : Nat)
  let sign := if exponent < 0 then '-' else '+'
  let fraction := if digits.length ≤ 1 then [] else '.' :: digits.drop 1
  digits.take 1 ++ fraction ++ 'e' :: sign :: Nat.toDigits 10 exponent.natAbs

/-- A decimal number, written with an exponent unless its first digit is less than
five places behind the point or at most sixteen places in front of it. A number
without exponent has at least one digit behind the point. -/
def decimalText (decimal : Decimal) : List Char :=
  let firstPlace := decimal.exponent + decimal.digits.length
  if -5 < firstPlace ∧ firstPlace ≤ 16 then
    decimal.positional ++ (if 0 ≤ decimal.exponent then ['.', '0'] else [])
  else scientificText decimal

/-- A binary64 number. A number halfway between two shortest decimals is written
with the one that ends in an even digit. What is not finite is written as null. -/
def doubleText (number : Binary64) : List Char :=
  if number.isFinite then
    (if number.isNegative then ['-'] else []) ++
      decimalText (Decimal.shortest .toEvenDigit number.magnitude)
  else "null".toList

end Json
end LineMetrics
