import LineMetrics.Point.Json
import Mathlib.Algebra.Ring.Nat

/-!
# Values as they are read again

What is written in JSON is not always read as what it was. A whole number has the type
that its size selects. The digits of a binary64 number are read as a whole number, which is
rounded, and then multiplied or divided by a power of ten and rounded again.
-/

namespace LineMetrics

namespace Decimal

/-- The number is written with all of its digits in front of the point. -/
def isWrittenWhole (decimal : Decimal) : Bool :=
  0 ≤ decimal.exponent ∧ decimal.exponent + decimal.digits.length ≤ 16

/-- The significand that is read from the written number. A number with all of its digits
in front of the point has a zero behind it. -/
def writtenSignificand (decimal : Decimal) : Json.Significand :=
  if decimal.isWrittenWhole then
    ⟨decimal.coefficient * 10 ^ (decimal.exponent.toNat + 1), -1⟩
  else ⟨decimal.coefficient, decimal.exponent⟩

end Decimal

namespace Binary64

/-- The significand that a finite number is written with. -/
def writtenSignificand (number : Binary64) : Json.Significand :=
  (Decimal.shortest .toEvenDigit number.magnitude).writtenSignificand

/-- A finite number as it is read again. -/
def reread (number : Binary64) : Binary64 :=
  ofMagnitude number.isNegative (number.writtenSignificand.magnitude?.getD 0)

/-- The number is written with so few digits that neither they nor the power of ten are
rounded. -/
def isShort (number : Binary64) : Bool :=
  number.writtenSignificand.digits ≤ 2 ^ 53 ∧ number.writtenSignificand.exponent.natAbs ≤ 22

/-- The other number is what reading leaves of a finite number: it has the sign of the number,
differs by no more than a small part of it or two of the least numbers, and is the same number
if that is written short. -/
structure IsReadAs (number other : Binary64) : Prop where
  finite : other.isFinite = true
  sign : other.isNegative = number.isNegative
  near : (other.units - number.units : Int).natAbs ≤ 2 ∨
    2 ^ 49 * (other.units - number.units : Int).natAbs ≤ number.units
  short : number.isShort = true -> other = number

end Binary64

namespace FieldValue

/-- The value, where an unsigned whole number that 64 bits hold with a sign is a signed one. -/
def narrowed : FieldValue -> FieldValue
  | .uint value => if value.toNat < 2 ^ 63 then .int value.toInt64 else .uint value
  | value => value

/-- The value as it is read again. -/
def reread : FieldValue -> FieldValue
  | .float value => .float value.reread
  | value => value.narrowed

/-- The other value is what reading leaves of a value with a finite number: the value itself,
but for unsigned whole numbers that become signed and for digits that are rounded. -/
def IsReadAs : FieldValue -> FieldValue -> Prop
  | .uint value, .int other => value.toNat < 2 ^ 63 ∧ other.toInt = value.toNat
  | .uint value, .uint other => 2 ^ 63 ≤ value.toNat ∧ other = value
  | .float value, .float other => value.IsReadAs other
  | .int value, .int other => other = value
  | .text value, .text other => other = value
  | .bool value, .bool other => other = value
  | _, _ => False

end FieldValue

namespace Dictionary

/-- The dictionary with every value changed. -/
def mapValues (change : α -> β) (dictionary : Dictionary α) : Dictionary β :=
  ⟨dictionary.entries.map fun entry => (entry.1, change entry.2),
    List.pairwise_map.mpr dictionary.ascending⟩

end Dictionary

namespace Point

/-- The point, where unsigned whole numbers that 64 bits hold with a sign are signed ones. -/
def narrowed (point : Point) : Point :=
  { point with fields := point.fields.mapValues FieldValue.narrowed }

/-- The point as it is read again. -/
def reread (point : Point) : Point :=
  { point with fields := point.fields.mapValues FieldValue.reread }

end Point

end LineMetrics
