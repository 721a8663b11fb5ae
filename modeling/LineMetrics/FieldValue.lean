import LineMetrics.Binary64.Order
import LineMetrics.Error
import LineMetrics.Number

/-!
# Field values

The value of a field is typed. Where a number is asked for, the three numeric
types are converted, each in its own way, and the other two are refused with the
name of the field.
-/

namespace LineMetrics

/-- The value of a field. -/
inductive FieldValue
  | int (value : Int64)
  | uint (value : UInt64)
  | float (value : Binary64)
  | text (value : String)
  | bool (value : Bool)
  deriving DecidableEq

namespace FieldValue

/-- The name of the type of a value. -/
def kind : FieldValue -> String
  | .int _ => "int"
  | .uint _ => "uint"
  | .float _ => "float"
  | .text _ => "string"
  | .bool _ => "bool"

def isNumeric : FieldValue -> Bool
  | .int _ => true
  | .uint _ => true
  | .float _ => true
  | .text _ => false
  | .bool _ => false

/-- A value as it stands in messages. -/
def display : FieldValue -> String
  | .int value => String.ofList (integerText value.toInt)
  | .uint value => String.ofList (integerText value.toNat)
  | .float value => value.plainText
  | .text value => Text.quoted value
  | .bool value => if value then "true" else "false"

/-- The value as the value of a data point. The bits of an unsigned whole number
are read as a signed one. -/
def toNumber (field : String) : FieldValue -> Except Error Number
  | .int value => .ok (.int value)
  | .uint value => .ok (.int value.toInt64)
  | .float value => .ok (.double value)
  | other => .error (.notNumeric field other.kind)

/-- The value as the nearest binary64 number. -/
def toDouble (field : String) : FieldValue -> Except Error Binary64
  | .int value => .ok (.ofInt value.toInt)
  | .uint value => .ok (.ofNat value.toNat)
  | .float value => .ok value
  | other => .error (.notNumeric field other.kind)

/-- The value as a number of observations. Negative numbers, infinities and NaN
are refused. A fraction is cut off, and a number beyond the largest count becomes
the largest count. -/
def toCount (field : String) : FieldValue -> Except Error UInt64
  | .int value =>
      if value < 0 then .error (.notACount field (FieldValue.int value).display)
      else .ok value.toUInt64
  | .uint value => .ok value
  | .float value =>
      if value.isFinite && value.isAtLeastZero then
        .ok (UInt64.ofNat (min value.wholePart (UInt64.size - 1)))
      else .error (.notACount field (FieldValue.float value).display)
  | other => .error (.notNumeric field other.kind)

/-- The value of a data point as a field value. -/
def ofNumber : Number -> FieldValue
  | .int value => .int value
  | .double value => .float value

@[simp] theorem toNumber_ofNumber (field : String) (number : Number) :
    (ofNumber number).toNumber field = .ok number := by
  cases number <;> rfl

@[simp] theorem isNumeric_ofNumber (number : Number) : (ofNumber number).isNumeric := by
  cases number <;> rfl

/-- A value is converted to a number exactly when its type is numeric. -/
theorem toNumber_isOk (field : String) (value : FieldValue) :
    (value.toNumber field).isOk = value.isNumeric := by
  cases value <;> rfl

/-- A value is converted to a binary64 number exactly when its type is numeric. -/
theorem toDouble_isOk (field : String) (value : FieldValue) :
    (value.toDouble field).isOk = value.isNumeric := by
  cases value <;> rfl

end FieldValue
end LineMetrics
