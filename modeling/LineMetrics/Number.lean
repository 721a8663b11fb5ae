import LineMetrics.Binary64.Rounding

/-!
# Numbers of data points

The value of a data point is a whole number of 64 bits or a binary64 number.
-/

namespace LineMetrics

/-- The value of a data point. -/
inductive Number
  | int (value : Int64)
  | double (value : Binary64)
  deriving DecidableEq

namespace Number

/-- The nearest binary64 number. -/
def toDouble : Number -> Binary64
  | .int value => .ofInt value.toInt
  | .double value => value

end Number
end LineMetrics
