import LineMetrics.Binary64.Rounding

/-!
# Decimal numbers

A decimal number is a natural coefficient times a power of ten. `nearest` is
the binary64 magnitude it rounds to. Numbers far outside the range are settled
by the size of the coefficient and the exponent, so that no enormous power of
ten is formed.
-/

namespace LineMetrics

/-- The number `coefficient * 10 ^ exponent`. -/
structure Decimal where
  coefficient : Nat
  exponent : Int
  deriving DecidableEq, Inhabited

namespace Decimal

/-- The binary64 magnitude nearest to a decimal number. A power of ten lies above
the cube of two with the same exponent, which bounds the two early answers. -/
def nearest (decimal : Decimal) : Nat :=
  if decimal.coefficient = 0 then 0
  else
    match decimal.exponent with
    | .ofNat power =>
        if 1024 ≤ decimal.coefficient.log2 + 3 * power then Binary64.infiniteMagnitude
        else
          Binary64.roundMagnitude
            (decimal.coefficient * Nat.pow 10 power * Binary64.unitsPerOne) 1
    | .negSucc predecessor =>
        let power := predecessor + 1
        if decimal.coefficient.log2 + 1076 ≤ 3 * power then 0
        else
          Binary64.roundMagnitude
            (decimal.coefficient * Binary64.unitsPerOne) (Nat.pow 10 power)

/-- The digits of the coefficient, without leading zeros. -/
def digits (decimal : Decimal) : List Char := Nat.toDigits 10 decimal.coefficient

/-- The number written with a decimal point and no exponent. The point is left
out when no digit follows it. -/
def positional (decimal : Decimal) : List Char :=
  let digits := decimal.digits
  match decimal.exponent with
  | .ofNat power => digits ++ List.replicate power '0'
  | .negSucc predecessor =>
      let places := predecessor + 1
      if places < digits.length then
        digits.take (digits.length - places) ++
          '.' :: digits.drop (digits.length - places)
      else
        '0' :: '.' :: (List.replicate (places - digits.length) '0' ++ digits)

@[simp] theorem nearest_zero (exponent : Int) : (mk 0 exponent).nearest = 0 := rfl

@[simp] theorem digits_ne_nil (decimal : Decimal) : decimal.digits ≠ [] :=
  Nat.toDigits_ne_nil

theorem nearest_le (decimal : Decimal) :
    decimal.nearest ≤ Binary64.infiniteMagnitude := by
  unfold nearest
  split
  · exact Nat.zero_le _
  · split
    · split
      · exact Nat.le_refl _
      · exact Binary64.roundMagnitude_le _ _
    · dsimp only
      split
      · exact Nat.zero_le _
      · exact Binary64.roundMagnitude_le _ _

end Decimal
end LineMetrics
