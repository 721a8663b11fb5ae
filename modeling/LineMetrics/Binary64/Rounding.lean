import LineMetrics.Binary64

/-!
# Rounding to binary64

A nonnegative quotient of natural numbers, counted in units of the least
positive number, is rounded to the nearest magnitude, a half going to the even
neighbour. Whole numbers, products and quotients are rounded through it, each
once.
-/

namespace LineMetrics
namespace Binary64

/-- The whole number nearest to a quotient; a half goes to the even neighbour. -/
def roundQuotient (numerator denominator : Nat) : Nat :=
  let quotient := numerator / denominator
  let remainder := 2 * (numerator % denominator)
  if remainder < denominator then quotient
  else if denominator < remainder then quotient + 1
  else quotient + quotient % 2

/-- The magnitude nearest to a quotient counted in units. The fraction keeps
fifty-three bits, and a carry out of them reaches the exponent by addition. -/
def roundMagnitude (numerator denominator : Nat) : Nat :=
  let shift := (numerator / denominator).log2 - 52
  min infiniteMagnitude
    (shift * fractionCount + roundQuotient numerator (denominator <<< shift))

/-- The number nearest to a natural number. -/
def ofNat (value : Nat) : Binary64 :=
  ofMagnitude false (roundMagnitude (value * unitsPerOne) 1)

/-- The number nearest to a whole number; zero has no sign. -/
def ofInt (value : Int) : Binary64 :=
  ofMagnitude (value < 0) (roundMagnitude (value.natAbs * unitsPerOne) 1)

/-- The magnitude nearest to a power of ten. -/
def powerOfTen (exponent : Nat) : Nat :=
  roundMagnitude (Nat.pow 10 exponent * unitsPerOne) 1

/-- The magnitude nearest to the product of two finite magnitudes. -/
def timesMagnitude (left right : Nat) : Nat :=
  roundMagnitude (unitsOf left * unitsOf right) unitsPerOne

/-- The magnitude nearest to the quotient of two finite magnitudes. -/
def divideMagnitude (left right : Nat) : Nat :=
  roundMagnitude (unitsOf left * unitsPerOne) (unitsOf right)

theorem roundMagnitude_le (numerator denominator : Nat) :
    roundMagnitude numerator denominator ≤ infiniteMagnitude :=
  Nat.min_le_left _ _

@[simp] theorem roundQuotient_one (value : Nat) : roundQuotient value 1 = value := by
  simp [roundQuotient, Nat.mod_one]

end Binary64
end LineMetrics
