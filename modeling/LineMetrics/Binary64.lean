/-!
# Binary64 numbers

A binary64 number is its 64 bits: a sign, eleven bits of exponent and
fifty-two bits of fraction. The sixty-three bits below the sign are read as one
natural number, the magnitude, because among numbers that are not NaN a larger
magnitude is a larger absolute value.

Every finite number is a whole multiple of the least positive one. `units`
counts that multiple, so values are compared and rounded as natural numbers.
-/

namespace LineMetrics

/-- A binary64 floating-point number, given by its bits. -/
structure Binary64 where
  bits : UInt64
  deriving DecidableEq, Inhabited

namespace Binary64

/-- What the sign bit adds to the bits of a number. -/
def signWeight : Nat := 0x8000000000000000

/-- The number of fractions that fifty-two bits make. -/
def fractionCount : Nat := 0x10000000000000

/-- The magnitude that stands for infinity; larger ones stand for NaN. -/
def infiniteMagnitude : Nat := 2047 * fractionCount

/-- The number with the given sign and magnitude. -/
def ofMagnitude (negative : Bool) (magnitude : Nat) : Binary64 :=
  ⟨UInt64.ofNat (if negative then signWeight + magnitude else magnitude)⟩

/-- Positive zero. -/
def zero : Binary64 := ofMagnitude false 0

/-- Positive infinity. -/
def infinity : Binary64 := ofMagnitude false infiniteMagnitude

/-- The NaN with only its leading fraction bit set. -/
def nan : Binary64 := ofMagnitude false (infiniteMagnitude + fractionCount / 2)

/-- The sign bit is set. -/
def isNegative (number : Binary64) : Bool := signWeight ≤ number.bits.toNat

/-- The bits below the sign, as a natural number. -/
def magnitude (number : Binary64) : Nat := number.bits.toNat % signWeight

def isNaN (number : Binary64) : Bool := infiniteMagnitude < number.magnitude

def isFinite (number : Binary64) : Bool := number.magnitude < infiniteMagnitude

def isInfinite (number : Binary64) : Bool := number.magnitude == infiniteMagnitude

def isZero (number : Binary64) : Bool := number.magnitude == 0

/-- The number with the other sign. -/
def neg (number : Binary64) : Binary64 :=
  ofMagnitude (!number.isNegative) number.magnitude

/-- The multiple of the least positive number that a finite magnitude stands
for. A zero exponent field leaves the fraction as it is; any other one adds the
hidden bit and shifts. -/
def unitsOf (magnitude : Nat) : Nat :=
  if magnitude < fractionCount then magnitude
  else
    (magnitude % fractionCount + fractionCount) <<< (magnitude / fractionCount - 1)

/-- The absolute value of a finite number, as a multiple of the least positive
number. -/
def units (number : Binary64) : Nat := unitsOf number.magnitude

/-- The number of units in one. -/
def unitsPerOne : Nat := 1 <<< 1074

/-- The whole part of the absolute value of a finite number. -/
def wholePart (number : Binary64) : Nat := number.units / unitsPerOne

@[simp] theorem magnitude_ofMagnitude
    (negative : Bool)
    {magnitude : Nat}
    (small : magnitude < signWeight) :
    (ofMagnitude negative magnitude).magnitude = magnitude := by
  simp only [signWeight] at small
  cases negative <;>
    simp only [ofMagnitude, Binary64.magnitude, signWeight, UInt64.toNat_ofNat', if_true,
      Bool.false_eq_true, if_false] <;>
    omega

@[simp] theorem isNegative_ofMagnitude
    (negative : Bool)
    {magnitude : Nat}
    (small : magnitude < signWeight) :
    (ofMagnitude negative magnitude).isNegative = negative := by
  simp only [signWeight] at small
  cases negative <;>
    simp only [ofMagnitude, isNegative, signWeight, UInt64.toNat_ofNat', if_true,
      Bool.false_eq_true, if_false, decide_eq_true_eq, decide_eq_false_iff_not] <;>
    omega

/-- A number is determined by its sign and its magnitude. -/
theorem ofMagnitude_magnitude (number : Binary64) :
    ofMagnitude number.isNegative number.magnitude = number := by
  have below := number.bits.toNat_lt
  cases number with
  | mk bits =>
    simp only [ofMagnitude, isNegative, magnitude, signWeight, mk.injEq]
    apply UInt64.toNat_inj.mp
    rw [UInt64.toNat_ofNat']
    simp only at below
    by_cases large : 0x8000000000000000 ≤ bits.toNat
    · simp only [large, decide_true, if_true]
      omega
    · simp only [large, decide_false, Bool.false_eq_true, if_false]
      omega

/-- A finite number is not NaN. -/
theorem isNaN_of_isFinite {number : Binary64} (finite : number.isFinite = true) :
    number.isNaN = false := by
  simp only [isFinite, isNaN, decide_eq_true_eq, decide_eq_false_iff_not] at finite ⊢
  omega

end Binary64

end LineMetrics
