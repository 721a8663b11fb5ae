import LineMetrics.Decimal
import LineMetrics.Binary64.Order

/-!
# The shortest decimal that reads back

A finite binary64 number is written with the fewest digits that still round to
it. For coarser and then finer powers of ten, the two multiples on either side
of the number are tried, and the first grid with a multiple that reads back
decides. If both multiples read back, the nearer one is taken.

Should no grid tried hold such a multiple, the number itself is written out in
full, which a power of ten always allows since ten is even.
-/

namespace LineMetrics

/-- The way to settle a number exactly halfway between two decimals. -/
inductive Halfway
  | awayFromZero
  | toEvenDigit
  deriving DecidableEq

namespace Halfway

/-- The chosen one of two neighbouring coefficients. -/
def choose (below : Nat) : Halfway -> Nat
  | .awayFromZero => below + 1
  | .toEvenDigit => below + below % 2

end Halfway

namespace Decimal

/-- The coefficient, if any, with which a power of ten reads back as the
magnitude. -/
def coefficientOn?
    (halfway : Halfway)
    (magnitude : Nat)
    (exponent : Int) : Option Nat :=
  let scaled := Binary64.unitsOf magnitude * Nat.pow 10 (-exponent).toNat
  let step := Binary64.unitsPerOne * Nat.pow 10 exponent.toNat
  let below := scaled / step
  let readsBack := fun coefficient => nearest ⟨coefficient, exponent⟩ = magnitude
  if readsBack below then
    if readsBack (below + 1) then
      let twice := 2 * (scaled % step)
      if twice < step then some below
      else if step < twice then some (below + 1)
      else some (halfway.choose below)
    else some below
  else if readsBack (below + 1) then some (below + 1)
  else none

/-- Search ever finer powers of ten for a coefficient that reads back. -/
def searchFrom
    (halfway : Halfway)
    (magnitude : Nat)
    (exponent : Int) : Nat -> Option Decimal
  | 0 => none
  | attempts + 1 =>
      match coefficientOn? halfway magnitude exponent with
      | some coefficient => some ⟨coefficient, exponent⟩
      | none => searchFrom halfway magnitude (exponent - 1) attempts

/-- The value of a magnitude written out in full. -/
def exactly (magnitude : Nat) : Decimal :=
  ⟨Binary64.unitsOf magnitude * Nat.pow 5 1074, -1074⟩

/-- A power of ten that is not below the value of the magnitude. -/
def coarsestExponent (magnitude : Nat) : Int :=
  ((Binary64.unitsOf magnitude).log2 + 1) * 30103 / 100000 - 322

/-- The decimal with the fewest digits that reads back as a finite magnitude. -/
def shortest (halfway : Halfway) (magnitude : Nat) : Decimal :=
  if magnitude = 0 then ⟨0, 0⟩
  else
    (searchFrom halfway magnitude (coarsestExponent magnitude) 24).getD
      (exactly magnitude)

@[simp] theorem shortest_zero (halfway : Halfway) : shortest halfway 0 = ⟨0, 0⟩ := rfl

/-- A coefficient found on a grid reads back. -/
theorem nearest_of_coefficientOn?
    {halfway : Halfway}
    {magnitude coefficient : Nat}
    {exponent : Int}
    (found : coefficientOn? halfway magnitude exponent = some coefficient) :
    nearest ⟨coefficient, exponent⟩ = magnitude := by
  simp only [coefficientOn?] at found
  split at found
  · rename_i lower
    split at found
    · rename_i upper
      split at found
      · rw [<- Option.some.inj found]; exact lower
      · split at found
        · rw [<- Option.some.inj found]; exact upper
        · rw [<- Option.some.inj found]
          cases halfway with
          | awayFromZero => exact upper
          | toEvenDigit =>
              simp only [Halfway.choose]
              rcases Nat.mod_two_eq_zero_or_one
                (Binary64.unitsOf magnitude * Nat.pow 10 (-exponent).toNat /
                  (Binary64.unitsPerOne * Nat.pow 10 exponent.toNat)) with even | odd
              · rw [even]; exact lower
              · rw [odd]; exact upper
    · rw [<- Option.some.inj found]; exact lower
  · split at found
    · rename_i upper
      rw [<- Option.some.inj found]; exact upper
    · cases found

/-- A decimal found by the search reads back. -/
theorem nearest_of_searchFrom
    {halfway : Halfway}
    {magnitude : Nat}
    {decimal : Decimal}
    (attempts : Nat)
    (exponent : Int)
    (found : searchFrom halfway magnitude exponent attempts = some decimal) :
    decimal.nearest = magnitude := by
  induction attempts generalizing exponent with
  | zero => cases found
  | succ attempts inductionHypothesis =>
      simp only [searchFrom] at found
      split at found
      · rename_i coefficient onGrid
        rw [<- Option.some.inj found]
        exact nearest_of_coefficientOn? onGrid
      · exact inductionHypothesis (exponent - 1) found

end Decimal
end LineMetrics
