import LineMetrics.Proofs.NumberText
import LineMetrics.Proofs.RoundingErrors

/-!
# The shortest decimal is short

A quotient that is closer to a finite number than half of the way to its neighbours is
rounded to that number. So a power of ten below the distance of the neighbours has a
multiple that reads back, and the search for the shortest decimal ends there at the latest:
its coefficient always fits in 64 bits.
-/

namespace LineMetrics
namespace Binary64

/-- A quotient that is close to a whole number is rounded to it. -/
theorem roundQuotient_of_near
    {numerator denominator quotient : Nat}
    (above : 2 * numerator < 2 * (quotient * denominator) + denominator)
    (below : 2 * (quotient * denominator) < 2 * numerator + denominator) :
    roundQuotient numerator denominator = quotient := by
  have positive : 0 < denominator := by omega
  have parts := Nat.div_add_mod numerator denominator
  have rest := Nat.mod_lt numerator positive
  rw [Nat.mul_comm] at parts
  unfold roundQuotient
  dsimp only
  generalize numerator / denominator = whole at parts
  generalize numerator % denominator = remainder at parts rest
  -- the whole part is the quotient, or one less
  rcases Nat.lt_trichotomy whole quotient with less | same | more
  · have atMost : (whole + 1) * denominator ≤ quotient * denominator :=
      Nat.mul_le_mul_right _ less
    have single : quotient = whole + 1 := by
      by_contra apart
      have farther : (whole + 2) * denominator ≤ quotient * denominator :=
        Nat.mul_le_mul_right _ (by omega)
      rw [Nat.add_mul] at farther
      omega
    rw [single, Nat.add_mul] at below
    rw [if_neg (by omega), if_pos (by omega), single]
  · rw [same] at parts
    rw [if_pos (by omega), same]
  · have atLeast : (quotient + 1) * denominator ≤ whole * denominator :=
      Nat.mul_le_mul_right _ more
    rw [Nat.add_mul] at atLeast
    omega

/-- How far apart the units of a magnitude and its neighbours are, as a power of two. -/
def gapBits (magnitude : Nat) : Nat := magnitude / fractionCount - 1

/-- The units of a magnitude are a multiple of the distance to the next one. -/
theorem unitsOf_eq_mul_gap (magnitude : Nat) :
    ∃ kept, unitsOf magnitude = kept * 2 ^ gapBits magnitude ∧
      magnitude = gapBits magnitude * fractionCount + kept ∧ kept < 2 * fractionCount ∧
      (gapBits magnitude ≠ 0 -> fractionCount ≤ kept) := by
  by_cases small : magnitude < fractionCount
  · have noGap : gapBits magnitude = 0 := by
      rw [gapBits, Nat.div_eq_of_lt small]
    exact ⟨magnitude, by rw [noGap, unitsOf_of_lt small, Nat.pow_zero, Nat.mul_one],
      by rw [noGap]; omega, by omega, fun some => absurd noGap some⟩
  · have large := Nat.not_lt.mp small
    have exponent : 1 ≤ magnitude / fractionCount := (Nat.one_le_div_iff (by decide)).mpr large
    have parts := Nat.div_add_mod magnitude fractionCount
    have rest := Nat.mod_lt magnitude (show 0 < fractionCount by decide)
    have exponents : magnitude / fractionCount = gapBits magnitude + 1 := by
      rw [gapBits]
      omega
    refine ⟨magnitude % fractionCount + fractionCount, unitsOf_of_le large, ?_, by omega,
      fun _ => Nat.le_add_left _ _⟩
    rw [exponents, Nat.mul_comm, Nat.add_mul] at parts
    omega

/-- A quotient between two powers of two has so many bits. -/
theorem log2_div_eq
    {numerator denominator bits : Nat}
    (positive : 0 < denominator)
    (least : 2 ^ bits * denominator ≤ numerator)
    (most : numerator < 2 ^ (bits + 1) * denominator) :
    (numerator / denominator).log2 = bits := by
  have atLeast : 2 ^ bits ≤ numerator / denominator :=
    (Nat.le_div_iff_mul_le positive).mpr least
  have nonzero : numerator / denominator ≠ 0 :=
    Nat.ne_of_gt (Nat.lt_of_lt_of_le (Nat.two_pow_pos _) atLeast)
  exact (Nat.log2_eq_iff nonzero).mpr ⟨atLeast, (Nat.div_lt_iff_lt_mul positive).mpr most⟩

/-- A quotient with at most fifty-three bits in front of a shift has no fewer, if it is not less
than a power of two. -/
theorem log2_div_of_lt
    {numerator denominator shift : Nat}
    (positive : 0 < denominator)
    (most : numerator < 2 ^ 53 * (denominator * 2 ^ shift)) :
    (numerator / denominator).log2 - 52 = shift ∨
      shift ≠ 0 ∧ numerator < 2 ^ 52 * (denominator * 2 ^ shift) := by
  have product (bits : Nat) : 2 ^ bits * (denominator * 2 ^ shift) =
      2 ^ (bits + shift) * denominator := by
    rw [Nat.pow_add, Nat.mul_assoc, Nat.mul_comm (2 ^ shift)]
  rw [product] at most
  by_cases unshifted : shift = 0
  · left
    subst unshifted
    by_cases zero : numerator / denominator = 0
    · rw [zero]
      decide
    · have bits := (Nat.log2_lt zero).mpr ((Nat.div_lt_iff_lt_mul positive).mpr most)
      omega
  · rw [product]
    by_cases less : numerator < 2 ^ (52 + shift) * denominator
    · exact .inr ⟨unshifted, less⟩
    · left
      rw [show 53 + shift = 52 + shift + 1 by omega] at most
      rw [log2_div_eq positive (Nat.not_lt.mp less) most, Nat.add_sub_cancel_left]

/-- A quotient a little less than a power of two, which has one bit less, is rounded to it. -/
theorem roundMagnitude_of_near_power
    {numerator denominator shift : Nat}
    (positive : 0 < denominator)
    (less : numerator < 2 ^ 52 * (denominator * 2 ^ (shift + 1)))
    (near : 4 * (2 ^ 52 * (denominator * 2 ^ (shift + 1))) <
      4 * numerator + denominator * 2 ^ (shift + 1)) :
    roundMagnitude numerator denominator =
      min infiniteMagnitude ((shift + 1) * fractionCount + fractionCount) := by
  have halves : denominator * 2 ^ (shift + 1) = 2 * (denominator * 2 ^ shift) := by
    rw [Nat.pow_succ]
    ring
  rw [halves] at less near
  have bits : (numerator / denominator).log2 = 52 + shift := by
    refine log2_div_eq positive ?_ ?_
    · rw [Nat.pow_add, Nat.mul_assoc, Nat.mul_comm (2 ^ shift)]
      omega
    · rw [show 52 + shift + 1 = 53 + shift by omega, Nat.pow_add, Nat.mul_assoc,
        Nat.mul_comm (2 ^ shift)]
      omega
  have rounded : roundQuotient numerator (denominator * 2 ^ shift) = 2 ^ 53 :=
    roundQuotient_of_near (by omega) (by omega)
  have isSum : shift * fractionCount + 2 ^ 53 = (shift + 1) * fractionCount + fractionCount := by
    rw [Nat.add_mul, fractionCount_eq]
    omega
  have shifted : (numerator / denominator).log2 - 52 = shift := by omega
  rw [roundMagnitude_of_log2 shifted, rounded, isSum]

/-- A quotient that is closer to a finite number than half of the way to its neighbours is
rounded to it. Below a power of two, the next neighbour is only half as far away. -/
theorem roundMagnitude_of_near
    {magnitude numerator denominator : Nat}
    (finite : magnitude < infiniteMagnitude)
    (above : 2 * numerator <
      2 * (unitsOf magnitude * denominator) + denominator * 2 ^ gapBits magnitude)
    (below : 2 * (unitsOf magnitude * denominator) <
      2 * numerator + denominator * 2 ^ gapBits magnitude)
    (room : magnitude % fractionCount ≠ 0 ∨
      4 * (unitsOf magnitude * denominator) <
        4 * numerator + denominator * 2 ^ gapBits magnitude) :
    roundMagnitude numerator denominator = magnitude := by
  obtain ⟨kept, units, isMagnitude, few, many⟩ := unitsOf_eq_mul_gap magnitude
  generalize gapBits magnitude = gap at above below room units isMagnitude many
  have positive : 0 < denominator := by
    rcases Nat.eq_zero_or_pos denominator with zero | positive
    · rw [zero] at above below
      omega
    · exact positive
  have scaled : unitsOf magnitude * denominator = kept * (denominator * 2 ^ gap) := by
    rw [units, Nat.mul_assoc, Nat.mul_comm (2 ^ gap)]
  rw [scaled] at above below room
  have fewer : (kept + 1) * (denominator * 2 ^ gap) ≤ 2 ^ 53 * (denominator * 2 ^ gap) :=
    Nat.mul_le_mul_right _ few
  rw [Nat.add_mul] at fewer
  have inRange : min infiniteMagnitude magnitude = magnitude := Nat.min_eq_right (by omega)
  rcases log2_div_of_lt positive (show numerator < 2 ^ 53 * (denominator * 2 ^ gap) by omega)
    with whole | ⟨shifted, less⟩
  · rw [roundMagnitude_of_log2 whole, roundQuotient_of_near above below, <- isMagnitude, inRange]
  · -- otherwise the magnitude is a power of two, and the quotient is a little less
    obtain ⟨shift, rfl⟩ : ∃ shift, gap = shift + 1 := Nat.exists_eq_succ_of_ne_zero shifted
    have isPower : kept = fractionCount := by
      have atLeast := many shifted
      by_contra apart
      have more : (fractionCount + 1) * (denominator * 2 ^ (shift + 1)) ≤
          kept * (denominator * 2 ^ (shift + 1)) := Nat.mul_le_mul_right _ (by omega)
      rw [Nat.add_mul, fractionCount_eq] at more
      omega
    have closer := room.resolve_left fun someFraction => someFraction (by
      rw [isMagnitude, isPower, Nat.mul_add_mod_self_right, Nat.mod_self])
    rw [isPower, fractionCount_eq] at closer
    rw [isPower] at isMagnitude
    rw [roundMagnitude_of_near_power positive less closer, <- isMagnitude, inRange]

/-- A finite magnitude is not too far from its neighbours. -/
theorem gapBits_le {magnitude : Nat} (finite : magnitude < infiniteMagnitude) :
    gapBits magnitude ≤ 2045 := by
  have exponent : magnitude / fractionCount < 2047 :=
    (Nat.div_lt_iff_lt_mul (by decide)).mpr finite
  rw [gapBits]
  omega

/-- A magnitude other than zero is at least as large as its distance to the next one. -/
theorem gap_le_unitsOf
    {magnitude : Nat}
    (nonzero : magnitude ≠ 0)
    (finite : magnitude < infiniteMagnitude) :
    2 ^ gapBits magnitude ≤ unitsOf magnitude := by
  have someUnits := unitsOf_ne_zero nonzero finite
  obtain ⟨kept, units, -⟩ := unitsOf_eq_mul_gap magnitude
  rw [units] at someUnits ⊢
  exact Nat.le_mul_of_pos_left _ (Nat.pos_of_ne_zero fun none => someUnits (by simp [none]))

/-- The next magnitude behind a finite one is at most infinity. -/
theorem unitsOf_add_gap_le
    {magnitude : Nat}
    (finite : magnitude < infiniteMagnitude) :
    unitsOf magnitude + 2 ^ gapBits magnitude ≤ 2 ^ 1024 * unitsPerOne := by
  obtain ⟨kept, units, -, few, -⟩ := unitsOf_eq_mul_gap magnitude
  rw [units, unitsPerOne_eq, <- Nat.pow_add]
  calc kept * 2 ^ gapBits magnitude + 2 ^ gapBits magnitude
      = (kept + 1) * 2 ^ gapBits magnitude := by ring
    _ ≤ 2 ^ 53 * 2 ^ gapBits magnitude := Nat.mul_le_mul_right _ few
    _ = 2 ^ (53 + gapBits magnitude) := (Nat.pow_add 2 53 _).symm
    _ ≤ 2 ^ (1024 + 1074) :=
      Nat.pow_le_pow_right (by decide) (by have := gapBits_le finite; omega)

end Binary64

namespace Decimal

open Binary64

/-- A power of ten is not less than the power of two with three times its exponent. -/
theorem two_pow_le_ten_pow (power : Nat) : 2 ^ (3 * power) ≤ 10 ^ power := by
  rw [Nat.pow_mul]
  exact Nat.pow_le_pow_left (by decide) power

/-- A whole number of some bits does not exceed its bound by the bits of its factors. -/
theorem log2_add_lt
    {coefficient power bits : Nat}
    (nonzero : coefficient ≠ 0)
    (below : coefficient * 10 ^ power < 2 ^ bits) :
    coefficient.log2 + 3 * power < bits := by
  rw [<- Nat.pow_lt_pow_iff_right (show 1 < 2 by decide)]
  calc 2 ^ (coefficient.log2 + 3 * power)
      = 2 ^ coefficient.log2 * 2 ^ (3 * power) := Nat.pow_add _ _ _
    _ ≤ coefficient * 10 ^ power :=
        Nat.mul_le_mul (Nat.log2_self_le nonzero) (two_pow_le_ten_pow power)
    _ < 2 ^ bits := below

/-- A fraction whose denominator has many more bits is at most a half. -/
theorem double_le_ten_pow
    {coefficient power bits : Nat}
    (small : coefficient.log2 + (bits + 2) ≤ 3 * power) :
    2 * (coefficient * 2 ^ bits) ≤ 10 ^ power :=
  calc 2 * (coefficient * 2 ^ bits)
      ≤ 2 * (2 ^ (coefficient.log2 + 1) * 2 ^ bits) :=
        Nat.mul_le_mul_left _ (Nat.mul_le_mul_right _ (Nat.le_of_lt Nat.lt_log2_self))
    _ = 2 ^ (coefficient.log2 + (bits + 2)) := by
        rw [Nat.pow_add, Nat.pow_add, Nat.pow_add]
        ring
    _ ≤ 2 ^ (3 * power) := Nat.pow_le_pow_right (by decide) small
    _ ≤ 10 ^ power := two_pow_le_ten_pow power

/-- The denominator of a power of ten. -/
def denominator (exponent : Int) : Nat := 10 ^ (-exponent).toNat

/-- The numerator of a power of ten, in units. -/
def step (exponent : Int) : Nat := unitsPerOne * 10 ^ exponent.toNat

@[simp] theorem denominator_natCast (power : Nat) : denominator power = 1 := by
  simp [denominator]

@[simp] theorem denominator_negSucc (predecessor : Nat) :
    denominator (.negSucc predecessor) = 10 ^ (predecessor + 1) := by
  simp [denominator]

@[simp] theorem step_natCast (power : Nat) : step power = unitsPerOne * 10 ^ power := rfl

@[simp] theorem step_negSucc (predecessor : Nat) : step (.negSucc predecessor) = unitsPerOne := by
  simp [step]

theorem denominator_pos (exponent : Int) : 0 < denominator exponent :=
  Nat.pow_pos (by decide)

theorem step_pos (exponent : Int) : 0 < step exponent :=
  Nat.mul_pos (by decide +kernel) (Nat.pow_pos (by decide))

variable {magnitude coefficient : Nat} {exponent : Int}

/-- A decimal that is closer to a finite number than half of the way to its neighbours is
nearest to it. -/
theorem nearest_of_near
    (nonzero : magnitude ≠ 0)
    (finite : magnitude < infiniteMagnitude)
    (above : 2 * (coefficient * step exponent) <
      2 * (unitsOf magnitude * denominator exponent) +
        denominator exponent * 2 ^ gapBits magnitude)
    (below : 2 * (unitsOf magnitude * denominator exponent) <
      2 * (coefficient * step exponent) + denominator exponent * 2 ^ gapBits magnitude)
    (room : magnitude % fractionCount ≠ 0 ∨
      4 * (unitsOf magnitude * denominator exponent) <
        4 * (coefficient * step exponent) + denominator exponent * 2 ^ gapBits magnitude) :
    nearest ⟨coefficient, exponent⟩ = magnitude := by
  have rounded := roundMagnitude_of_near finite above below room
  have positive := denominator_pos exponent
  have atLeast := Nat.mul_le_mul_right (denominator exponent) (gap_le_unitsOf nonzero finite)
  rw [Nat.mul_comm] at atLeast
  have someUnits : coefficient ≠ 0 := by
    rintro rfl
    rw [Nat.zero_mul] at below
    omega
  cases exponent with
  | ofNat power =>
      have whole : denominator (Int.ofNat power) = 1 := denominator_natCast power
      have atMost := unitsOf_add_gap_le finite
      rw [whole, Nat.one_mul, Nat.mul_one] at above
      rw [whole] at rounded
      have product : coefficient * 10 ^ power * unitsPerOne =
          coefficient * step (Int.ofNat power) := by
        rw [show step (Int.ofNat power) = _ from step_natCast power, Nat.mul_assoc,
          Nat.mul_comm (10 ^ power)]
      have finiteProduct : coefficient * 10 ^ power < 2 ^ 1024 := by
        refine Nat.lt_of_mul_lt_mul_right (a := unitsPerOne) ?_
        rw [product]
        generalize 2 ^ gapBits magnitude = gap at above atMost
        omega
      apply (nearest_of_nonneg power someUnits).trans
      rw [if_neg (Nat.not_le.mpr (log2_add_lt someUnits finiteProduct)), product, rounded]
  | negSucc predecessor =>
      have guard : ¬coefficient.log2 + 1076 ≤ 3 * (predecessor + 1) := by
        intro small
        have half := double_le_ten_pow (show _ + (1074 + 2) ≤ _ from small)
        have gap := Nat.le_mul_of_pos_right (denominator (.negSucc predecessor))
          (Nat.two_pow_pos (gapBits magnitude))
        rw [<- unitsPerOne_eq, <- denominator_negSucc, <- step_negSucc predecessor] at half
        omega
      rw [denominator_negSucc, step_negSucc] at rounded
      apply (nearest_of_neg predecessor someUnits).trans
      rw [if_neg guard, rounded]

/-- A power of ten is fine for a magnitude if its multiples are closer together than the
magnitude and its neighbours. At a power of two, they have to be closer by half. -/
def IsFine (magnitude : Nat) (exponent : Int) : Prop :=
  2 * step exponent < denominator exponent * 2 ^ gapBits magnitude ∨
    magnitude % fractionCount ≠ 0 ∧
      step exponent < denominator exponent * 2 ^ gapBits magnitude

/-- A fine power of ten has a multiple that reads back. -/
theorem exists_coefficientOn?
    (halfway : Halfway)
    (nonzero : magnitude ≠ 0)
    (finite : magnitude < infiniteMagnitude)
    (fine : IsFine magnitude exponent) :
    ∃ coefficient, coefficientOn? halfway magnitude exponent = some coefficient := by
  have someFine : step exponent < denominator exponent * 2 ^ gapBits magnitude := by
    rcases fine with half | ⟨-, whole⟩
    · omega
    · exact whole
  have parts := Nat.div_add_mod (unitsOf magnitude * denominator exponent) (step exponent)
  have rest := Nat.mod_lt (unitsOf magnitude * denominator exponent) (step_pos exponent)
  rw [Nat.mul_comm] at parts
  have next (whole : Nat) : (whole + 1) * step exponent = whole * step exponent + step exponent := by
    rw [Nat.add_mul, Nat.one_mul]
  have near :
      nearest ⟨unitsOf magnitude * denominator exponent / step exponent, exponent⟩ =
          magnitude ∨
        nearest ⟨unitsOf magnitude * denominator exponent / step exponent + 1, exponent⟩ =
          magnitude := by
    by_cases lower :
        2 * (unitsOf magnitude * denominator exponent % step exponent) ≤ step exponent
    · refine .inl (nearest_of_near nonzero finite (by omega) (by omega) ?_)
      rcases fine with half | ⟨someFraction, -⟩
      · exact .inr (by omega)
      · exact .inl someFraction
    · have upper := next (unitsOf magnitude * denominator exponent / step exponent)
      refine .inr (nearest_of_near nonzero finite ?_ ?_ (.inr ?_)) <;> rw [upper] <;> omega
  rw [coefficientOn?]
  change nearest ⟨unitsOf magnitude * Nat.pow 10 (-exponent).toNat /
      (unitsPerOne * Nat.pow 10 exponent.toNat), exponent⟩ = magnitude ∨
    nearest ⟨unitsOf magnitude * Nat.pow 10 (-exponent).toNat /
      (unitsPerOne * Nat.pow 10 exponent.toNat) + 1, exponent⟩ = magnitude at near
  dsimp only
  split
  · split
    · split
      · exact ⟨_, rfl⟩
      · split <;> exact ⟨_, rfl⟩
    · exact ⟨_, rfl⟩
  · rename_i lower
    rw [if_pos (near.resolve_left lower)]
    exact ⟨_, rfl⟩

theorem choose_le (halfway : Halfway) (below : Nat) : halfway.choose below ≤ below + 1 := by
  cases halfway with
  | awayFromZero => exact Nat.le_refl _
  | toEvenDigit =>
      rw [Halfway.choose]
      omega

/-- A coefficient that is found is at most one more than the whole part. -/
theorem le_of_coefficientOn?
    {halfway : Halfway}
    (found : coefficientOn? halfway magnitude exponent = some coefficient) :
    coefficient ≤ unitsOf magnitude * denominator exponent / step exponent + 1 := by
  change coefficient ≤ unitsOf magnitude * Nat.pow 10 (-exponent).toNat /
    (unitsPerOne * Nat.pow 10 exponent.toNat) + 1
  simp only [coefficientOn?] at found
  generalize unitsOf magnitude * Nat.pow 10 (-exponent).toNat /
    (unitsPerOne * Nat.pow 10 exponent.toNat) = below at found ⊢
  split at found
  · split at found
    · split at found
      · rw [<- Option.some.inj found]
        exact Nat.le_succ below
      · split at found
        · exact Nat.le_of_eq (Option.some.inj found).symm
        · rw [<- Option.some.inj found]
          exact choose_le halfway below
    · rw [<- Option.some.inj found]
      exact Nat.le_succ below
  · split at found
    · exact Nat.le_of_eq (Option.some.inj found).symm
    · cases found

/-- A search that reaches a power of ten with a coefficient ends there, or before. -/
theorem exists_searchFrom
    {halfway : Halfway}
    {start : Int}
    {attempts : Nat}
    (onGrid : ∃ coefficient, coefficientOn? halfway magnitude exponent = some coefficient)
    (reached : exponent ≤ start)
    (soon : start < exponent + attempts) :
    ∃ decimal, searchFrom halfway magnitude start attempts = some decimal ∧
      exponent ≤ decimal.exponent ∧
      coefficientOn? halfway magnitude decimal.exponent = some decimal.coefficient := by
  induction attempts generalizing start with
  | zero => omega
  | succ attempts inductionHypothesis =>
      rw [searchFrom]
      cases found : coefficientOn? halfway magnitude start with
      | some coefficient => exact ⟨⟨coefficient, start⟩, rfl, reached, found⟩
      | none =>
          have apart : exponent ≠ start := by
            rintro rfl
            obtain ⟨coefficient, some⟩ := onGrid
            rw [some] at found
            cases found
          exact inductionHypothesis (by omega) (by omega)

/-- The shortest decimal is found not behind a fine power of ten. -/
theorem exists_shortest
    (halfway : Halfway)
    (nonzero : magnitude ≠ 0)
    (finite : magnitude < infiniteMagnitude)
    (fine : IsFine magnitude exponent)
    (reached : exponent ≤ coarsestExponent magnitude)
    (soon : coarsestExponent magnitude < exponent + 24) :
    exponent ≤ (shortest halfway magnitude).exponent ∧
      coefficientOn? halfway magnitude (shortest halfway magnitude).exponent =
        some (shortest halfway magnitude).coefficient := by
  obtain ⟨decimal, found, notBehind, onGrid⟩ :=
    exists_searchFrom (exists_coefficientOn? halfway nonzero finite fine) reached soon
  rw [shortest, if_neg nonzero, found, Option.getD_some]
  exact ⟨notBehind, onGrid⟩

/-- A power of ten that is fine for magnitudes of some distance to the next one. -/
def fineExponent (gap : Nat) : Int := (((gap : Int) - 1075) * 30103 - 1) / 100000

/-- The fine powers of ten are coarse enough for short coefficients, and are reached. -/
theorem fineExponent_spec :
    ∀ gap < 2046,
      2 * step (fineExponent gap) < denominator (fineExponent gap) * 2 ^ gap ∧
      2 ^ (53 + gap) * denominator (fineExponent gap) ≤ 10 ^ 18 * step (fineExponent gap) ∧
      fineExponent gap ≤ ((52 + gap : Nat) + 1) * 30103 / 100000 - 322 ∧
      ((52 + gap : Nat) + 1 : Int) * 30103 / 100000 - 322 < fineExponent gap + 24 := by
  decide +kernel

/-- A coarser power of ten is not finer in units. -/
theorem denominator_mul_step_le {fine coarse : Int} (less : fine ≤ coarse) :
    denominator coarse * step fine ≤ denominator fine * step coarse := by
  have exponents : (-coarse).toNat + fine.toNat ≤ (-fine).toNat + coarse.toNat := by omega
  have powers : 10 ^ ((-coarse).toNat + fine.toNat) ≤ 10 ^ ((-fine).toNat + coarse.toNat) :=
    Nat.pow_le_pow_right (by decide) exponents
  rw [Nat.pow_add, Nat.pow_add] at powers
  calc denominator coarse * step fine
      = unitsPerOne * (10 ^ (-coarse).toNat * 10 ^ fine.toNat) := by
        rw [denominator, step]
        ring
    _ ≤ unitsPerOne * (10 ^ (-fine).toNat * 10 ^ coarse.toNat) := Nat.mul_le_mul_left _ powers
    _ = denominator fine * step coarse := by
        rw [denominator, step]
        ring

/-- How many bits the units of a magnitude have. -/
theorem log2_unitsOf
    (magnitude : Nat) :
    (unitsOf magnitude).log2 = 52 + gapBits magnitude ∨
      gapBits magnitude = 0 ∧ (unitsOf magnitude).log2 ≤ 52 := by
  by_cases small : magnitude < fractionCount
  · refine .inr ⟨by rw [gapBits, Nat.div_eq_of_lt small], ?_⟩
    rw [unitsOf_of_lt small]
    by_cases zero : magnitude = 0
    · rw [zero]
      decide
    · have bits := (Nat.log2_lt zero).mpr (small.trans_eq fractionCount_eq)
      omega
  · exact .inl (log2_unitsOf_of_le (Nat.not_lt.mp small))

/-- The units of a magnitude have at most fifty-three bits in front of the distance to the next
one. -/
theorem unitsOf_lt_two_pow (magnitude : Nat) :
    unitsOf magnitude < 2 ^ (53 + gapBits magnitude) := by
  obtain ⟨kept, units, -, few, -⟩ := unitsOf_eq_mul_gap magnitude
  rw [units, Nat.pow_add]
  exact Nat.mul_lt_mul_of_pos_right few (Nat.two_pow_pos _)

/-- The search for the shortest decimal reaches the fine power of ten. -/
theorem fineExponent_reached (finite : magnitude < infiniteMagnitude) :
    fineExponent (gapBits magnitude) ≤ coarsestExponent magnitude ∧
      coarsestExponent magnitude < fineExponent (gapBits magnitude) + 24 := by
  rcases log2_unitsOf magnitude with bits | ⟨noGap, bits⟩
  · obtain ⟨-, -, reached, soon⟩ :=
      fineExponent_spec (gapBits magnitude) (Nat.lt_succ_of_le (gapBits_le finite))
    rw [coarsestExponent, bits]
    exact ⟨reached, soon⟩
  · have least : fineExponent 0 = -324 := by decide
    rw [coarsestExponent, noGap, least]
    omega

/-- The shortest decimal is found not behind the fine power of ten. -/
theorem fineExponent_le_exponent_shortest
    (halfway : Halfway)
    (nonzero : magnitude ≠ 0)
    (finite : magnitude < infiniteMagnitude) :
    fineExponent (gapBits magnitude) ≤ (shortest halfway magnitude).exponent ∧
      coefficientOn? halfway magnitude (shortest halfway magnitude).exponent =
        some (shortest halfway magnitude).coefficient := by
  obtain ⟨fine, -⟩ :=
    fineExponent_spec (gapBits magnitude) (Nat.lt_succ_of_le (gapBits_le finite))
  obtain ⟨reached, soon⟩ := fineExponent_reached finite
  exact exists_shortest halfway nonzero finite (.inl fine) reached soon

/-- The shortest decimal of a finite number has no very small power of ten. -/
theorem le_exponent_shortest
    (halfway : Halfway)
    (finite : magnitude < infiniteMagnitude) :
    -324 ≤ (shortest halfway magnitude).exponent := by
  by_cases zero : magnitude = 0
  · rw [zero, shortest_zero]
    decide
  · have notBehind := (fineExponent_le_exponent_shortest halfway zero finite).1
    rw [fineExponent] at notBehind
    omega

/-- The shortest decimal of a finite number has at most nineteen digits. -/
theorem coefficient_shortest_le
    (halfway : Halfway)
    (finite : magnitude < infiniteMagnitude) :
    (shortest halfway magnitude).coefficient ≤ 10 ^ 18 := by
  by_cases zero : magnitude = 0
  · rw [zero]
    exact Nat.zero_le _
  · obtain ⟨notBehind, onGrid⟩ := fineExponent_le_exponent_shortest halfway zero finite
    obtain ⟨-, short, -⟩ :=
      fineExponent_spec (gapBits magnitude) (Nat.lt_succ_of_le (gapBits_le finite))
    generalize fineExponent (gapBits magnitude) = exponent at short notBehind
    refine (le_of_coefficientOn? onGrid).trans (Nat.succ_le_of_lt ?_)
    generalize (shortest halfway magnitude).exponent = found at notBehind
    rw [Nat.div_lt_iff_lt_mul (step_pos found)]
    refine Nat.lt_of_mul_lt_mul_right (a := step exponent) ?_
    calc unitsOf magnitude * denominator found * step exponent
        = unitsOf magnitude * (denominator found * step exponent) := Nat.mul_assoc _ _ _
      _ ≤ unitsOf magnitude * (denominator exponent * step found) :=
          Nat.mul_le_mul_left _ (denominator_mul_step_le notBehind)
      _ = unitsOf magnitude * denominator exponent * step found := (Nat.mul_assoc _ _ _).symm
      _ < 10 ^ 18 * step exponent * step found := by
          refine Nat.mul_lt_mul_of_pos_right (lt_of_lt_of_le ?_ short) (step_pos found)
          exact Nat.mul_lt_mul_of_pos_right (unitsOf_lt_two_pow magnitude)
            (denominator_pos exponent)
      _ = 10 ^ 18 * step found * step exponent := Nat.mul_right_comm _ _ _

end Decimal
end LineMetrics
