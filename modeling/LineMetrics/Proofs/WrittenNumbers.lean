import LineMetrics.Json.Printer
import LineMetrics.Json.Reader

/-!
# Written numbers are read back

The text of a number ends where no digit, point or exponent follows, so it is read in
front of other symbols as it is read alone. The text of a whole number that 64 bits hold is
read as that number. Numbers in binary64 are read in two roundings, and only some of them
are restored from their text.
-/

namespace LineMetrics
namespace Json

/-- No number goes on with these symbols. -/
def EndsNumber : List Text.Symbol -> Prop
  | some character :: _ =>
      character.isDigit = false ∧ character ≠ '.' ∧ character ≠ 'e' ∧ character ≠ 'E'
  | _ => True

section Behind

variable {rest symbols behind : List Text.Symbol}

/-- Digits are read in front of other symbols as they are read alone. -/
theorem readDigits_append (ends : EndsNumber rest) (symbols : List Text.Symbol) :
    readDigits (symbols ++ rest) =
      ((readDigits symbols).1, (readDigits symbols).2 ++ rest) := by
  induction symbols with
  | nil =>
      rw [List.nil_append]
      cases rest with
      | nil => rfl
      | cons symbol rest =>
          cases symbol with
          | none => rfl
          | some character =>
              rw [readDigits, ends.1]
              rfl
  | cons symbol symbols inductionHypothesis =>
      cases symbol with
      | none => rfl
      | some character =>
          rw [List.cons_append, readDigits, readDigits, inductionHypothesis]
          cases character.isDigit with
          | false => rfl
          | true => rfl

/-- A fraction is read in front of other symbols as it is read alone. -/
theorem readFraction?_append
    {fraction : Option (List Char)}
    (ends : EndsNumber rest)
    (read : readFraction? symbols = some (fraction, behind)) :
    readFraction? (symbols ++ rest) = some (fraction, behind ++ rest) := by
  by_cases pointed : ∃ digits, symbols = some '.' :: digits
  · obtain ⟨digits, rfl⟩ := pointed
    rw [readFraction?] at read
    rw [List.cons_append, readFraction?, readDigits_append ends]
    dsimp only at read ⊢
    split at read
    · cases read
    · rename_i someDigit
      cases read
      rw [if_neg someDigit]
  · have unpointed (others : List Text.Symbol)
        (apart : ∀ digits, others ≠ some '.' :: digits) :
        readFraction? others = some (none, others) := by
      rw [readFraction?]
      exact apart
    rw [unpointed symbols fun digits same => pointed ⟨digits, same⟩] at read
    cases read
    refine unpointed _ fun digits same => ?_
    cases symbols with
    | nil =>
        rw [List.nil_append] at same
        rw [same] at ends
        exact ends.2.1 rfl
    | cons symbol symbols =>
        cases same
        exact pointed ⟨symbols, rfl⟩

/-- A sign is read in front of other symbols as it is read alone. -/
theorem readSign_append (someSymbol : symbols ≠ []) :
    readSign (symbols ++ rest) = ((readSign symbols).1, (readSign symbols).2 ++ rest) := by
  cases symbols with
  | nil => exact absurd rfl someSymbol
  | cons symbol symbols =>
      rw [List.cons_append]
      by_cases minus : symbol = some '-'
      · rw [minus]
        rfl
      · by_cases plus : symbol = some '+'
        · rw [plus]
          rfl
        · have unsigned (others : List Text.Symbol) :
              readSign (symbol :: others) = (false, symbol :: others) := by
            rw [readSign]
            · rintro behind same
              exact minus (List.cons.inj same).1
            · rintro behind same
              exact plus (List.cons.inj same).1
          rw [unsigned, unsigned]
          rfl

/-- An exponent is read in front of other symbols as it is read alone. -/
theorem readExponent?_append
    {exponent : Option Int}
    (ends : EndsNumber rest)
    (read : readExponent? symbols = some (exponent, behind)) :
    readExponent? (symbols ++ rest) = some (exponent, behind ++ rest) := by
  cases symbols with
  | nil =>
      cases read
      rw [List.nil_append]
      cases rest with
      | nil => rfl
      | cons symbol rest =>
          cases symbol with
          | none => rfl
          | some character =>
              rw [readExponent?, if_neg (not_or.mpr ends.2.2)]
  | cons symbol symbols =>
      cases symbol with
      | none =>
          cases read
          rfl
      | some mark =>
          rw [List.cons_append]
          rw [readExponent?] at read ⊢
          by_cases marked : mark = 'e' ∨ mark = 'E'
          · rw [if_pos marked] at read ⊢
            by_cases someSymbol : symbols = []
            · rw [someSymbol] at read
              cases read
            · rw [readSign_append someSymbol]
              dsimp only at read ⊢
              rw [readDigits_append ends]
              dsimp only at read ⊢
              split at read
              · cases read
              · rename_i someDigit
                cases read
                rw [if_neg someDigit]
          · rw [if_neg marked] at read ⊢
            cases read
            rfl

/-- Read a number behind its sign, and what follows it. -/
def readUnsigned? (negative : Bool) (symbols : List Text.Symbol) :
    Option (Json × List Text.Symbol) := do
  let (whole, symbols) := readDigits symbols
  if whole = [] ∨ (1 < whole.length ∧ whole.head? = some '0') then none
  else
    let (fraction, symbols) <- readFraction? symbols
    let (exponent, symbols) <- readExponent? symbols
    some (ofNumberParts negative whole fraction exponent, symbols)

theorem readNumber?_minus (symbols : List Text.Symbol) :
    readNumber? (some '-' :: symbols) = readUnsigned? true symbols := rfl

theorem readNumber?_of_head?_ne (unsigned : symbols.head? ≠ some (some '-')) :
    readNumber? symbols = readUnsigned? false symbols := by
  rw [readNumber?]
  · rfl
  · rintro digits rfl
    exact unsigned rfl

theorem readUnsigned?_append
    {negative : Bool}
    {json : Json}
    (ends : EndsNumber rest)
    (read : readUnsigned? negative symbols = some (json, behind)) :
    readUnsigned? negative (symbols ++ rest) = some (json, behind ++ rest) := by
  rw [readUnsigned?] at read ⊢
  rw [readDigits_append ends]
  dsimp only at read ⊢
  split at read
  · cases read
  · rename_i isWhole
    obtain ⟨⟨fraction, behindFraction⟩, readFraction, read⟩ :=
      Option.bind_eq_some_iff.mp read
    obtain ⟨⟨exponent, behindExponent⟩, readExponent, read⟩ :=
      Option.bind_eq_some_iff.mp read
    cases read
    rw [if_neg isWhole, readFraction?_append ends readFraction]
    change (readExponent? (behindFraction ++ rest)).bind _ = _
    rw [readExponent?_append ends readExponent]
    rfl

/-- A number is read in front of symbols that do not go on with it as it is read alone. -/
theorem readNumber?_append
    {json : Json}
    (ends : EndsNumber rest)
    (read : readNumber? symbols = some (json, behind)) :
    readNumber? (symbols ++ rest) = some (json, behind ++ rest) := by
  cases symbols with
  | nil => cases read
  | cons symbol symbols =>
      by_cases minus : symbol = some '-'
      · rw [minus] at read ⊢
        exact readUnsigned?_append ends read
      · have unsigned : ∀ others : List Text.Symbol,
            (symbol :: others).head? ≠ some (some '-') :=
          fun others same => minus (Option.some.inj same)
        rw [readNumber?_of_head?_ne (unsigned symbols)] at read
        rw [List.cons_append, readNumber?_of_head?_ne (unsigned (symbols ++ rest)),
          <- List.cons_append]
        exact readUnsigned?_append ends read

/-- A number starts with a minus sign or a digit. -/
theorem exists_first_of_readNumber?
    {json : Json}
    (read : readNumber? symbols = some (json, behind)) :
    ∃ first others, symbols = some first :: others ∧
      (first = '-' ∨ first.isDigit = true) := by
  cases symbols with
  | nil => cases read
  | cons symbol symbols =>
      cases symbol with
      | none => cases read
      | some first =>
          refine ⟨first, symbols, rfl, ?_⟩
          by_cases minus : first = '-'
          · exact .inl minus
          · right
            have unsigned : (some first :: symbols).head? ≠ some (some '-') :=
              fun same => minus (Option.some.inj (Option.some.inj same))
            rw [readNumber?_of_head?_ne unsigned, readUnsigned?, readDigits] at read
            cases digit : first.isDigit with
            | true => rfl
            | false =>
                rw [digit] at read
                cases read

end Behind

/-- The digits of a number other than zero do not start with zero. -/
theorem head?_toDigits_ne {value : Nat} (nonzero : value ≠ 0) :
    (Nat.toDigits 10 value).head? ≠ some '0' := by
  induction value using Nat.strongRecOn with
  | ind value inductionHypothesis =>
      by_cases small : value < 10
      · rw [Nat.toDigits_of_lt_base small]
        have digits : ∀ digit : Fin 10, digit.val ≠ 0 ->
            [Nat.digitChar digit].head? ≠ some '0' := by
          decide
        exact digits ⟨value, small⟩ nonzero
      · rw [Nat.toDigits_of_base_le (by decide) (Nat.not_lt.mp small),
          List.head?_append, List.head?_eq_some_head Nat.toDigits_ne_nil, Option.some_or,
          <- List.head?_eq_some_head]
        exact inductionHypothesis (value / 10) (by omega) (by omega)

/-- The digits of a number do not start with a minus sign. -/
theorem head?_toDigits_ne_minus (value : Nat) : (Nat.toDigits 10 value).head? ≠ some '-' := by
  intro minus
  have areDigits := List.all_eq_true.mp (all_isDigit_toDigits value)
  exact absurd (areDigits _ (List.mem_of_head? minus)) (by decide)

/-- Written digits are read as digits. -/
theorem readDigits_map {digits : List Char} (areDigits : digits.all Char.isDigit = true) :
    readDigits (digits.map some) = (digits, []) := by
  induction digits with
  | nil => rfl
  | cons digit digits inductionHypothesis =>
      obtain ⟨here, behind⟩ := List.all_cons.symm.trans areDigits |> Bool.and_eq_true_iff.mp
      rw [List.map_cons, readDigits, if_pos here, inductionHypothesis behind]

/-- The digits of a whole number are read as that number, behind its sign. -/
theorem readUnsigned?_toDigits (negative : Bool) (value : Nat) :
    readUnsigned? negative ((Nat.toDigits 10 value).map some) =
      some (ofNumberParts negative (Nat.toDigits 10 value) none none, []) := by
  rw [readUnsigned?, readDigits_map (all_isDigit_toDigits value)]
  dsimp only
  rw [if_neg]
  · rfl
  · rintro (none | ⟨long, zero⟩)
    · exact Nat.toDigits_ne_nil none
    · by_cases isZero : value = 0
      · rw [isZero] at long
        exact absurd long (by decide)
      · exact head?_toDigits_ne isZero zero

/-- A whole number that 64 bits hold, signed or not, is read from its text. -/
theorem readNumber?_integerText
    {value : Int}
    (least : -0x8000000000000000 ≤ value)
    (greatest : value ≤ 0xffffffffffffffff) :
    readNumber? ((integerText value).map some) = some (.int value, []) := by
  rw [integerText]
  by_cases negative : value < 0
  · rw [if_pos negative, List.singleton_append, List.map_cons, readNumber?_minus,
      readUnsigned?_toDigits, ofNumberParts]
    dsimp only
    rw [digitsValue_toDigits, if_pos rfl, if_pos ⟨by omega, by omega⟩,
      Int.ofNat_natAbs_of_nonpos (Int.le_of_lt negative), Int.neg_neg]
  · have fits : value.natAbs ≤ Significand.greatest := by
      have isGreatest : Significand.greatest = 0xffffffffffffffff := rfl
      omega
    have unsigned : ((Nat.toDigits 10 value.natAbs).map some).head? ≠ some (some '-') := by
      intro minus
      obtain ⟨first, isFirst, isMinus⟩ := Option.map_eq_some_iff.mp
        (List.head?_map.symm.trans minus)
      cases isMinus
      exact head?_toDigits_ne_minus value.natAbs isFirst
    rw [if_neg negative, List.nil_append, readNumber?_of_head?_ne unsigned,
      readUnsigned?_toDigits, ofNumberParts]
    dsimp only
    rw [digitsValue_toDigits, if_neg Bool.false_ne_true, if_pos fits,
      Int.natAbs_of_nonneg (Int.not_lt.mp negative)]

/-- The text of a binary64 number is read as that number. -/
def Restores (number : Binary64) : Prop :=
  readNumber? ((doubleText number).map some) = some (.double number, [])

/-- The binary64 number that a value is, if it is one. -/
def double? : Json -> Option Binary64
  | .double value => some value
  | _ => none

theorem eq_double_of_double?
    {json : Json}
    {number : Binary64}
    (found : json.double? = some number) :
    json = .double number := by
  cases json <;> cases found
  rfl

/-- Whether a number is restored can be found out by writing and reading it. -/
theorem restores_iff {number : Binary64} :
    Restores number ↔
      ((readNumber? ((doubleText number).map some)).map fun (json, rest) =>
        (json.double?, rest)) = some (some number, []) := by
  constructor
  · intro restores
    rw [restores]
    rfl
  · intro found
    obtain ⟨⟨json, rest⟩, read, same⟩ := Option.map_eq_some_iff.mp found
    obtain ⟨isNumber, rfl⟩ := Prod.mk.inj same
    rw [Restores, read, eq_double_of_double? isNumber]

instance (number : Binary64) : Decidable (Restores number) := decidable_of_iff _ restores_iff.symm

end Json
end LineMetrics
