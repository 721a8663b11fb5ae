import LineMetrics.Proofs.WrittenJson
import Mathlib.Data.List.TakeWhile

/-!
# The symbols that a value is read from

A value is read from the symbols up to its last one, and the same symbols give the same
value whatever follows them, as long as no number goes on there. None of them is white space
at the end, so white space behind a text is not part of its value: a text with white space
behind it stands for what it stands for without.
-/

namespace LineMetrics
namespace Json

variable {fuel : Nat} {symbols rest : List Text.Symbol}

/-- There is a last symbol, which is not white space. -/
def EndsSolidly (symbols : List Text.Symbol) : Prop :=
  ∃ front last, symbols = front ++ [last] ∧ last.any isSpace = false

theorem EndsSolidly.append
    (ends : EndsSolidly symbols)
    (before : List Text.Symbol) :
    EndsSolidly (before ++ symbols) := by
  obtain ⟨front, last, rfl, solid⟩ := ends
  exact ⟨before ++ front, last, (List.append_assoc _ _ _).symm, solid⟩

theorem EndsSolidly.cons (ends : EndsSolidly symbols) (first : Text.Symbol) :
    EndsSolidly (first :: symbols) :=
  ends.append [first]

theorem endsSolidly_singleton {last : Text.Symbol} (solid : last.any isSpace = false) :
    EndsSolidly [last] :=
  ⟨[], last, rfl, solid⟩

/-- Symbols of which none is white space do not end in it. -/
theorem endsSolidly_of_forall
    (someSymbol : symbols ≠ [])
    (solid : ∀ symbol ∈ symbols, symbol.any isSpace = false) :
    EndsSolidly symbols :=
  ⟨symbols.dropLast, symbols.getLast someSymbol, (List.dropLast_concat_getLast someSymbol).symm,
    solid _ (List.getLast_mem someSymbol)⟩

/-- Symbols that do not end in white space are some symbols. -/
theorem EndsSolidly.exists_cons (ends : EndsSolidly symbols) :
    ∃ first others, symbols = first :: others := by
  obtain ⟨front, last, rfl, -⟩ := ends
  cases front with
  | nil => exact ⟨last, [], rfl⟩
  | cons first others => exact ⟨first, others ++ [last], rfl⟩

/-! ## White space in front -/

/-- The symbols are white space. -/
def AreSpaces (symbols : List Text.Symbol) : Prop :=
  ∀ symbol ∈ symbols, symbol.any isSpace = true

/-- White space ends a number, and so does what ends it behind white space. -/
theorem AreSpaces.endsNumber_append
    {gap : List Text.Symbol}
    (spaces : AreSpaces gap)
    (ends : EndsNumber rest) :
    EndsNumber (gap ++ rest) := by
  cases gap with
  | nil => exact ends
  | cons symbol gap =>
      have space := spaces symbol List.mem_cons_self
      cases symbol with
      | none => trivial
      | some character =>
          rw [Option.any_some, isSpace] at space
          simp only [Bool.or_eq_true, decide_eq_true_iff] at space
          rcases space with ((rfl | rfl) | rfl) | rfl <;> exact ⟨rfl, by decide⟩

/-- White space is skipped. -/
theorem AreSpaces.skipSpace_append
    {gap : List Text.Symbol}
    (spaces : AreSpaces gap)
    (rest : List Text.Symbol) :
    skipSpace (gap ++ rest) = skipSpace rest :=
  List.dropWhile_append_of_pos spaces

/-- Nothing is left of white space, and of nothing else. -/
theorem skipSpace_eq_nil_iff : skipSpace symbols = [] ↔ AreSpaces symbols :=
  List.dropWhile_eq_nil_iff

/-- What is left behind white space starts with another symbol. -/
theorem exists_gap {first : Text.Symbol} (skipped : skipSpace symbols = first :: rest) :
    ∃ gap, symbols = gap ++ first :: rest ∧ AreSpaces gap ∧ first.any isSpace = false := by
  refine ⟨symbols.takeWhile fun symbol => symbol.any isSpace, ?_, ?_, ?_⟩
  · rw [<- skipped]
    exact List.takeWhile_append_dropWhile.symm
  · exact fun symbol member => List.mem_takeWhile_imp member
  · have notSpace := List.head?_dropWhile_not (fun symbol => symbol.any isSpace) symbols
    rw [show symbols.dropWhile _ = first :: rest from skipped] at notSpace
    exact notSpace

/-! ## Numbers -/

/-- No digit is the next symbol. -/
def EndsDigits : List Text.Symbol -> Prop
  | some character :: _ => character.isDigit = false
  | _ => True

theorem EndsNumber.endsDigits (ends : EndsNumber rest) : EndsDigits rest := by
  match rest, ends with
  | some _ :: _, ends => exact ends.1
  | none :: _, _ => trivial
  | [], _ => trivial

/-- A digit is not white space. -/
theorem isSpace_of_isDigit {digit : Char} (isDigit : digit.isDigit = true) :
    isSpace digit = false := by
  rw [Bool.eq_false_iff]
  intro space
  rw [isSpace] at space
  simp only [Bool.or_eq_true, decide_eq_true_iff] at space
  rcases space with ((rfl | rfl) | rfl) | rfl <;> exact absurd isDigit (by decide)

/-- Symbols that are digits are not white space. -/
theorem solid_digits
    {digits : List Char}
    (areDigits : ∀ digit ∈ digits, digit.isDigit = true) :
    ∀ symbol ∈ digits.map some, symbol.any isSpace = false := by
  intro symbol member
  obtain ⟨digit, isDigit, rfl⟩ := List.mem_map.mp member
  exact isSpace_of_isDigit (areDigits digit isDigit)

/-- What is read as digits are digits, and what follows them is left. -/
theorem eq_of_readDigits
    {digits : List Char}
    (read : readDigits symbols = (digits, rest)) :
    symbols = digits.map some ++ rest ∧ ∀ digit ∈ digits, digit.isDigit = true := by
  induction symbols generalizing digits with
  | nil =>
      cases read
      exact ⟨rfl, List.forall_mem_nil _⟩
  | cons symbol symbols inductionHypothesis =>
      cases symbol with
      | none =>
          cases read
          exact ⟨rfl, List.forall_mem_nil _⟩
      | some character =>
          rw [readDigits] at read
          cases isDigit : character.isDigit with
          | false =>
              rw [isDigit] at read
              cases read
              exact ⟨rfl, List.forall_mem_nil _⟩
          | true =>
              rw [isDigit] at read
              cases read
              obtain ⟨split, areDigits⟩ := inductionHypothesis rfl
              exact ⟨congrArg (some character :: ·) split,
                List.forall_mem_cons.mpr ⟨isDigit, areDigits⟩⟩

/-- Digits are read up to where they end. -/
theorem readDigits_digits
    {digits : List Char}
    (areDigits : ∀ digit ∈ digits, digit.isDigit = true)
    (ends : EndsDigits rest) :
    readDigits (digits.map some ++ rest) = (digits, rest) := by
  induction digits with
  | nil =>
      match rest, ends with
      | some character :: others, ends =>
          rw [List.map_nil, List.nil_append, readDigits, show character.isDigit = false from ends]
          rfl
      | none :: _, _ => rfl
      | [], _ => rfl
  | cons digit digits inductionHypothesis =>
      obtain ⟨isDigit, others⟩ := List.forall_mem_cons.mp areDigits
      rw [List.map_cons, List.cons_append, readDigits, inductionHypothesis others, isDigit]
      rfl

/-- The symbols of a fraction. -/
def fractionSymbols : Option (List Char) -> List Text.Symbol
  | none => []
  | some digits => some '.' :: digits.map some

/-- A fraction is read from its symbols, whatever follows that is neither a digit nor a
point. -/
theorem fractionSymbols_of_readFraction?
    {fraction : Option (List Char)}
    (read : readFraction? symbols = some (fraction, rest)) :
    symbols = fractionSymbols fraction ++ rest ∧
      (∀ symbol ∈ fractionSymbols fraction, symbol.any isSpace = false) ∧
      ∀ others, EndsDigits others -> (∀ behind, others ≠ some '.' :: behind) ->
        readFraction? (fractionSymbols fraction ++ others) = some (fraction, others) := by
  by_cases pointed : ∃ behind, symbols = some '.' :: behind
  · obtain ⟨behind, rfl⟩ := pointed
    rw [readFraction?] at read
    dsimp only at read
    split at read
    · cases read
    · rename_i someDigit
      cases read
      obtain ⟨split, areDigits⟩ := eq_of_readDigits (show readDigits behind = (_, _) from rfl)
      refine ⟨congrArg (some '.' :: ·) split, ?_, fun others ends _ => ?_⟩
      · exact List.forall_mem_cons.mpr ⟨rfl, solid_digits areDigits⟩
      · rw [fractionSymbols, List.cons_append, readFraction?,
          readDigits_digits areDigits ends]
        exact if_neg someDigit
  · rw [readFraction?] at read
    · cases read
      refine ⟨rfl, List.forall_mem_nil _, fun others _ unpointed => ?_⟩
      rw [fractionSymbols, List.nil_append, readFraction?]
      exact unpointed
    · exact fun behind same => pointed ⟨behind, same⟩

/-- A sign is read from its symbol if there is one, in front of any digit. -/
theorem exists_of_readSign
    {negative : Bool}
    (read : readSign symbols = (negative, rest)) :
    ∃ used, symbols = used ++ rest ∧ (∀ symbol ∈ used, symbol.any isSpace = false) ∧
      ∀ digit others, digit.isDigit = true ->
        readSign (used ++ some digit :: others) = (negative, some digit :: others) := by
  by_cases minus : ∃ behind, symbols = some '-' :: behind
  · obtain ⟨behind, rfl⟩ := minus
    cases read
    exact ⟨[some '-'], rfl, by decide, fun _ _ _ => rfl⟩
  by_cases plus : ∃ behind, symbols = some '+' :: behind
  · obtain ⟨behind, rfl⟩ := plus
    cases read
    exact ⟨[some '+'], rfl, by decide, fun _ _ _ => rfl⟩
  rw [readSign] at read
  · cases read
    refine ⟨[], rfl, List.forall_mem_nil _, fun digit others isDigit => ?_⟩
    rw [List.nil_append, readSign]
    · rintro _ same
      cases same
      exact absurd isDigit (by decide)
    · rintro _ same
      cases same
      exact absurd isDigit (by decide)
  · exact fun behind same => minus ⟨behind, same⟩
  · exact fun behind same => plus ⟨behind, same⟩

/-- The sign and the digits behind the mark of an exponent are read from their symbols. -/
theorem exists_of_readExponent?_mark
    {mark : Char}
    {exponent : Option Int}
    (marked : mark = 'e' ∨ mark = 'E')
    (read : readExponent? (some mark :: symbols) = some (exponent, rest)) :
    ∃ used, symbols = used ++ rest ∧ (∀ symbol ∈ used, symbol.any isSpace = false) ∧
      ∀ others, EndsDigits others ->
        readExponent? (some mark :: (used ++ others)) = some (exponent, others) := by
  obtain ⟨sign, split, solidSign, readsSign⟩ :=
    exists_of_readSign
      (show readSign symbols = ((readSign symbols).1, (readSign symbols).2) from rfl)
  obtain ⟨splitDigits, areDigits⟩ :=
    eq_of_readDigits (show readDigits (readSign symbols).2 = (_, _) from rfl)
  rw [readExponent?, if_pos marked] at read
  dsimp only at read
  split at read
  · cases read
  · rename_i someDigit
    cases read
    refine ⟨sign ++ (readDigits (readSign symbols).2).1.map some, ?_, ?_, fun others ends => ?_⟩
    · rw [List.append_assoc, <- splitDigits, <- split]
    · exact List.forall_mem_append.mpr ⟨solidSign, solid_digits areDigits⟩
    · obtain ⟨digit, digits, isCons⟩ := List.exists_cons_of_ne_nil someDigit
      have readsDigits := readDigits_digits areDigits ends
      rw [isCons] at areDigits
      have reads := readsSign digit (digits.map some ++ others) (areDigits _ List.mem_cons_self)
      rw [readExponent?, if_pos marked, List.append_assoc]
      rw [show some digit :: (digits.map some ++ others) = (digit :: digits).map some ++ others
        from rfl, <- isCons] at reads
      rw [reads]
      dsimp only
      rw [readsDigits]
      exact if_neg someDigit

/-- An exponent is read from its symbols, which start with its mark, whatever follows that
does not go on with a number. -/
theorem exists_of_readExponent?
    {exponent : Option Int}
    (read : readExponent? symbols = some (exponent, rest)) :
    ∃ used, symbols = used ++ rest ∧ (∀ symbol ∈ used, symbol.any isSpace = false) ∧
      ∀ others, EndsNumber others ->
        EndsDigits (used ++ others) ∧ (∀ behind, used ++ others ≠ some '.' :: behind) ∧
          readExponent? (used ++ others) = some (exponent, others) := by
  by_cases marked : ∃ mark behind, symbols = some mark :: behind ∧ (mark = 'e' ∨ mark = 'E')
  · obtain ⟨mark, behind, rfl, isMark⟩ := marked
    obtain ⟨used, split, solid, reads⟩ := exists_of_readExponent?_mark isMark read
    refine ⟨some mark :: used, congrArg (some mark :: ·) split, ?_, fun others ends => ?_⟩
    · refine List.forall_mem_cons.mpr ⟨?_, solid⟩
      rcases isMark with rfl | rfl <;> rfl
    · refine ⟨?_, ?_, reads others ends.endsDigits⟩
      · rcases isMark with rfl | rfl <;> rfl
      · rintro _ same
        cases same
        exact absurd isMark (by decide)
  · have unmarked : exponent = none ∧ rest = symbols := by
      rcases symbols with _ | ⟨_ | mark, behind⟩
      · cases read
        exact ⟨rfl, rfl⟩
      · cases read
        exact ⟨rfl, rfl⟩
      · rw [readExponent?, if_neg fun isMark => marked ⟨mark, behind, rfl, isMark⟩] at read
        cases read
        exact ⟨rfl, rfl⟩
    obtain ⟨rfl, rfl⟩ := unmarked
    refine ⟨[], rfl, List.forall_mem_nil _, fun others ends => ⟨ends.endsDigits, ?_, ?_⟩⟩
    · rintro _ rfl
      exact ends.2.1 rfl
    · rcases others with _ | ⟨_ | character, others⟩
      · rfl
      · rfl
      · rw [List.nil_append, readExponent?, if_neg (not_or.mpr ends.2.2)]

/-- The fraction of a number ends its digits, and so does what does without one. -/
theorem endsDigits_fractionSymbols
    (fraction : Option (List Char))
    {others : List Text.Symbol}
    (ends : EndsDigits others) :
    EndsDigits (fractionSymbols fraction ++ others) := by
  cases fraction with
  | none => exact ends
  | some digits => rfl

/-- A number without a sign is read from its symbols, whatever follows that does not go on
with a number. -/
theorem exists_of_readUnsigned?
    {negative : Bool}
    {json : Json}
    (read : readUnsigned? negative symbols = some (json, rest)) :
    ∃ used, symbols = used ++ rest ∧ used ≠ [] ∧
      (∀ symbol ∈ used, symbol.any isSpace = false) ∧ used.head? ≠ some (some '-') ∧
      ∀ others, EndsNumber others ->
        readUnsigned? negative (used ++ others) = some (json, others) := by
  obtain ⟨splitWhole, areDigits⟩ := eq_of_readDigits (show readDigits symbols = (_, _) from rfl)
  rw [readUnsigned?] at read
  dsimp only at read
  split at read
  · cases read
  · rename_i isWhole
    obtain ⟨⟨fraction, behindFraction⟩, readFraction, read⟩ :=
      Option.bind_eq_some_iff.mp read
    obtain ⟨⟨exponent, behindExponent⟩, readExponent, read⟩ :=
      Option.bind_eq_some_iff.mp read
    cases read
    obtain ⟨splitFraction, solidFraction, readsFraction⟩ :=
      fractionSymbols_of_readFraction? readFraction
    obtain ⟨power, splitPower, solidPower, readsPower⟩ := exists_of_readExponent? readExponent
    obtain ⟨digit, digits, isCons⟩ :=
      List.exists_cons_of_ne_nil fun none => isWhole (.inl none)
    refine ⟨(readDigits symbols).1.map some ++ (fractionSymbols fraction ++ power),
      ?_, ?_, ?_, ?_, fun others ends => ?_⟩
    · rw [List.append_assoc, List.append_assoc, <- splitPower, <- splitFraction, <- splitWhole]
    · rw [isCons]
      exact List.cons_ne_nil _ _
    · exact List.forall_mem_append.mpr ⟨solid_digits areDigits,
        List.forall_mem_append.mpr ⟨solidFraction, solidPower⟩⟩
    · rw [isCons] at areDigits ⊢
      have isDigit := areDigits digit List.mem_cons_self
      rintro same
      cases same
      exact absurd isDigit (by decide)
    · obtain ⟨endsDigits, unpointed, reads⟩ := readsPower others ends
      rw [readUnsigned?, List.append_assoc, List.append_assoc,
        readDigits_digits areDigits (endsDigits_fractionSymbols fraction endsDigits)]
      dsimp only
      rw [if_neg isWhole, readsFraction _ endsDigits unpointed]
      change (readExponent? (power ++ others)).bind _ = _
      rw [reads]
      rfl

/-- A number is read from its symbols, whatever follows that does not go on with it. -/
theorem exists_of_readNumber?
    {json : Json}
    (read : readNumber? symbols = some (json, rest)) :
    ∃ used, symbols = used ++ rest ∧ EndsSolidly used ∧
      ∀ others, EndsNumber others -> readNumber? (used ++ others) = some (json, others) := by
  by_cases signed : symbols.head? = some (some '-')
  · obtain ⟨behind, rfl⟩ := List.head?_eq_some_iff.mp signed
    obtain ⟨used, split, someSymbol, solid, -, reads⟩ := exists_of_readUnsigned? read
    exact ⟨some '-' :: used, congrArg (some '-' :: ·) split,
      (endsSolidly_of_forall someSymbol solid).cons _, reads⟩
  · rw [readNumber?_of_head?_ne signed] at read
    obtain ⟨used, split, someSymbol, solid, unsigned, reads⟩ := exists_of_readUnsigned? read
    refine ⟨used, split, endsSolidly_of_forall someSymbol solid, fun others ends => ?_⟩
    obtain ⟨first, behind, rfl⟩ := List.exists_cons_of_ne_nil someSymbol
    have front : (first :: (behind ++ others)).head? ≠ some (some '-') := unsigned
    exact (readNumber?_of_head?_ne front).trans (reads others ends)

/-! ## Texts and words -/

/-- A word is read from its symbols. -/
theorem eq_of_afterWord?
    {word : List Char}
    (read : afterWord? word symbols = some rest) :
    symbols = word.map some ++ rest := by
  rw [afterWord?] at read
  split at read
  · rename_i isPrefix
    obtain ⟨behind, rfl⟩ := List.isPrefixOf_iff_prefix.mp isPrefix
    have sameLength : word.length = (word.map some).length := (List.length_map some).symm
    rw [sameLength, List.drop_left] at read
    cases read
    rfl
  · cases read

/-- The parts of a text are read from their symbols and the quote behind them. -/
theorem exists_of_readParts?
    {parts : List TextPart}
    (read : readParts? symbols = some (parts, rest)) :
    ∃ used, symbols = used ++ some '"' :: rest ∧
      ∀ others, readParts? (used ++ some '"' :: others) = some (parts, others) := by
  induction symbols using readParts?.induct generalizing parts with
  | case1 => cases read
  | case2 behind =>
      rw [readParts?] at read
      cases read
      exact ⟨[], rfl, fun others => by rw [List.nil_append, readParts?]⟩
  | case3 first second third fourth behind inductionHypothesis =>
      rw [readParts?] at read
      obtain ⟨code, value, read⟩ := Option.bind_eq_some_iff.mp read
      obtain ⟨⟨parts, left⟩, readBehind, made⟩ := Option.bind_eq_some_iff.mp read
      cases made
      obtain ⟨used, split, reads⟩ := inductionHypothesis readBehind
      refine ⟨some '\\' :: some 'u' :: some first :: some second :: some third :: some fourth ::
        used, by rw [split]; rfl, fun others => ?_⟩
      simp only [List.cons_append]
      rw [readParts?, value, reads]
      rfl
  | case4 letter behind notUnit inductionHypothesis =>
      rw [readParts?] at read
      · obtain ⟨character, escaped, read⟩ := Option.bind_eq_some_iff.mp read
        obtain ⟨⟨parts, left⟩, readBehind, made⟩ := Option.bind_eq_some_iff.mp read
        cases made
        obtain ⟨used, split, reads⟩ := inductionHypothesis readBehind
        refine ⟨some '\\' :: some letter :: used, by rw [split]; rfl, fun others => ?_⟩
        simp only [List.cons_append]
        rw [readParts?, escaped, reads]
        · rfl
        · -- no letter that stands for a character introduces a code unit
          rintro _ _ _ _ _ - rfl
          exact Option.some_ne_none _ (escaped.symm.trans (by decide))
      · exact notUnit
  | case5 character behind notQuote _ notLetter control =>
      rw [readParts?, if_pos control] at read
      · cases read
      · exact notQuote
      · assumption
      · exact notLetter
  | case6 character behind notQuote _ notLetter plain inductionHypothesis =>
      rw [readParts?, if_neg plain] at read
      · obtain ⟨⟨parts, left⟩, readBehind, made⟩ := Option.bind_eq_some_iff.mp read
        cases made
        obtain ⟨used, split, reads⟩ := inductionHypothesis readBehind
        refine ⟨some character :: used, by rw [split]; rfl, fun others => ?_⟩
        rw [List.cons_append, readParts?, if_neg plain, reads]
        · rfl
        · exact notQuote
        · exact fun _ _ _ _ _ _ isMark => plain (.inr isMark)
        · exact fun _ _ _ isMark => plain (.inr isMark)
      · exact notQuote
      · assumption
      · exact notLetter
  | case7 behind inductionHypothesis =>
      rw [readParts?] at read
      obtain ⟨⟨parts, left⟩, readBehind, made⟩ := Option.bind_eq_some_iff.mp read
      cases made
      obtain ⟨used, split, reads⟩ := inductionHypothesis readBehind
      refine ⟨none :: used, by rw [split]; rfl, fun others => ?_⟩
      rw [List.cons_append, readParts?, reads]
      rfl

/-- A text is read from its symbols and the quote behind them. -/
theorem exists_of_readText?
    {text : Option String}
    (read : readText? symbols = some (text, rest)) :
    ∃ used, symbols = used ++ rest ∧ EndsSolidly used ∧
      ∀ others, readText? (used ++ others) = some (text, others) := by
  obtain ⟨⟨parts, behind⟩, readParts, made⟩ := Option.map_eq_some_iff.mp read
  cases made
  obtain ⟨used, split, reads⟩ := exists_of_readParts? readParts
  refine ⟨used ++ [some '"'], ?_, (endsSolidly_singleton rfl).append used, fun others => ?_⟩
  · rw [split, List.append_assoc, List.singleton_append]
  · rw [readText?, List.append_assoc, List.singleton_append, reads]
    rfl

/-! ## Values -/

/-- The value is read from the symbols, whatever follows that does not go on with a number. -/
structure Spells (used : List Text.Symbol) (json : Json) : Prop where
  solid : EndsSolidly used
  reads : ∀ fuel others, 2 * used.length ≤ fuel -> EndsNumber others ->
    readValue? fuel (used ++ others) = some (json, others)

/-- The items up to the end of a list are read from the symbols, whatever follows. -/
structure SpellsItems (used : List Text.Symbol) (items : List Json) : Prop where
  solid : EndsSolidly used
  reads : ∀ fuel others, 2 * used.length ≤ fuel ->
    readItems? fuel (used ++ others) = some (items, others)

/-- The members up to the end of an object are read from the symbols, whatever follows. -/
structure SpellsMembers
    (used : List Text.Symbol)
    (members : Option (List (String × Json))) : Prop where
  solid : EndsSolidly used
  reads : ∀ fuel others, 2 * used.length ≤ fuel ->
    readMembers? fuel (used ++ others) = some (members, others)

/-- What is read with some fuel is read from symbols in front of what is left. -/
structure ReadsSymbols (fuel : Nat) : Prop where
  value : ∀ symbols json rest, readValue? fuel symbols = some (json, rest) ->
    ∃ used, symbols = used ++ rest ∧ Spells used json
  items : ∀ symbols items rest, readItems? fuel symbols = some (items, rest) ->
    ∃ used, symbols = used ++ rest ∧ SpellsItems used items
  members : ∀ symbols members rest, readMembers? fuel symbols = some (members, rest) ->
    ∃ used, symbols = used ++ rest ∧ SpellsMembers used members

/-- Some symbols need some fuel. -/
theorem EndsSolidly.exists_fuel
    {used : List Text.Symbol}
    (solid : EndsSolidly used)
    (enough : 2 * used.length ≤ fuel) :
    ∃ less, fuel = less + 1 := by
  obtain ⟨first, others, rfl⟩ := solid.exists_cons
  exact ⟨fuel - 1, by rw [List.length_cons] at enough; omega⟩

/-- The symbols in front of which white space was skipped are found again behind it. -/
theorem exists_gap_of_skipSpace
    {used : List Text.Symbol}
    (skipped : skipSpace symbols = used ++ rest)
    (solid : EndsSolidly used) :
    ∃ gap, symbols = gap ++ (used ++ rest) ∧
      ∀ others, skipSpace (gap ++ (used ++ others)) = used ++ others := by
  obtain ⟨first, behind, rfl⟩ := solid.exists_cons
  obtain ⟨gap, split, spaces, notSpace⟩ := exists_gap skipped
  refine ⟨gap, split, fun others => ?_⟩
  rw [spaces.skipSpace_append]
  exact List.dropWhile_cons_of_neg (Bool.eq_false_iff.mp notSpace)

/-- White space and what ends a number behind it are found again. -/
theorem exists_gap_of_mark
    {mark : Char}
    (skipped : skipSpace symbols = some mark :: rest)
    (ends : EndsNumber [some mark]) :
    ∃ gap, symbols = gap ++ some mark :: rest ∧
      ∀ others, skipSpace (gap ++ some mark :: others) = some mark :: others ∧
        EndsNumber (gap ++ some mark :: others) := by
  obtain ⟨gap, split, spaces, notSpace⟩ := exists_gap skipped
  refine ⟨gap, split, fun others => ⟨?_, spaces.endsNumber_append ends⟩⟩
  rw [spaces.skipSpace_append]
  exact List.dropWhile_cons_of_neg (Bool.eq_false_iff.mp notSpace)

/-- The only item of a list is read up to its end. -/
theorem readItems?_of_end
    {item : Json}
    {behind : List Text.Symbol}
    (read : readValue? fuel symbols = some (item, behind))
    (closed : skipSpace behind = some ']' :: rest) :
    readItems? (fuel + 1) symbols = some ([item], rest) := by
  rw [readItems?, read, Option.bind_eq_bind, Option.bind_some]
  dsimp only
  rw [closed]
  rfl

/-- An item is read in front of others. -/
theorem readItems?_of_comma
    {item : Json}
    {items : List Json}
    {behind next : List Text.Symbol}
    (read : readValue? fuel symbols = some (item, behind))
    (parted : skipSpace behind = some ',' :: next)
    (readOthers : readItems? fuel (skipSpace next) = some (items, rest)) :
    readItems? (fuel + 1) symbols = some (item :: items, rest) := by
  rw [readItems?, read, Option.bind_eq_bind, Option.bind_some]
  dsimp only
  rw [parted]
  change (readItems? fuel (skipSpace next)).map _ = _
  rw [readOthers]
  rfl

theorem ReadsSymbols.readItems
    {items : List Json}
    (reads : ReadsSymbols fuel)
    (read : readItems? (fuel + 1) symbols = some (items, rest)) :
    ∃ used, symbols = used ++ rest ∧ SpellsItems used items := by
  rw [readItems?] at read
  obtain ⟨⟨item, behind⟩, readItem, goesOn⟩ := Option.bind_eq_some_iff.mp read
  obtain ⟨used, rfl, spells⟩ := reads.value _ _ _ readItem
  dsimp only at goesOn
  split at goesOn
  · rename_i left skipped
    cases goesOn
    obtain ⟨gap, rfl, ends⟩ := exists_gap_of_mark skipped ⟨rfl, by decide⟩
    refine ⟨used ++ (gap ++ [some ']']), by simp, ?_, fun fuel others enough => ?_⟩
    · exact ((endsSolidly_singleton rfl).append gap).append used
    · simp only [List.length_append, List.length_singleton] at enough
      obtain ⟨less, rfl⟩ : ∃ less, fuel = less + 1 := ⟨fuel - 1, by omega⟩
      rw [List.append_assoc, List.append_assoc, List.singleton_append]
      exact readItems?_of_end (spells.reads less _ (by omega) (ends others).2) (ends others).1
  · rename_i left skipped
    obtain ⟨⟨items, end_⟩, readOthers, made⟩ := Option.map_eq_some_iff.mp goesOn
    cases made
    obtain ⟨gap, rfl, ends⟩ := exists_gap_of_mark skipped ⟨rfl, by decide⟩
    obtain ⟨usedBehind, splitBehind, spellsItems⟩ := reads.items _ _ _ readOthers
    obtain ⟨space, rfl, skips⟩ := exists_gap_of_skipSpace splitBehind spellsItems.solid
    refine ⟨used ++ (gap ++ some ',' :: (space ++ usedBehind)), by simp, ?_,
      fun fuel others enough => ?_⟩
    · exact (((spellsItems.solid.append space).cons _).append gap).append used
    · simp only [List.length_append, List.length_cons] at enough
      obtain ⟨less, rfl⟩ : ∃ less, fuel = less + 1 := ⟨fuel - 1, by omega⟩
      rw [List.append_assoc, List.append_assoc, List.cons_append, List.append_assoc]
      refine readItems?_of_comma (spells.reads less _ (by omega) (ends _).2) (ends _).1 ?_
      rw [skips]
      exact spellsItems.reads less others (by omega)
  · cases goesOn

/-- The only member of an object is read up to its end. -/
theorem readMembers?_of_end
    {key : Option String}
    {value : Json}
    {behindKey behindColon behind : List Text.Symbol}
    (readKey : readText? symbols = some (key, behindKey))
    (colon : skipSpace behindKey = some ':' :: behindColon)
    (read : readValue? fuel (skipSpace behindColon) = some (value, behind))
    (closed : skipSpace behind = some '\x7d' :: rest) :
    readMembers? (fuel + 1) (some '"' :: symbols) =
      some ((key.map fun key => (key, value)).map ([·]), rest) := by
  rw [readMembers?, readKey, Option.bind_eq_bind, Option.bind_some]
  dsimp only
  rw [colon]
  change ((readValue? fuel (skipSpace behindColon)).bind _) = _
  rw [read, Option.bind_some]
  dsimp only
  rw [closed]
  rfl

/-- A member is read in front of others. -/
theorem readMembers?_of_comma
    {key : Option String}
    {value : Json}
    {members : Option (List (String × Json))}
    {behindKey behindColon behind next : List Text.Symbol}
    (readKey : readText? symbols = some (key, behindKey))
    (colon : skipSpace behindKey = some ':' :: behindColon)
    (read : readValue? fuel (skipSpace behindColon) = some (value, behind))
    (parted : skipSpace behind = some ',' :: next)
    (readOthers : readMembers? fuel (skipSpace next) = some (members, rest)) :
    readMembers? (fuel + 1) (some '"' :: symbols) =
      some ((do some ((<- key.map fun key => (key, value)) :: (<- members))), rest) := by
  rw [readMembers?, readKey, Option.bind_eq_bind, Option.bind_some]
  dsimp only
  rw [colon]
  change ((readValue? fuel (skipSpace behindColon)).bind _) = _
  rw [read, Option.bind_some]
  dsimp only
  rw [parted]
  change (readMembers? fuel (skipSpace next)).map _ = _
  rw [readOthers]
  rfl

theorem ReadsSymbols.readMembers
    {members : Option (List (String × Json))}
    (reads : ReadsSymbols fuel)
    (read : readMembers? (fuel + 1) symbols = some (members, rest)) :
    ∃ used, symbols = used ++ rest ∧ SpellsMembers used members := by
  obtain ⟨quoted, rfl⟩ : ∃ quoted, symbols = some '"' :: quoted := by
    by_contra unquoted
    rw [readMembers?] at read
    · cases read
    · rintro _ behind - same
      exact unquoted ⟨behind, same⟩
  rw [readMembers?] at read
  obtain ⟨⟨key, behindKey⟩, readKey, read⟩ := Option.bind_eq_some_iff.mp read
  obtain ⟨behindColon, colon, read⟩ := Option.bind_eq_some_iff.mp read
  obtain ⟨⟨value, behind⟩, readValue, goesOn⟩ := Option.bind_eq_some_iff.mp read
  obtain ⟨usedKey, rfl, solidKey, readsKey⟩ := exists_of_readText? readKey
  obtain ⟨gapKey, rfl, endsKey⟩ := exists_gap_of_mark (eq_of_afterWord? colon) ⟨rfl, by decide⟩
  obtain ⟨used, splitValue, spells⟩ := reads.value _ _ _ readValue
  obtain ⟨gapValue, rfl, skipsValue⟩ := exists_gap_of_skipSpace splitValue spells.solid
  dsimp only at goesOn
  split at goesOn
  · rename_i left skipped
    cases goesOn
    obtain ⟨gap, rfl, ends⟩ := exists_gap_of_mark skipped ⟨rfl, by decide⟩
    refine ⟨some '"' :: (usedKey ++ (gapKey ++ some ':' ::
      (gapValue ++ (used ++ (gap ++ [some '\x7d']))))), by simp, ?_, fun fuel others enough => ?_⟩
    · exact (((((((endsSolidly_singleton rfl).append gap).append used).append
        gapValue).cons _).append gapKey).append usedKey).cons _
    · simp only [List.length_append, List.length_cons, List.length_nil] at enough
      obtain ⟨less, rfl⟩ : ∃ less, fuel = less + 1 := ⟨fuel - 1, by omega⟩
      simp only [List.cons_append, List.append_assoc, List.nil_append]
      refine readMembers?_of_end (readsKey _) (endsKey _).1 ?_ (ends others).1
      rw [skipsValue]
      exact spells.reads less _ (by omega) (ends others).2
  · rename_i left skipped
    obtain ⟨⟨members, end_⟩, readOthers, made⟩ := Option.map_eq_some_iff.mp goesOn
    cases made
    obtain ⟨gap, rfl, ends⟩ := exists_gap_of_mark skipped ⟨rfl, by decide⟩
    obtain ⟨usedBehind, splitBehind, spellsMembers⟩ := reads.members _ _ _ readOthers
    obtain ⟨space, rfl, skips⟩ := exists_gap_of_skipSpace splitBehind spellsMembers.solid
    refine ⟨some '"' :: (usedKey ++ (gapKey ++ some ':' ::
      (gapValue ++ (used ++ (gap ++ some ',' :: (space ++ usedBehind)))))), by simp, ?_,
      fun fuel others enough => ?_⟩
    · exact ((((((((spellsMembers.solid.append space).cons _).append gap).append used).append
        gapValue).cons _).append gapKey).append usedKey).cons _
    · simp only [List.length_append, List.length_cons] at enough
      obtain ⟨less, rfl⟩ : ∃ less, fuel = less + 1 := ⟨fuel - 1, by omega⟩
      simp only [List.cons_append, List.append_assoc]
      have parted := ends (space ++ (usedBehind ++ others))
      refine readMembers?_of_comma (readsKey _) (endsKey _).1 ?_ parted.1 ?_
      · rw [skipsValue]
        exact spells.reads less _ (by omega) parted.2
      · rw [skips]
        exact spellsMembers.reads less others (by omega)
  · cases goesOn

/-- A list ends where it starts. -/
theorem readValue?_of_end
    (closed : skipSpace symbols = some ']' :: rest) :
    readValue? (fuel + 1) (some '[' :: symbols) = some (.list [], rest) := by
  rw [readValue?, if_neg (by decide), if_pos rfl, closed]
  rfl

/-- A list that does not end where it starts has items. -/
theorem readValue?_of_items
    {items : List Json}
    (unclosed : ∀ behind, skipSpace symbols ≠ some ']' :: behind)
    (read : readItems? fuel (skipSpace symbols) = some (items, rest)) :
    readValue? (fuel + 1) (some '[' :: symbols) = some (.list items, rest) := by
  rw [readValue?, if_neg (by decide), if_pos rfl]
  split
  · rename_i behind closed
    exact absurd closed (unclosed behind)
  · rw [read]
    rfl

/-- An object ends where it starts. -/
theorem readValue?_of_brace
    (closed : skipSpace symbols = some '\x7d' :: rest) :
    readValue? (fuel + 1) (some '\x7b' :: symbols) = some (.object [], rest) := by
  rw [readValue?, if_neg (by decide), if_neg (by decide), if_pos rfl, closed]
  rfl

/-- An object that does not end where it starts has members. -/
theorem readValue?_of_members
    {members : Option (List (String × Json))}
    (unclosed : ∀ behind, skipSpace symbols ≠ some '\x7d' :: behind)
    (read : readMembers? fuel (skipSpace symbols) = some (members, rest)) :
    readValue? (fuel + 1) (some '\x7b' :: symbols) =
      some (members.elim .unreadable .object, rest) := by
  rw [readValue?, if_neg (by decide), if_neg (by decide), if_pos rfl]
  split
  · rename_i behind closed
    exact absurd closed (unclosed behind)
  · rw [read]
    cases members <;> rfl

/-- Symbols start as they do in front of others. -/
theorem EndsSolidly.ne_cons
    {used others : List Text.Symbol}
    {mark : Text.Symbol}
    (solid : EndsSolidly used)
    (apart : ∀ behind, used ++ rest ≠ mark :: behind) :
    ∀ behind, used ++ others ≠ mark :: behind := by
  obtain ⟨first, left, rfl⟩ := solid.exists_cons
  intro behind same
  cases same
  exact apart (left ++ rest) rfl

theorem ReadsSymbols.readList
    {json : Json}
    (reads : ReadsSymbols fuel)
    (read : readValue? (fuel + 1) (some '[' :: symbols) = some (json, rest)) :
    ∃ used, some '[' :: symbols = used ++ rest ∧ Spells used json := by
  rw [readValue?, if_neg (by decide), if_pos rfl] at read
  split at read
  · rename_i left closed
    cases read
    obtain ⟨gap, rfl, ends⟩ := exists_gap_of_mark closed ⟨rfl, by decide⟩
    refine ⟨some '[' :: (gap ++ [some ']']), by simp, ?_, fun fuel others enough _ => ?_⟩
    · exact ((endsSolidly_singleton rfl).append gap).cons _
    · rw [List.length_cons] at enough
      obtain ⟨less, rfl⟩ : ∃ less, fuel = less + 1 := ⟨fuel - 1, by omega⟩
      rw [List.cons_append, List.append_assoc, List.singleton_append]
      exact readValue?_of_end (ends others).1
  · rename_i unclosed
    obtain ⟨⟨items, behind⟩, readItems, made⟩ := Option.map_eq_some_iff.mp read
    cases made
    obtain ⟨used, split, spells⟩ := reads.items _ _ _ readItems
    obtain ⟨gap, rfl, skips⟩ := exists_gap_of_skipSpace split spells.solid
    refine ⟨some '[' :: (gap ++ used), by simp, ?_, fun fuel others enough _ => ?_⟩
    · exact (spells.solid.append gap).cons _
    · rw [List.length_cons, List.length_append] at enough
      obtain ⟨less, rfl⟩ : ∃ less, fuel = less + 1 := ⟨fuel - 1, by omega⟩
      have readAgain := spells.reads less others (by omega)
      rw [<- skips] at readAgain
      rw [List.cons_append, List.append_assoc]
      refine readValue?_of_items ?_ readAgain
      rw [skips]
      exact spells.solid.ne_cons (split ▸ unclosed)

theorem ReadsSymbols.readObject
    {json : Json}
    (reads : ReadsSymbols fuel)
    (read : readValue? (fuel + 1) (some '\x7b' :: symbols) = some (json, rest)) :
    ∃ used, some '\x7b' :: symbols = used ++ rest ∧ Spells used json := by
  rw [readValue?, if_neg (by decide), if_neg (by decide), if_pos rfl] at read
  split at read
  · rename_i left closed
    cases read
    obtain ⟨gap, rfl, ends⟩ := exists_gap_of_mark closed ⟨rfl, by decide⟩
    refine ⟨some '\x7b' :: (gap ++ [some '\x7d']), by simp, ?_, fun fuel others enough _ => ?_⟩
    · exact ((endsSolidly_singleton rfl).append gap).cons _
    · rw [List.length_cons] at enough
      obtain ⟨less, rfl⟩ : ∃ less, fuel = less + 1 := ⟨fuel - 1, by omega⟩
      rw [List.cons_append, List.append_assoc, List.singleton_append]
      exact readValue?_of_brace (ends others).1
  · rename_i unclosed
    obtain ⟨⟨members, behind⟩, readMembers, made⟩ := Option.map_eq_some_iff.mp read
    cases made
    obtain ⟨used, split, spells⟩ := reads.members _ _ _ readMembers
    obtain ⟨gap, rfl, skips⟩ := exists_gap_of_skipSpace split spells.solid
    refine ⟨some '\x7b' :: (gap ++ used), by simp, ?_, fun fuel others enough _ => ?_⟩
    · exact (spells.solid.append gap).cons _
    · rw [List.length_cons, List.length_append] at enough
      obtain ⟨less, rfl⟩ : ∃ less, fuel = less + 1 := ⟨fuel - 1, by omega⟩
      have readAgain := spells.reads less others (by omega)
      rw [<- skips] at readAgain
      rw [List.cons_append, List.append_assoc]
      refine (readValue?_of_members ?_ readAgain).trans (by cases members <;> rfl)
      rw [skips]
      exact spells.solid.ne_cons (split ▸ unclosed)

/-- A text is read as a value from its symbols. -/
theorem exists_of_quoted
    {json : Json}
    (read : readValue? (fuel + 1) (some '"' :: symbols) = some (json, rest)) :
    ∃ used, some '"' :: symbols = used ++ rest ∧ Spells used json := by
  rw [readValue?, if_pos rfl] at read
  obtain ⟨⟨text, behind⟩, readText, made⟩ := Option.map_eq_some_iff.mp read
  cases made
  obtain ⟨used, rfl, solid, readsText⟩ := exists_of_readText? readText
  refine ⟨some '"' :: used, rfl, solid.cons _, fun fuel others enough _ => ?_⟩
  obtain ⟨less, rfl⟩ := (solid.cons (some '"')).exists_fuel enough
  rw [List.cons_append, readValue?, if_pos rfl, readsText]
  rfl

/-- A word is read as a value from its symbols. -/
theorem exists_of_word
    {first : Char}
    {word : List Char}
    {leaf json : Json}
    (means : ∀ fuel rest, readValue? (fuel + 1) (some first :: rest) =
      (afterWord? word rest).map fun rest => (leaf, rest))
    (solid : EndsSolidly (word.map some))
    (read : readValue? (fuel + 1) (some first :: symbols) = some (json, rest)) :
    ∃ used, some first :: symbols = used ++ rest ∧ Spells used json := by
  rw [means] at read
  obtain ⟨behind, readWord, made⟩ := Option.map_eq_some_iff.mp read
  cases made
  refine ⟨_, congrArg (some first :: ·) (eq_of_afterWord? readWord), solid.cons _,
    fun fuel others enough _ => ?_⟩
  obtain ⟨less, rfl⟩ := (solid.cons (some first)).exists_fuel enough
  rw [List.cons_append, means, afterWord?_append]
  rfl

theorem ReadsSymbols.readValue
    {json : Json}
    (reads : ReadsSymbols fuel)
    (read : readValue? (fuel + 1) symbols = some (json, rest)) :
    ∃ used, symbols = used ++ rest ∧ Spells used json := by
  match symbols, read with
  | [], read => cases read
  | none :: _, read => cases read
  | some first :: symbols, read =>
      -- the first symbol tells texts, lists, objects, words and numbers apart
      by_cases quote : first = '"'
      · subst quote
        exact exists_of_quoted read
      by_cases bracket : first = '['
      · subst bracket
        exact reads.readList read
      by_cases brace : first = '\x7b'
      · subst brace
        exact reads.readObject read
      by_cases startsNull : first = 'n'
      · subst startsNull
        exact exists_of_word (fun _ _ => by rw [readValue?]; rfl)
          ⟨[some 'u', some 'l'], some 'l', rfl, rfl⟩ read
      by_cases startsTrue : first = 't'
      · subst startsTrue
        exact exists_of_word (fun _ _ => by rw [readValue?]; rfl)
          ⟨[some 'r', some 'u'], some 'e', rfl, rfl⟩ read
      by_cases startsFalse : first = 'f'
      · subst startsFalse
        exact exists_of_word (fun _ _ => by rw [readValue?]; rfl)
          ⟨[some 'a', some 'l', some 's'], some 'e', rfl, rfl⟩ read
      rw [readValue?, if_neg quote, if_neg bracket, if_neg brace, if_neg startsNull,
        if_neg startsTrue, if_neg startsFalse] at read
      obtain ⟨used, isSplit, solid, readsNumber⟩ := exists_of_readNumber? read
      refine ⟨used, isSplit, solid, fun fuel others enough ends => ?_⟩
      obtain ⟨less, rfl⟩ := solid.exists_fuel enough
      have readAgain := readsNumber others ends
      obtain ⟨first, behind, isFirst, numeric⟩ := exists_first_of_readNumber? readAgain
      rw [<- readAgain, isFirst, readValue?_numeric less behind numeric]

/-- Whatever the fuel, a value is read from symbols in front of what is left. -/
theorem readsSymbols (fuel : Nat) : ReadsSymbols fuel := by
  induction fuel with
  | zero =>
      exact {
        value := fun symbols json rest read => by
          rw [readValue?] at read
          · cases read
          · exact fun fuel first rest same => by cases same
        items := fun symbols items rest read => by cases read
        members := fun symbols members rest read => by
          rw [readMembers?] at read
          · cases read
          · exact fun fuel rest same => by cases same }
  | succ fuel inductionHypothesis =>
      exact {
        value := fun _ _ _ => inductionHypothesis.readValue
        items := fun _ _ _ => inductionHypothesis.readItems
        members := fun _ _ _ => inductionHypothesis.readMembers }

/-- Symbols stand for a value exactly if it is read from them, with nothing but white space
around what it is read from. -/
theorem ofSymbols?_eq_some_iff {json : Json} :
    ofSymbols? symbols = some json ↔
      ∃ used behind, skipSpace symbols = used ++ behind ∧ AreSpaces behind ∧
        Spells used json := by
  rw [ofSymbols?]
  constructor
  · intro found
    split at found
    · rename_i value behind read
      split at found
      · rename_i nothing
        cases found
        obtain ⟨used, isSplit, spells⟩ := (readsSymbols _).value _ _ _ read
        exact ⟨used, behind, isSplit, skipSpace_eq_nil_iff.mp nothing, spells⟩
      · cases found
    · cases found
  · rintro ⟨used, behind, isSplit, spaces, spells⟩
    have fewer : (skipSpace symbols).length ≤ symbols.length := List.length_dropWhile_le _ _
    have ends : EndsNumber (behind ++ []) := spaces.endsNumber_append trivial
    rw [List.append_nil] at ends
    rw [isSplit, List.length_append] at fewer
    rw [isSplit, spells.reads _ behind (by omega) ends]
    exact if_pos (skipSpace_eq_nil_iff.mpr spaces)

/-- White space behind symbols is not part of what they stand for. -/
theorem ofSymbols?_concat {last : Text.Symbol} (space : last.any isSpace = true) :
    ofSymbols? (symbols ++ [last]) = ofSymbols? symbols := by
  have isSpaces : AreSpaces [last] := List.forall_mem_singleton.mpr space
  apply Option.ext
  intro json
  rw [ofSymbols?_eq_some_iff, ofSymbols?_eq_some_iff]
  by_cases nothing : skipSpace symbols = []
  · have blank : skipSpace (symbols ++ [last]) = [] := by
      rw [(skipSpace_eq_nil_iff.mp nothing).skipSpace_append]
      exact skipSpace_eq_nil_iff.mpr isSpaces
    rw [nothing, blank]
  · have skipped : skipSpace (symbols ++ [last]) = skipSpace symbols ++ [last] := by
      obtain ⟨first, others, isCons⟩ := List.exists_cons_of_ne_nil nothing
      obtain ⟨gap, rfl, spaces, solid⟩ := exists_gap isCons
      rw [isCons, List.append_assoc, spaces.skipSpace_append]
      exact List.dropWhile_cons_of_neg (Bool.eq_false_iff.mp solid)
    rw [skipped]
    constructor
    · rintro ⟨used, behind, isSplit, spaces, spells⟩
      -- the value does not end in white space, so the last symbol is behind it
      rcases List.eq_nil_or_concat behind with rfl | ⟨front, final, rfl⟩
      · obtain ⟨front, final, rfl, solid⟩ := spells.solid
        rw [List.append_nil] at isSplit
        cases (List.append_inj' isSplit rfl).2
        exact absurd (solid.symm.trans space) Bool.false_ne_true
      · rw [List.concat_eq_append, <- List.append_assoc] at isSplit
        rw [List.concat_eq_append] at spaces
        exact ⟨used, front, (List.append_inj' isSplit rfl).1,
          fun symbol member => spaces symbol (List.mem_append_left _ member), spells⟩
    · rintro ⟨used, behind, isSplit, spaces, spells⟩
      refine ⟨used, behind ++ [last], ?_, List.forall_mem_append.mpr ⟨spaces, isSpaces⟩, spells⟩
      rw [isSplit, List.append_assoc]

/-- White space behind a text is not part of what it stands for. -/
theorem parse?_concat {text : List Char} {last : Char} (space : isSpace last = true) :
    parse? (String.ofList (text ++ [last])) = parse? (String.ofList text) := by
  rw [parse?, parse?, String.toList_ofList, String.toList_ofList, List.map_append]
  exact ofSymbols?_concat space

end Json
end LineMetrics
