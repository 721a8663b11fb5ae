import LineMetrics.Json.Text

/-!
# Written text is read back

A written character is read as one part of a text: as the character itself, or as its
code unit if it is a control character without a letter of its own. The parts of a written
text are then put together to the text again, whatever follows its closing quote.
-/

namespace LineMetrics
namespace Json

/-- The letters behind a backslash stand for the characters that need them. -/
theorem escapedCharacter?_of_escapeLetter?
    {character letter : Char}
    (escaped : escapeLetter? character = some letter) :
    letter ≠ 'u' ∧ escapedCharacter? letter = some character := by
  have entries : ∀ entry ∈ escapes, entry.2 ≠ 'u' ∧ escapedCharacter? entry.2 = some entry.1 := by
    decide
  rw [escapeLetter?] at escaped
  split at escaped
  · cases escaped
  · obtain ⟨before, after, isSplit, -⟩ := List.lookup_eq_some_iff.mp escaped
    exact entries (character, letter) (isSplit ▸ List.mem_append_right _ List.mem_cons_self)

/-- A character without a letter is neither a quote nor a backslash. -/
theorem plain_of_escapeLetter?
    {character : Char}
    (plain : escapeLetter? character = none) :
    character ≠ '"' ∧ character ≠ '\\' := by
  constructor
  · rintro rfl
    exact absurd plain (by decide)
  · rintro rfl
    exact absurd plain (by decide)

/-- A control character is written with four hexadecimal digits, which are read as its
number. -/
theorem hexDigits_control {code : Nat} (control : code < 32) :
    List.replicate (4 - (Nat.toDigits 16 code).length) '0' ++ Nat.toDigits 16 code =
        ['0', '0', Nat.digitChar (code / 16), Nat.digitChar (code % 16)] ∧
      hexValue? ['0', '0', Nat.digitChar (code / 16), Nat.digitChar (code % 16)] =
        some code := by
  have all : ∀ code : Fin 32,
      List.replicate (4 - (Nat.toDigits 16 code).length) '0' ++ Nat.toDigits 16 code =
          ['0', '0', Nat.digitChar (code / 16), Nat.digitChar (code % 16)] ∧
        hexValue? ['0', '0', Nat.digitChar (code / 16), Nat.digitChar (code % 16)] =
          some code.val := by
    decide
  exact all ⟨code, control⟩

/-- The part as which a written character is read. -/
def writtenPart (character : Char) : TextPart :=
  if escapeLetter? character = none ∧ character < ' ' then .unit character.toNat
  else .character character

/-- A written character is read as its part. -/
theorem readParts?_writtenCharacter (character : Char) (rest : List Text.Symbol) :
    readParts? ((writtenCharacter character).map some ++ rest) =
      (readParts? rest).map fun (parts, rest) => (writtenPart character :: parts, rest) := by
  rw [writtenCharacter, writtenPart]
  cases escaped : escapeLetter? character with
  | some letter =>
      obtain ⟨notUnit, stands⟩ := escapedCharacter?_of_escapeLetter? escaped
      change readParts? (some '\\' :: some letter :: rest) = _
      rw [if_neg fun both => Option.some_ne_none letter both.1, readParts?, stands]
      · cases readParts? rest <;> rfl
      · exact fun _ _ _ _ _ _ => notUnit
  | none =>
      dsimp only
      by_cases control : character < ' '
      · have small : character.toNat < 32 := control
        obtain ⟨digits, value⟩ := hexDigits_control small
        rw [if_pos control, if_pos ⟨rfl, control⟩, digits]
        change readParts? (some '\\' :: some 'u' :: some '0' :: some '0' :: some _ ::
          some _ :: rest) = _
        rw [readParts?, value]
        cases readParts? rest <;> rfl
      · obtain ⟨notQuote, notBackslash⟩ := plain_of_escapeLetter? escaped
        rw [if_neg control, if_neg fun both => control both.2]
        change readParts? (some character :: rest) = _
        rw [readParts?, if_neg (not_or.mpr ⟨control, notBackslash⟩)]
        · cases readParts? rest <;> rfl
        · exact notQuote
        · exact fun _ _ _ _ _ _ => notBackslash
        · exact fun _ _ _ => notBackslash

/-- Written characters are read as their parts, up to a closing quote. -/
theorem readParts?_writtenCharacters (characters : List Char) (rest : List Text.Symbol) :
    readParts? ((characters.flatMap writtenCharacter).map some ++ some '"' :: rest) =
      some (characters.map writtenPart, rest) := by
  induction characters with
  | nil => rw [List.flatMap_nil, List.map_nil, List.nil_append, readParts?, List.map_nil]
  | cons character characters inductionHypothesis =>
      rw [List.flatMap_cons, List.map_append, List.append_assoc, readParts?_writtenCharacter,
        inductionHypothesis]
      rfl

/-- The parts of written characters are put together to the characters. -/
theorem joinParts?_writtenParts (characters : List Char) :
    joinParts? (characters.map writtenPart) = some characters := by
  induction characters with
  | nil => rfl
  | cons character characters inductionHypothesis =>
      rw [List.map_cons, writtenPart]
      split
      · rename_i control
        have small : character.toNat < 32 := control.2
        have notTrailing : isTrailingUnit character.toNat = false := by
          simp only [isTrailingUnit, Bool.and_eq_false_iff, decide_eq_false_iff_not]
          omega
        have notLeading : isLeadingUnit character.toNat = false := by
          simp only [isLeadingUnit, Bool.and_eq_false_iff, decide_eq_false_iff_not]
          omega
        rw [joinParts?.eq_def]
        simp only [notTrailing, notLeading, Bool.false_eq_true, if_false, inductionHypothesis,
          Option.map_some, Char.ofNat_toNat]
      · rw [joinParts?, inductionHypothesis]
        rfl

/-- A written text is read back behind its opening quote, whatever follows it. -/
theorem readText?_writtenText (text : String) (rest : List Text.Symbol) :
    ∃ symbols, (writtenText text).map some ++ rest = some '"' :: symbols ∧
      readText? symbols = some (some text, rest) := by
  refine ⟨(text.toList.flatMap writtenCharacter).map some ++ some '"' :: rest, ?_, ?_⟩
  · rw [writtenText, List.map_cons, List.map_append, List.cons_append, List.append_assoc]
    rfl
  · rw [readText?, readParts?_writtenCharacters, Option.map_some]
    dsimp only
    rw [joinParts?_writtenParts, Option.map_some, String.ofList_toList]

end Json
end LineMetrics
