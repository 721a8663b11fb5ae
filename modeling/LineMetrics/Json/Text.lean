import LineMetrics.Json
import LineMetrics.Text.Symbols

/-!
# Text in JSON

A text stands between quotes. Written text marks quotes, backslashes and control
characters, and nothing else. Read text may mark any character by the code units
that encode it, where a character outside the basic plane needs two of them. Stray
bytes do not end a text, but leave it without a meaning.
-/

namespace LineMetrics
namespace Json

/-- The letters that stand for characters behind a backslash. -/
def escapes : List (Char × Char) := [
  ('"', '"'), ('\\', '\\'), ('\x08', 'b'), ('\x0c', 'f'), ('\n', 'n'), ('\r', 'r'),
  ('\t', 't'), ('/', '/')]

/-- The letter that a written text needs for a character. -/
def escapeLetter? (character : Char) : Option Char :=
  if character = '/' then none else escapes.lookup character

/-- The character that a letter behind a backslash stands for. -/
def escapedCharacter? (letter : Char) : Option Char :=
  (escapes.find? fun entry => entry.2 = letter).map Prod.fst

/-- A character as it stands in written text. -/
def writtenCharacter (character : Char) : List Char :=
  match escapeLetter? character with
  | some letter => ['\\', letter]
  | none =>
      if character < ' ' then
        let digits := Nat.toDigits 16 character.toNat
        '\\' :: 'u' :: (List.replicate (4 - digits.length) '0' ++ digits)
      else [character]

/-- A text between quotes. -/
def writtenText (text : String) : List Char :=
  '"' :: (text.toList.flatMap writtenCharacter ++ ['"'])

/-- A part of the text between two quotes: a character, a code unit given by its
number, or a stray byte. -/
inductive TextPart
  | character (value : Char)
  | unit (code : Nat)
  | stray
  deriving DecidableEq

/-- The value of a hexadecimal digit. -/
def hexDigitValue? (digit : Char) : Option Nat :=
  if digit.isDigit then some (digit.toNat - '0'.toNat)
  else if 'a' ≤ digit ∧ digit ≤ 'f' then some (digit.toNat - 'a'.toNat + 10)
  else if 'A' ≤ digit ∧ digit ≤ 'F' then some (digit.toNat - 'A'.toNat + 10)
  else none

/-- The value of hexadecimal digits. -/
def hexValue? (digits : List Char) : Option Nat :=
  digits.foldlM (fun value digit => (hexDigitValue? digit).map (value * 16 + ·)) 0

/-- Read the parts of a text up to its closing quote, and what follows it. -/
def readParts? : List Text.Symbol -> Option (List TextPart × List Text.Symbol)
  | [] => none
  | some '"' :: rest => some ([], rest)
  | some '\\' :: some 'u' :: some first :: some second :: some third :: some fourth ::
      rest => do
        let code <- hexValue? [first, second, third, fourth]
        let (parts, rest) <- readParts? rest
        some (.unit code :: parts, rest)
  | some '\\' :: some letter :: rest => do
      let character <- escapedCharacter? letter
      let (parts, rest) <- readParts? rest
      some (.character character :: parts, rest)
  | some character :: rest =>
      if character < ' ' ∨ character = '\\' then none
      else do
        let (parts, rest) <- readParts? rest
        some (.character character :: parts, rest)
  | none :: rest => do
      let (parts, rest) <- readParts? rest
      some (.stray :: parts, rest)

/-- The code unit is the first of two that encode one character. -/
def isLeadingUnit (code : Nat) : Bool := 0xD800 ≤ code && code < 0xDC00

/-- The code unit is the second of two that encode one character. -/
def isTrailingUnit (code : Nat) : Bool := 0xDC00 ≤ code && code < 0xE000

/-- The character that two code units encode. -/
def pairedCharacter (leading trailing : Nat) : Char :=
  Char.ofNat (0x10000 + (leading - 0xD800) * 0x400 + (trailing - 0xDC00))

/-- Put code units together into characters. A unit that needs a partner and has none
leaves the text without a meaning, and so does a stray byte. -/
def joinParts? : List TextPart -> Option (List Char)
  | [] => some []
  | .character character :: parts => (joinParts? parts).map (character :: ·)
  | .unit code :: parts =>
      if isTrailingUnit code then none
      else if isLeadingUnit code then
        match parts with
        | .unit trailing :: parts =>
            if isTrailingUnit trailing then
              (joinParts? parts).map (pairedCharacter code trailing :: ·)
            else none
        | _ => none
      else (joinParts? parts).map (Char.ofNat code :: ·)
  | .stray :: _ => none

/-- Read a text behind its opening quote, and what follows it. -/
def readText? (symbols : List Text.Symbol) : Option (Option String × List Text.Symbol) :=
  (readParts? symbols).map fun (parts, rest) => ((joinParts? parts).map String.ofList, rest)

end Json
end LineMetrics
