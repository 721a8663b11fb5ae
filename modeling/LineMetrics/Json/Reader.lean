import LineMetrics.Json.Number
import LineMetrics.Json.Text

/-!
# Reading JSON

The strict grammar: no comments, no commas without a value behind them, no zeros
in front of a number, and nothing but white space around the value. Bytes that encode
no characters may stand between quotes only. Every value takes at least one symbol, so
twice their number is fuel enough.
-/

namespace LineMetrics
namespace Json

/-- The white space of JSON. -/
def isSpace (character : Char) : Bool :=
  character = ' ' || character = '\t' || character = '\n' || character = '\r'

/-- What follows leading white space. -/
def skipSpace (symbols : List Text.Symbol) : List Text.Symbol :=
  symbols.dropWhile fun symbol => symbol.any isSpace

/-- What follows a word, if the symbols start with it. -/
def afterWord? (word : List Char) (symbols : List Text.Symbol) : Option (List Text.Symbol) :=
  if (word.map some).isPrefixOf symbols then some (symbols.drop word.length) else none

/-- The decimal digits at the start, and what follows them. -/
def readDigits : List Text.Symbol -> List Char × List Text.Symbol
  | some digit :: rest =>
      if digit.isDigit then
        let (digits, rest) := readDigits rest
        (digit :: digits, rest)
      else ([], some digit :: rest)
  | rest => ([], rest)

/-- Read the fraction of a number if there is one. A point needs a digit behind it. -/
def readFraction? : List Text.Symbol -> Option (Option (List Char) × List Text.Symbol)
  | some '.' :: rest =>
      let (digits, rest) := readDigits rest
      if digits = [] then none else some (some digits, rest)
  | rest => some (none, rest)

/-- Whether an exponent is negative, and what follows its sign. -/
def readSign : List Text.Symbol -> Bool × List Text.Symbol
  | some '-' :: rest => (true, rest)
  | some '+' :: rest => (false, rest)
  | rest => (false, rest)

/-- Read the exponent of a number if there is one. Its mark needs a digit behind it. -/
def readExponent? : List Text.Symbol -> Option (Option Int × List Text.Symbol)
  | some mark :: rest =>
      if mark = 'e' ∨ mark = 'E' then
        let (negative, rest) := readSign rest
        let (digits, rest) := readDigits rest
        if digits = [] then none
        else
          some
            (some (if negative then -digitsValue digits else digitsValue digits), rest)
      else some (none, some mark :: rest)
  | rest => some (none, rest)

/-- Read a number, and what follows it. -/
def readNumber? (symbols : List Text.Symbol) : Option (Json × List Text.Symbol) := do
  let (negative, symbols) :=
    match symbols with
    | some '-' :: rest => (true, rest)
    | rest => (false, rest)
  let (whole, symbols) := readDigits symbols
  if whole = [] ∨ (1 < whole.length ∧ whole.head? = some '0') then none
  else
    let (fraction, symbols) <- readFraction? symbols
    let (exponent, symbols) <- readExponent? symbols
    some (ofNumberParts negative whole fraction exponent, symbols)

mutual

/-- Read a value that starts with the first symbol, and what follows it. -/
def readValue? : Nat -> List Text.Symbol -> Option (Json × List Text.Symbol)
  | fuel + 1, some first :: rest =>
      if first = '"' then
        (readText? rest).map fun (text, rest) =>
          (match text with
            | some text => .string text
            | none => .unreadable, rest)
      else if first = '[' then
        match skipSpace rest with
        | some ']' :: rest => some (.list [], rest)
        | rest =>
            (readItems? fuel rest).map fun (items, rest) => (.list items, rest)
      else if first = '\x7b' then
        match skipSpace rest with
        | some '\x7d' :: rest => some (.object [], rest)
        | rest =>
            (readMembers? fuel rest).map fun (members, rest) =>
              (match members with
                | some members => .object members
                | none => .unreadable, rest)
      else if first = 'n' then
        (afterWord? "ull".toList rest).map fun rest => (.null, rest)
      else if first = 't' then
        (afterWord? "rue".toList rest).map fun rest => (.bool true, rest)
      else if first = 'f' then
        (afterWord? "alse".toList rest).map fun rest => (.bool false, rest)
      else readNumber? (some first :: rest)
  | _, _ => none

/-- Read one or more items up to the end of a list, and what follows it. -/
def readItems? : Nat -> List Text.Symbol -> Option (List Json × List Text.Symbol)
  | 0, _ => none
  | fuel + 1, symbols => do
      let (item, rest) <- readValue? fuel symbols
      match skipSpace rest with
      | some ']' :: rest => some ([item], rest)
      | some ',' :: rest =>
          (readItems? fuel (skipSpace rest)).map fun (items, rest) => (item :: items, rest)
      | _ => none

/-- Read one or more members up to the end of an object, and what follows it. A key
without a meaning leaves the members without one. -/
def readMembers? :
    Nat -> List Text.Symbol -> Option (Option (List (String × Json)) × List Text.Symbol)
  | fuel + 1, some '"' :: rest => do
      let (key, rest) <- readText? rest
      let rest <- afterWord? [':'] (skipSpace rest)
      let (value, rest) <- readValue? fuel (skipSpace rest)
      let member := key.map fun key => (key, value)
      match skipSpace rest with
      | some '\x7d' :: rest => some (member.map ([·]), rest)
      | some ',' :: rest =>
          (readMembers? fuel (skipSpace rest)).map fun (members, rest) =>
            (do some ((<- member) :: (<- members)), rest)
      | _ => none
  | _, _ => none

end

/-- The value that symbols stand for as a whole. -/
def ofSymbols? (symbols : List Text.Symbol) : Option Json :=
  match readValue? (2 * symbols.length + 1) (skipSpace symbols) with
  | some (json, rest) => if skipSpace rest = [] then some json else none
  | none => none

/-- The value that a text stands for. -/
def parse? (text : String) : Option Json := ofSymbols? (text.toList.map some)

/-- The value that bytes stand for, of which those between quotes may be stray. -/
def ofBytes? (bytes : ByteArray) : Option Json := ofSymbols? (Text.symbols bytes)

/-- An encoded text stands for the value of the text. -/
@[simp] theorem ofBytes?_toUTF8 (text : String) : ofBytes? text.toUTF8 = parse? text := by
  rw [ofBytes?, parse?, Text.symbols_toUTF8]

end Json
end LineMetrics
