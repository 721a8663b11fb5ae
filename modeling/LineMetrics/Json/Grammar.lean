import LineMetrics.Json.Reader

/-!
# The grammar of JSON

The texts that a value has, with any white space between their parts. A number without
fraction and exponent that 64 bits hold is whole. Any other number stands for the nearest
binary64 number, which has to be finite. The reader may miss it, since it rounds twice.

A value stands at the start of some symbols if they start with a text of it. The symbols
behind that text are the rest.
-/

namespace LineMetrics
namespace Json

/-- A binary64 number stands at the start of the symbols. -/
def DoubleStandsAt (value : Binary64) (symbols rest : List Text.Symbol) : Prop :=
  value.isFinite = true ∧
    ∃ text read, symbols = text.map some ++ rest ∧ readNumber? symbols = some (read, rest) ∧
      (∀ whole, read ≠ .int whole) ∧ Binary64.read? text = some value

/-- A key and the colon behind it stand at the start of the symbols. -/
def KeyStandsAt (key : String) (symbols rest : List Text.Symbol) : Prop :=
  ∃ behind next, symbols = some '"' :: behind ∧ readText? behind = some (some key, next) ∧
    skipSpace next = some ':' :: rest

mutual

/-- A value stands at the start of the symbols. -/
def StandsAt : Json -> List Text.Symbol -> List Text.Symbol -> Prop
  | .null, symbols, rest => afterWord? "null".toList symbols = some rest
  | .bool value, symbols, rest =>
      afterWord? (if value then "true" else "false").toList symbols = some rest
  | .int value, symbols, rest => readNumber? symbols = some (.int value, rest)
  | .double value, symbols, rest => DoubleStandsAt value symbols rest
  | .string value, symbols, rest =>
      ∃ behind, symbols = some '"' :: behind ∧ readText? behind = some (some value, rest)
  | .list [], symbols, rest =>
      ∃ behind, symbols = some '[' :: behind ∧ skipSpace behind = some ']' :: rest
  | .list (item :: items), symbols, rest =>
      ∃ behind next, symbols = some '[' :: behind ∧ item.StandsAt (skipSpace behind) next ∧
        ItemsFollow items (skipSpace next) rest
  | .object [], symbols, rest =>
      ∃ behind, symbols = some '\x7b' :: behind ∧ skipSpace behind = some '\x7d' :: rest
  | .object ((key, value) :: members), symbols, rest =>
      ∃ behind colon next, symbols = some '\x7b' :: behind ∧
        KeyStandsAt key (skipSpace behind) colon ∧ value.StandsAt (skipSpace colon) next ∧
          MembersFollow members (skipSpace next) rest
  | .unreadable, _, _ => False

/-- Further items of a list and its end stand at the start of the symbols. -/
def ItemsFollow : List Json -> List Text.Symbol -> List Text.Symbol -> Prop
  | [], symbols, rest => symbols = some ']' :: rest
  | item :: items, symbols, rest =>
      ∃ behind next, symbols = some ',' :: behind ∧ item.StandsAt (skipSpace behind) next ∧
        ItemsFollow items (skipSpace next) rest

/-- Further members of an object and its end stand at the start of the symbols. -/
def MembersFollow : List (String × Json) -> List Text.Symbol -> List Text.Symbol -> Prop
  | [], symbols, rest => symbols = some '\x7d' :: rest
  | (key, value) :: members, symbols, rest =>
      ∃ behind colon next, symbols = some ',' :: behind ∧
        KeyStandsAt key (skipSpace behind) colon ∧ value.StandsAt (skipSpace colon) next ∧
          MembersFollow members (skipSpace next) rest

end

/-- The text is one of the value, with nothing but white space around it. -/
def IsValueOf (json : Json) (text : String) : Prop :=
  ∃ rest, json.StandsAt (skipSpace (text.toList.map some)) rest ∧ skipSpace rest = []

end Json
end LineMetrics
