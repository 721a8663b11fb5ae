import LineMetrics.Text.Visible

/-!
# Quoted text in messages

A text inside a message stands between double quotes. Quotes and backslashes are
marked by a backslash, five control characters have letters of their own, and any
other character that does not show is given by its code point.
-/

namespace LineMetrics
namespace Text

/-- The letter that stands for a character behind a backslash. -/
def escapeLetter? : Char -> Option Char
  | '\x00' => some '0'
  | '\t' => some 't'
  | '\r' => some 'r'
  | '\n' => some 'n'
  | '"' => some '"'
  | '\\' => some '\\'
  | _ => none

/-- A character as it stands in quoted text. -/
def quotedCharacter (character : Char) : List Char :=
  match escapeLetter? character with
  | some letter => ['\\', letter]
  | none =>
      if isVisible character then [character]
      else '\\' :: 'u' :: '\x7b' :: (Nat.toDigits 16 character.toNat ++ ['\x7d'])

/-- A text between double quotes. -/
def quoted (text : String) : String :=
  String.ofList ('"' :: (text.toList.flatMap quotedCharacter ++ ['"']))

/-- Several quoted texts between brackets. -/
def quotedList (texts : List String) : String :=
  "[" ++ ", ".intercalate (texts.map quoted) ++ "]"

end Text
end LineMetrics
