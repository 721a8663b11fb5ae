/-!
# Symbols from bytes

Bytes that are meant to be text need not all encode characters. A symbol is a
character, or `none` for a byte that takes no part in the encoding of one, so a text
with stray bytes in it can still be read as far as they do not matter. The symbols of
an encoded text are its characters.
-/

namespace LineMetrics
namespace Text

/-- A character, or `none` for a stray byte. -/
abbrev Symbol := Option Char

/-- The symbols that the bytes from a position on stand for. -/
def symbolsFrom (bytes : ByteArray) (position : Nat) : List Symbol :=
  if position < bytes.size then
    match bytes.utf8DecodeChar? position with
    | some character => some character :: symbolsFrom bytes (position + character.utf8Size)
    | none => none :: symbolsFrom bytes (position + 1)
  else []
termination_by bytes.size - position
decreasing_by
  · have := character.utf8Size_pos
    omega
  · omega

/-- The symbols that bytes stand for. -/
def symbols (bytes : ByteArray) : List Symbol := symbolsFrom bytes 0

/-- Behind encoded characters, the symbols of encoded characters are those characters. -/
theorem symbolsFrom_utf8Encode (before characters : List Char) :
    symbolsFrom (before ++ characters).utf8Encode before.utf8Encode.size =
      characters.map some := by
  induction characters generalizing before with
  | nil =>
      rw [List.append_nil, symbolsFrom, if_neg (Nat.lt_irrefl _), List.map_nil]
  | cons character rest inductionHypothesis =>
      have decoded : (before ++ character :: rest).utf8Encode.utf8DecodeChar?
          before.utf8Encode.size = some character := by
        rw [ByteArray.utf8DecodeChar?_eq_utf8DecodeChar?_extract, List.utf8Encode_append,
          ByteArray.extract_append_eq_right rfl ByteArray.size_append,
          List.utf8DecodeChar?_utf8Encode_cons]
      have inside : before.utf8Encode.size < (before ++ character :: rest).utf8Encode.size :=
        ByteArray.lt_size_of_isSome_utf8DecodeChar? (by rw [decoded]; rfl)
      have behind : before.utf8Encode.size + character.utf8Size =
          (before ++ [character]).utf8Encode.size := by
        rw [List.utf8Encode_append, ByteArray.size_append, List.utf8Encode_singleton,
          List.size_toByteArray, String.length_utf8EncodeChar]
      have later := inductionHypothesis (before ++ [character])
      rw [List.append_assoc, List.singleton_append, <- behind] at later
      rw [symbolsFrom, if_pos inside, decoded]
      exact congrArg (some character :: ·) later

/-- The symbols of an encoded text are its characters. -/
@[simp] theorem symbols_toUTF8 (text : String) :
    symbols text.toUTF8 = text.toList.map some := by
  have encoded := symbolsFrom_utf8Encode [] text.toList
  rw [List.nil_append, String.utf8Encode_toList] at encoded
  exact encoded

end Text
end LineMetrics
