/-!
# White space

The characters with the White_Space property of Unicode, and texts that hold
nothing else.
-/

namespace LineMetrics
namespace Text

/-- First and last code points of the ranges of white space. -/
def blankRanges : List (Nat × Nat) := [
  (0x09, 0x0D), (0x20, 0x20), (0x85, 0x85), (0xA0, 0xA0), (0x1680, 0x1680),
  (0x2000, 0x200A), (0x2028, 0x2029), (0x202F, 0x202F), (0x205F, 0x205F),
  (0x3000, 0x3000)]

/-- The character is white space. -/
def isBlankCharacter (character : Char) : Bool :=
  blankRanges.any fun range =>
    range.1 ≤ character.toNat && character.toNat ≤ range.2

/-- The text holds only white space. -/
def isBlank (text : String) : Bool := text.toList.all isBlankCharacter

@[simp] theorem isBlank_empty : isBlank "" = true := by decide

end Text
end LineMetrics
