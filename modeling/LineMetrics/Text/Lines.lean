/-!
# Lines of text

A line ends with a line feed, or with a carriage return and a line feed, or with the
text. A text that ends with a line feed has no empty line behind it.
-/

namespace LineMetrics
namespace Text

/-- The lines of a text, without what ends them. -/
def lines : List Char -> List (List Char)
  | [] => []
  | '\n' :: rest => [] :: lines rest
  | '\r' :: '\n' :: rest => [] :: lines rest
  | character :: rest =>
      match lines rest with
      | [] => [[character]]
      | line :: others => (character :: line) :: others

@[simp] theorem lines_nil : lines [] = [] := rfl

@[simp] theorem lines_lineFeed (rest : List Char) :
    lines ('\n' :: rest) = [] :: lines rest := by
  rw [lines]

@[simp] theorem lines_returnAndLineFeed (rest : List Char) :
    lines ('\r' :: '\n' :: rest) = [] :: lines rest := by
  rw [lines]

end Text
end LineMetrics
