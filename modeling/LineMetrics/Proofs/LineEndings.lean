import LineMetrics.Text.Lines
import Mathlib.Data.List.Basic

/-!
# Lines and what ends them

A text can be cut behind each of its line feeds. Every piece holds one line, together with
what ends it, and pieces that are put together again in order, some of them left out, hold
the lines of the pieces that are left. A carriage return at the end of a line belongs to
the line unless a line feed follows it.
-/

namespace LineMetrics
namespace Text

/-- Cut a text behind each line feed. -/
def pieces : List Char -> List (List Char)
  | [] => []
  | '\n' :: rest => ['\n'] :: pieces rest
  | character :: rest =>
      match pieces rest with
      | [] => [[character]]
      | piece :: others => (character :: piece) :: others

/-- The text ends with a line feed. -/
def EndsLine (text : List Char) : Prop := ∃ front, text = front ++ ['\n']

variable {text line : List Char}

/-- A character that ends no line belongs to the first line. -/
theorem lines_cons
    {character : Char}
    {rest : List Char}
    (noLineFeed : character ≠ '\n')
    (noReturn : character = '\r' -> rest.head? ≠ some '\n') :
    lines (character :: rest) =
      match lines rest with
      | [] => [[character]]
      | line :: others => (character :: line) :: others := by
  have isOther : ∀ behind, character = '\r' -> rest = '\n' :: behind -> False := by
    rintro behind isReturn rfl
    exact noReturn isReturn rfl
  exact lines.eq_4 character rest noLineFeed isOther

/-- There are lines in a text that ends with a line feed. -/
theorem lines_concat_ne_nil (text : List Char) : lines (text ++ ['\n']) ≠ [] := by
  match text with
  | [] => exact List.cons_ne_nil _ _
  | first :: rest =>
      rw [List.cons_append, lines.eq_def]
      split <;> rename_i isCons
      · cases isCons
      · exact List.cons_ne_nil _ _
      · exact List.cons_ne_nil _ _
      · split <;> exact List.cons_ne_nil _ _

/-- A character in front changes the first line only. -/
theorem lines_cons_append
    {character : Char}
    {rest after : List Char}
    (noLineFeed : character ≠ '\n')
    (noReturn : ∀ behind, character = '\r' -> rest ≠ '\n' :: behind)
    (anew : lines (rest ++ '\n' :: after) = lines (rest ++ ['\n']) ++ lines after) :
    lines (character :: rest ++ '\n' :: after) =
      lines (character :: rest ++ ['\n']) ++ lines after := by
  by_cases ending : character = '\r' ∧ rest = []
  · obtain ⟨rfl, rfl⟩ := ending
    exact lines_returnAndLineFeed after
  · have first (behind : List Char) (isReturn : character = '\r') :
        (rest ++ '\n' :: behind).head? ≠ some '\n' := by
      match rest with
      | [] => exact absurd ⟨isReturn, rfl⟩ ending
      | second :: others =>
          rintro same
          cases same
          exact noReturn others isReturn rfl
    rw [List.cons_append, List.cons_append, lines_cons noLineFeed (first after),
      lines_cons noLineFeed (first []), anew]
    obtain ⟨line, others, isCons⟩ := List.exists_cons_of_ne_nil (lines_concat_ne_nil rest)
    rw [isCons]
    rfl

/-- Behind a line feed the lines start anew. -/
theorem lines_append_lineFeed (before after : List Char) :
    lines (before ++ '\n' :: after) = lines (before ++ ['\n']) ++ lines after := by
  induction before using lines.induct with
  | case1 => rw [List.nil_append, List.nil_append, lines_lineFeed, lines_lineFeed]; rfl
  | case2 rest inductionHypothesis =>
      rw [List.cons_append, List.cons_append, lines_lineFeed, lines_lineFeed,
        inductionHypothesis]
      rfl
  | case3 rest inductionHypothesis =>
      simp only [List.cons_append]
      rw [lines_returnAndLineFeed, lines_returnAndLineFeed, inductionHypothesis]
      rfl
  | case4 character rest noLineFeed noReturn _ inductionHypothesis =>
      exact lines_cons_append noLineFeed noReturn inductionHypothesis
  | case5 character rest noLineFeed noReturn _ _ _ inductionHypothesis =>
      exact lines_cons_append noLineFeed noReturn inductionHypothesis

/-- Behind a text that is empty or ends with a line feed the lines start anew. -/
theorem lines_append
    {closed : List Char}
    (atStart : closed = [] ∨ EndsLine closed)
    (after : List Char) :
    lines (closed ++ after) = lines closed ++ lines after := by
  rcases atStart with rfl | ⟨front, rfl⟩
  · rfl
  · rw [List.append_assoc, List.singleton_append, lines_append_lineFeed]

/-- Any text is some lines that have ended, and a line that has not. -/
theorem exists_last (text : List Char) :
    ∃ closed line, text = closed ++ line ∧ (closed = [] ∨ EndsLine closed) ∧ '\n' ∉ line := by
  induction text with
  | nil => exact ⟨[], [], rfl, .inl rfl, List.not_mem_nil⟩
  | cons character text inductionHypothesis =>
      obtain ⟨closed, line, rfl, atStart, unended⟩ := inductionHypothesis
      rcases atStart with rfl | ⟨front, rfl⟩
      · by_cases isLineFeed : character = '\n'
        · exact ⟨[character], line, rfl, .inr ⟨[], by rw [isLineFeed]; rfl⟩, unended⟩
        · refine ⟨[], character :: line, rfl, .inl rfl, ?_⟩
          exact List.not_mem_cons_of_ne_of_not_mem (Ne.symm isLineFeed) unended
      · exact ⟨character :: (front ++ ['\n']), line, rfl, .inr ⟨character :: front, rfl⟩, unended⟩

/-- Characters without a line feed are one line with what follows, if that ends a line. -/
theorem lines_append_of_ending
    {ending : List Char}
    (noLineFeed : '\n' ∉ line)
    (noReturn : line.getLast? = some '\r' -> ending.head? ≠ some '\n')
    (some : line ≠ [])
    (ends : lines ending = [] ∨ lines ending = [[]]) :
    lines (line ++ ending) = [line] := by
  induction line with
  | nil => exact absurd rfl some
  | cons character line inductionHypothesis =>
      have notFirst := List.ne_of_not_mem_cons noLineFeed
      have notLater := List.not_mem_of_not_mem_cons noLineFeed
      match line with
      | [] =>
          rw [List.singleton_append, lines_cons (Ne.symm notFirst)]
          · rcases ends with none | empty
            · rw [none]
            · rw [empty]
          · rintro rfl
            exact noReturn rfl
      | second :: others =>
          have behind := inductionHypothesis notLater noReturn (List.cons_ne_nil _ _)
          rw [List.cons_append, lines_cons (Ne.symm notFirst), behind]
          rintro - same
          cases same
          exact notLater List.mem_cons_self

/-- Characters that no line feed ends are one line. -/
theorem lines_of_unended (noLineFeed : '\n' ∉ line) (someCharacter : line ≠ []) :
    lines line = [line] := by
  have single : lines (line ++ []) = [line] :=
    lines_append_of_ending noLineFeed (fun _ same => nomatch same) someCharacter (.inl rfl)
  rwa [List.append_nil] at single

/-- Characters in front of a carriage return and a line feed are one line. -/
theorem lines_append_return (noLineFeed : '\n' ∉ line) :
    lines (line ++ ['\r', '\n']) = [line] := by
  by_cases empty : line = []
  · rw [empty]
    rfl
  · exact lines_append_of_ending noLineFeed (fun _ same => by cases same) empty (.inr rfl)

/-- Characters in front of a line feed are one line, without a carriage return at their
end. -/
theorem exists_lines_concat (noLineFeed : '\n' ∉ line) :
    ∃ kept, lines (line ++ ['\n']) = [kept] ∧ (line = kept ∨ line = kept ++ ['\r']) := by
  by_cases empty : line = []
  · exact ⟨[], by rw [empty]; rfl, .inl empty⟩
  by_cases returned : line.getLast? = some '\r'
  · obtain ⟨front, rfl⟩ := List.getLast?_eq_some_iff.mp returned
    refine ⟨front, ?_, .inr rfl⟩
    rw [List.append_assoc]
    exact lines_append_return fun member => noLineFeed (List.mem_append_left _ member)
  · exact ⟨line, lines_append_of_ending noLineFeed (fun isReturn => absurd isReturn returned)
      empty (.inr rfl), .inl rfl⟩

/-! ## Pieces -/

/-- The characters are one line, which a line feed may end. -/
def IsPiece (piece : List Char) : Prop :=
  ∃ line, '\n' ∉ line ∧ (piece = line ++ ['\n'] ∨ (piece = line ∧ line ≠ []))

/-- A piece has one line. -/
theorem IsPiece.exists_line {piece : List Char} (isPiece : IsPiece piece) :
    ∃ line, lines piece = [line] := by
  obtain ⟨line, noLineFeed, rfl | ⟨rfl, someCharacter⟩⟩ := isPiece
  · obtain ⟨kept, single, -⟩ := exists_lines_concat noLineFeed
    exact ⟨kept, single⟩
  · exact ⟨piece, lines_of_unended noLineFeed someCharacter⟩

/-- The pieces of a text make up the text. -/
theorem flatten_pieces (text : List Char) : (pieces text).flatten = text := by
  induction text with
  | nil => rfl
  | cons character text inductionHypothesis =>
      rw [pieces.eq_def]
      split <;> rename_i isCons <;> cases isCons
      · exact congrArg ('\n' :: ·) inductionHypothesis
      · split <;> rename_i cut
        · rw [cut] at inductionHypothesis
          rw [<- inductionHypothesis]
          rfl
        · rw [cut] at inductionHypothesis
          rw [<- inductionHypothesis]
          rfl

/-- What a text is cut into are pieces, and a line feed ends each but the last one. -/
theorem isPiece_of_pieces (text : List Char) :
    (∀ piece ∈ pieces text, IsPiece piece) ∧
      (pieces text).Pairwise fun piece _ => EndsLine piece := by
  induction text with
  | nil => exact ⟨List.forall_mem_nil _, .nil⟩
  | cons character text inductionHypothesis =>
      obtain ⟨arePieces, ended⟩ := inductionHypothesis
      by_cases isLineFeed : character = '\n'
      · subst isLineFeed
        rw [pieces]
        exact ⟨List.forall_mem_cons.mpr ⟨⟨[], List.not_mem_nil, .inl rfl⟩, arePieces⟩,
          .cons (fun _ _ => ⟨[], rfl⟩) ended⟩
      · rw [pieces]
        · split <;> rename_i cut
          · refine ⟨List.forall_mem_singleton.mpr ⟨[character], ?_, .inr ⟨rfl, ?_⟩⟩,
              List.pairwise_singleton _ _⟩
            · rwa [List.mem_singleton, eq_comm]
            · exact List.cons_ne_nil _ _
          · rename_i piece others
            rw [cut] at arePieces ended
            obtain ⟨⟨line, noLineFeed, isPiece⟩, arePieces⟩ := List.forall_mem_cons.mp arePieces
            obtain ⟨endsFirst, ended⟩ := List.pairwise_cons.mp ended
            refine ⟨List.forall_mem_cons.mpr ⟨⟨character :: line, ?_, ?_⟩, arePieces⟩,
              .cons (fun other member => ?_) ended⟩
            · exact List.not_mem_cons_of_ne_of_not_mem (Ne.symm isLineFeed) noLineFeed
            · rcases isPiece with rfl | ⟨rfl, -⟩
              · exact .inl rfl
              · exact .inr ⟨rfl, List.cons_ne_nil _ _⟩
            · obtain ⟨front, rfl⟩ := endsFirst other member
              exact ⟨character :: front, rfl⟩
        · exact isLineFeed

/-- Pieces that are put together hold the lines of each of them. -/
theorem lines_flatten
    {parts : List (List Char)}
    (ended : parts.Pairwise fun piece _ => EndsLine piece) :
    lines parts.flatten = parts.flatMap lines := by
  induction parts with
  | nil => rfl
  | cons piece parts inductionHypothesis =>
      obtain ⟨endsFirst, ended⟩ := List.pairwise_cons.mp ended
      rw [List.flatten_cons, List.flatMap_cons, <- inductionHypothesis ended]
      match parts with
      | [] => rw [List.flatten_nil, List.append_nil, lines_nil, List.append_nil]
      | other :: _ => exact lines_append (.inr (endsFirst other List.mem_cons_self)) _

/-! ## Leaving out lines -/

/-- The elements at the positions that are to be kept. -/
def keepAt {α : Type} (keep : Nat -> Bool) : List α -> List α
  | [] => []
  | element :: elements =>
      let behind := keepAt (fun position => keep (position + 1)) elements
      if keep 0 then element :: behind else behind

/-- The text without the lines at the positions that are not to be kept, and without what
ends them. -/
def keepLines (keep : Nat -> Bool) (text : String) : String :=
  String.ofList (keepAt keep (pieces text.toList)).flatten

/-- What is kept stands in the same order. -/
theorem keepAt_sublist {α : Type} (keep : Nat -> Bool) (elements : List α) :
    (keepAt keep elements).Sublist elements := by
  induction elements generalizing keep with
  | nil => exact .slnil
  | cons element elements inductionHypothesis =>
      rw [keepAt]
      split
      · exact (inductionHypothesis _).cons_cons element
      · exact (inductionHypothesis _).cons element

/-- The lines that are kept are those of the pieces that are kept. -/
theorem flatMap_keepAt
    (keep : Nat -> Bool)
    {parts : List (List Char)}
    (arePieces : ∀ piece ∈ parts, IsPiece piece) :
    (keepAt keep parts).flatMap lines = keepAt keep (parts.flatMap lines) := by
  induction parts generalizing keep with
  | nil => rfl
  | cons piece parts inductionHypothesis =>
      obtain ⟨isPiece, arePieces⟩ := List.forall_mem_cons.mp arePieces
      obtain ⟨line, single⟩ := isPiece.exists_line
      rw [List.flatMap_cons, single, List.singleton_append, keepAt, keepAt,
        <- inductionHypothesis _ arePieces]
      cases keep 0 with
      | true => rw [if_pos rfl, if_pos rfl, List.flatMap_cons, single, List.singleton_append]
      | false => rfl

/-- A text without some lines has the other ones. -/
theorem lines_keepLines (keep : Nat -> Bool) (text : String) :
    lines (keepLines keep text).toList = keepAt keep (lines text.toList) := by
  obtain ⟨arePieces, ended⟩ := isPiece_of_pieces text.toList
  have whole := lines_flatten ended
  rw [flatten_pieces] at whole
  rw [keepLines, String.toList_ofList, lines_flatten (ended.sublist (keepAt_sublist keep _)),
    flatMap_keepAt keep arePieces, whole]

/-- The characters of a line are characters of the text. -/
theorem flatten_lines_sublist (text : List Char) : (lines text).flatten.Sublist text := by
  induction text using lines.induct with
  | case1 => exact .slnil
  | case2 rest inductionHypothesis =>
      rw [lines_lineFeed]
      exact inductionHypothesis.cons _
  | case3 rest inductionHypothesis =>
      rw [lines_returnAndLineFeed]
      exact (inductionHypothesis.cons _).cons _
  | case4 character rest noLineFeed noReturn none _ =>
      rw [lines, none]
      · exact .cons_cons _ (List.nil_sublist _)
      · exact noLineFeed
      · exact noReturn
  | case5 character rest noLineFeed noReturn line others some inductionHypothesis =>
      rw [some] at inductionHypothesis
      rw [lines, some]
      · exact inductionHypothesis.cons_cons _
      · exact noLineFeed
      · exact noReturn

end Text
end LineMetrics
