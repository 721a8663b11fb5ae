import LineMetrics.Proofs.ChainedCommands
import LineMetrics.Proofs.LineEndings
import LineMetrics.Proofs.ReadSymbols
import LineMetrics.Proofs.Refusal

/-!
# Dropped lines leave no trace

What is gathered from the lines of a text depends only on the points that the lines hold, in
order. A line that holds no point, or one that is refused, is counted and leaves the batch
as it was, so whether a later line is dropped does not depend on it. White space between
lines and the way in which lines end make no difference.
-/

namespace LineMetrics
namespace Intake

/-! ## What lines hold -/

/-- What a line that is not blank is read as. -/
def reading? (line : List Char) : Option (Option Point) :=
  if Text.isBlank (String.ofList line) then none
  else some (Point.ofText? (String.ofList line))

/-- Take in what a line is read as. -/
def takeReading (now : UInt64) (intake : Intake) : Option Point -> Intake
  | none => { intake with dropped := intake.dropped + 1 }
  | some point =>
      match intake.batch.add now point with
      | (batch, none) => { intake with batch }
      | (batch, some _) => { batch, dropped := intake.dropped + 1 }

variable {now : UInt64} {intake : Intake} {line : List Char} {lines others : List (List Char)}

/-- A line is taken in as what it is read as. -/
theorem takeLine_eq (now : UInt64) (intake : Intake) (line : List Char) :
    takeLine now intake line = ((reading? line).map (takeReading now intake)).getD intake := by
  rw [takeLine, reading?]
  split
  · rfl
  · rw [takePoint]
    cases Point.ofText? (String.ofList line) <;> rfl

/-- Lines are taken in as what they are read as. -/
theorem foldl_takeLine_eq (intake : Intake) (lines : List (List Char)) :
    lines.foldl (takeLine now) intake =
      (lines.filterMap reading?).foldl (takeReading now) intake := by
  rw [List.foldl_filterMap]
  congr 1
  funext intake line
  rw [takeLine_eq]
  cases reading? line <;> rfl

/-- Texts whose lines are read as the same are taken in alike. -/
theorem ofText_congr
    {text other : String}
    (same : (Text.lines text.toList).filterMap reading? =
      (Text.lines other.toList).filterMap reading?)
    (schema : Schema)
    (now : UInt64) :
    ofText schema now text = ofText schema now other := by
  rw [ofText, ofText, foldl_takeLine_eq, foldl_takeLine_eq, same]

/-- A line of white space is not read. -/
theorem reading?_eq_none_iff :
    reading? line = none ↔ Text.isBlank (String.ofList line) = true := by
  rw [reading?]
  split
  · rename_i blank
    exact iff_of_true rfl blank
  · rename_i unblank
    exact iff_of_false (fun same => nomatch same) unblank

/-- A carriage return at its end does not change what a line is read as. -/
theorem reading?_concat_return (line : List Char) :
    reading? (line ++ ['\r']) = reading? line := by
  have blank :
      Text.isBlank (String.ofList (line ++ ['\r'])) = Text.isBlank (String.ofList line) := by
    rw [Text.isBlank, Text.isBlank, String.toList_ofList, String.toList_ofList, List.all_append]
    exact Bool.and_true _
  rw [reading?, reading?, blank, Point.ofText?, Point.ofText?, Json.parse?_concat rfl]

/-! ## White space and the ends of lines -/

/-- The lines of white space are not read. -/
theorem filterMap_reading?_of_isBlank
    {white : String}
    (blank : Text.isBlank white = true) :
    (Text.lines white.toList).filterMap reading? = [] := by
  rw [List.filterMap_eq_nil_iff]
  intro line member
  rw [reading?_eq_none_iff, Text.isBlank, String.toList_ofList, List.all_eq_true]
  rw [Text.isBlank, List.all_eq_true] at blank
  exact fun character inLine => blank character
    ((Text.flatten_lines_sublist white.toList).subset (List.mem_flatten_of_mem member inLine))

/-- One line is read as it is. -/
theorem filterMap_reading?_singleton (line : List Char) :
    [line].filterMap reading? = (reading? line).toList := by
  rw [List.filterMap_cons]
  cases reading? line <;> rfl

/-- A line is read as it is, whether or not a line feed ends it. -/
theorem filterMap_reading?_concat (noLineFeed : '\n' ∉ line) :
    (Text.lines (line ++ ['\n'])).filterMap reading? = (reading? line).toList := by
  obtain ⟨kept, single, rfl | rfl⟩ := Text.exists_lines_concat noLineFeed
  · rw [single, filterMap_reading?_singleton]
  · rw [single, filterMap_reading?_singleton, reading?_concat_return]

/-- A line is read as it is, whether a line feed ends it or the text. -/
theorem filterMap_reading?_unended (noLineFeed : '\n' ∉ line) :
    (Text.lines line).filterMap reading? = (reading? line).toList := by
  by_cases empty : line = []
  · rw [empty]
    decide
  · rw [Text.lines_of_unended noLineFeed empty, filterMap_reading?_singleton]

/-- The next character is the first one of a line. -/
def AtLineStart (before : String) : Prop := before = "" ∨ ∃ front, before = front ++ "\n"

/-- Lines start anew where a line starts. -/
theorem AtLineStart.lines_append
    {before : String}
    (atStart : AtLineStart before)
    (after : List Char) :
    Text.lines (before.toList ++ after) = Text.lines before.toList ++ Text.lines after := by
  refine Text.lines_append ?_ after
  rcases atStart with rfl | ⟨front, rfl⟩
  · exact .inl rfl
  · exact .inr ⟨front.toList, by rw [String.toList_append]; rfl⟩

/-- White space on lines of its own makes no difference. -/
theorem ofText_insert_blank
    {before white : String}
    (schema : Schema)
    (now : UInt64)
    (atStart : AtLineStart before)
    (blank : Text.isBlank white = true)
    (after : String) :
    ofText schema now (before ++ white ++ "\n" ++ after) =
      ofText schema now (before ++ after) := by
  have blankLines : (Text.lines (white.toList ++ ['\n'])).filterMap reading? = [] := by
    have ended : Text.isBlank (white ++ "\n") = true := by
      rw [Text.isBlank, String.toList_append, List.all_append]
      exact Bool.and_eq_true_iff.mpr ⟨blank, by decide⟩
    have lines := filterMap_reading?_of_isBlank ended
    rwa [String.toList_append] at lines
  apply ofText_congr
  simp only [String.toList_append, List.append_assoc]
  rw [atStart.lines_append, atStart.lines_append, List.filterMap_append, List.filterMap_append]
  change _ ++ (Text.lines (white.toList ++ '\n' :: after.toList)).filterMap reading? = _
  rw [Text.lines_append_lineFeed, List.filterMap_append, blankLines, List.nil_append]

/-- White space behind the last line makes no difference. -/
theorem ofText_append_blank
    {white : String}
    (schema : Schema)
    (now : UInt64)
    (text : String)
    (blank : Text.isBlank white = true) :
    ofText schema now (text ++ "\n" ++ white) = ofText schema now text := by
  obtain ⟨closed, line, split, atStart, noLineFeed⟩ := Text.exists_last text.toList
  apply ofText_congr
  simp only [String.toList_append, List.append_assoc]
  rw [split, List.append_assoc, Text.lines_append atStart, Text.lines_append atStart,
    List.filterMap_append, List.filterMap_append]
  change _ ++ (Text.lines (line ++ '\n' :: white.toList)).filterMap reading? = _
  rw [Text.lines_append_lineFeed, List.filterMap_append, filterMap_reading?_of_isBlank blank,
    List.append_nil, filterMap_reading?_concat noLineFeed, filterMap_reading?_unended noLineFeed]

/-- A carriage return in front of a line feed makes no difference. -/
theorem ofText_insert_return
    (schema : Schema)
    (now : UInt64)
    (before after : String) :
    ofText schema now (before ++ "\r\n" ++ after) =
      ofText schema now (before ++ "\n" ++ after) := by
  obtain ⟨closed, line, split, atStart, noLineFeed⟩ := Text.exists_last before.toList
  have returned := Text.lines_append_lineFeed (line ++ ['\r']) after.toList
  rw [List.append_assoc, List.append_assoc] at returned
  apply ofText_congr
  simp only [String.toList_append, List.append_assoc]
  rw [split, List.append_assoc, List.append_assoc, Text.lines_append atStart,
    Text.lines_append atStart, List.filterMap_append, List.filterMap_append]
  change _ ++ (Text.lines (line ++ (['\r'] ++ '\n' :: after.toList))).filterMap reading? =
    _ ++ (Text.lines (line ++ '\n' :: after.toList)).filterMap reading?
  rw [returned, Text.lines_append_lineFeed, List.filterMap_append, List.filterMap_append,
    filterMap_reading?_concat noLineFeed]
  change _ ++ ((Text.lines (line ++ ['\r', '\n'])).filterMap reading? ++ _) = _
  rw [Text.lines_append_return noLineFeed, filterMap_reading?_singleton]

/-! ## Dropped lines -/

/-- The line is not blank, and it holds no point, or one that the batch refuses. -/
def drops (now : UInt64) (batch : Batch) (line : List Char) : Bool :=
  match reading? line with
  | none => false
  | some none => true
  | some (some point) => (batch.add now point).2.isSome

/-- The line at the position is dropped when those before it have been taken in. -/
def dropsAt (now : UInt64) (intake : Intake) (lines : List (List Char)) (position : Nat) : Bool :=
  lines[position]?.any (drops now ((lines.take position).foldl (takeLine now) intake).batch)

/-- A line that is dropped is counted and has no other effect. -/
theorem takeLine_of_drops (dropped : drops now intake.batch line = true) :
    takeLine now intake line = ⟨intake.batch, intake.dropped + 1⟩ := by
  rw [takeLine_eq]
  rw [drops] at dropped
  split at dropped
  · cases dropped
  · rename_i none
    rw [none]
    rfl
  · rename_i point some
    obtain ⟨error, isError⟩ := Option.isSome_iff_exists.mp dropped
    have same := Batch.add_eq_self_of_refused isError
    rw [some, Option.map_some, Option.getD_some, takeReading]
    split
    · rename_i batch added
      rw [added] at isError
      cases isError
    · rename_i batch error added
      rw [added] at same
      rw [show batch = intake.batch from same]

/-- A line that is not dropped is not counted. -/
theorem dropped_takeLine_of_not_drops (kept : drops now intake.batch line = false) :
    (takeLine now intake line).dropped = intake.dropped := by
  rw [takeLine_eq]
  rw [drops] at kept
  split at kept
  · rename_i none
    rw [none]
    rfl
  · cases kept
  · rename_i point some
    rw [some, Option.map_some, Option.getD_some, takeReading]
    split
    · rfl
    · rename_i batch error added
      rw [added] at kept
      cases kept

/-- What was counted before a line makes no difference to it. -/
theorem takeLine_counted (batch : Batch) (count : Nat) (line : List Char) :
    takeLine now ⟨batch, count + 1⟩ line =
      ⟨(takeLine now ⟨batch, count⟩ line).batch, (takeLine now ⟨batch, count⟩ line).dropped + 1⟩ := by
  rw [takeLine_eq, takeLine_eq]
  match reading? line with
  | none => rfl
  | some none => rfl
  | some (some point) =>
      simp only [Option.map_some, Option.getD_some, takeReading]
      split <;> rfl

/-- What was counted before some lines makes no difference to them. -/
theorem foldl_takeLine_counted (batch : Batch) (count : Nat) (lines : List (List Char)) :
    lines.foldl (takeLine now) ⟨batch, count + 1⟩ =
      ⟨(lines.foldl (takeLine now) ⟨batch, count⟩).batch,
        (lines.foldl (takeLine now) ⟨batch, count⟩).dropped + 1⟩ := by
  induction lines generalizing batch count with
  | nil => rfl
  | cons line lines inductionHypothesis =>
      rw [List.foldl_cons, List.foldl_cons, takeLine_counted, inductionHypothesis]

/-- As many lines are counted as are dropped. -/
theorem dropped_foldl (intake : Intake) (lines : List (List Char)) :
    (lines.foldl (takeLine now) intake).dropped =
      intake.dropped + (List.range lines.length).countP (dropsAt now intake lines) := by
  induction lines generalizing intake with
  | nil => rfl
  | cons line lines inductionHypothesis =>
      have first : dropsAt now intake (line :: lines) 0 = drops now intake.batch line := rfl
      have later : dropsAt now intake (line :: lines) ∘ Nat.succ =
        dropsAt now (takeLine now intake line) lines := rfl
      rw [List.foldl_cons, inductionHypothesis, List.length_cons, List.range_succ_eq_map,
        List.countP_cons, List.countP_map, first, later]
      cases dropped : drops now intake.batch line with
      | true =>
          rw [takeLine_of_drops dropped, if_pos rfl]
          dsimp only
          omega
      | false =>
          rw [dropped_takeLine_of_not_drops dropped, if_neg Bool.false_ne_true]
          omega

/-- A line that is not blank is counted, or its point is accepted. -/
theorem dropped_takeLine (now : UInt64) (intake : Intake) (line : List Char) :
    (takeLine now intake line).dropped +
        (intake.batch.acceptedArrivals (arrivalOf? now line).toList).length =
      intake.dropped + if Text.isBlank (String.ofList line) then 0 else 1 := by
  rw [takeLine, arrivalOf?]
  split
  · rfl
  · rw [takePoint]
    cases Point.ofText? (String.ofList line) with
    | none => rfl
    | some point =>
        rw [Option.map_some, Option.toList_some, Batch.acceptedArrivals_cons]
        dsimp only
        split <;> rename_i added <;> rw [added] <;> rfl

/-- The lines that are not blank are those that are counted and those whose points are
accepted. -/
theorem dropped_foldl_add_accepted (intake : Intake) (lines : List (List Char)) :
    (lines.foldl (takeLine now) intake).dropped +
        (intake.batch.acceptedArrivals (lines.filterMap (arrivalOf? now))).length =
      intake.dropped + lines.countP fun line => !Text.isBlank (String.ofList line) := by
  induction lines generalizing intake with
  | nil => rfl
  | cons line lines inductionHypothesis =>
      have apart : (line :: lines).filterMap (arrivalOf? now) =
          (arrivalOf? now line).toList ++ lines.filterMap (arrivalOf? now) := by
        rw [List.filterMap_cons]
        cases arrivalOf? now line <;> rfl
      have first := dropped_takeLine now intake line
      have others := inductionHypothesis (takeLine now intake line)
      rw [batch_takeLine] at others
      rw [List.foldl_cons, apart, Batch.acceptedArrivals_append, List.length_append,
        List.countP_cons]
      cases blank : Text.isBlank (String.ofList line) with
      | true =>
          rw [blank, if_pos rfl] at first
          rw [Bool.not_true, if_neg Bool.false_ne_true]
          omega
      | false =>
          rw [blank, if_neg Bool.false_ne_true] at first
          rw [Bool.not_false, if_pos rfl]
          omega

/-- Without some of the lines that are dropped, the same is gathered and those are not
counted. -/
theorem foldl_keepAt
    {keep : Nat -> Bool}
    (dropped : ∀ position < lines.length,
      keep position = false -> dropsAt now intake lines position = true) :
    ((Text.keepAt keep lines).foldl (takeLine now) intake).batch =
        (lines.foldl (takeLine now) intake).batch ∧
      ((Text.keepAt keep lines).foldl (takeLine now) intake).dropped +
          (List.range lines.length).countP (fun position => !keep position) =
        (lines.foldl (takeLine now) intake).dropped := by
  induction lines generalizing intake keep with
  | nil => exact ⟨rfl, rfl⟩
  | cons line lines inductionHypothesis =>
      have later : ∀ position < lines.length, keep (position + 1) = false ->
          dropsAt now (takeLine now intake line) lines position = true :=
        fun position inRange => dropped (position + 1) (Nat.succ_lt_succ inRange)
      obtain ⟨sameBatch, count⟩ := inductionHypothesis later
      rw [Text.keepAt, List.foldl_cons, List.length_cons, List.range_succ_eq_map,
        List.countP_cons, List.countP_map]
      change _ ∧ _ + (List.countP (fun position => !keep (position + 1)) _ + _) = _
      cases kept : keep 0 with
      | true =>
          rw [if_pos rfl, List.foldl_cons]
          exact ⟨sameBatch, count⟩
      | false =>
          -- the line that is left out would only have been counted
          obtain ⟨batch, counted⟩ := intake
          have first : takeLine now ⟨batch, counted⟩ line = ⟨batch, counted + 1⟩ :=
            takeLine_of_drops (dropped 0 (Nat.succ_pos _) kept)
          rw [first] at sameBatch count ⊢
          rw [foldl_takeLine_counted] at sameBatch count
          rw [if_neg Bool.false_ne_true, <- count]
          refine ⟨sameBatch, ?_⟩
          change _ + (_ + 1) = _ + 1 + _
          omega

end Intake

namespace Session

open Intake

/-- Every text is gathered from: the batch is that of the points in the lines that are
accepted, and all other lines that are not blank are dropped. These hold no point, or one that
is refused behind the lines before it. Whichever of them are left out, the same is gathered,
and they are not counted; and white space on lines of its own, or the way in which lines end,
changes nothing at all. -/
theorem gather_dropped (schema : Schema) (now : UInt64) (text : String) :
    let taken := Intake.ofText schema now
    let lines := Text.lines text.toList
    let dropped := dropsAt now ⟨.empty schema, 0⟩ lines
    let accepted := (Batch.empty schema).acceptedArrivals (lines.filterMap (arrivalOf? now))
    gather schema now text.toUTF8 = .ok (taken text) ∧
    (taken text).batch = ((Batch.empty schema).run accepted).1 ∧
    (∀ answer ∈ ((Batch.empty schema).run accepted).2, answer = none) ∧
    (taken text).dropped + accepted.length =
      lines.countP (fun line => !Text.isBlank (String.ofList line)) ∧
    (taken text).dropped = (List.range lines.length).countP dropped ∧
    (∀ keep,
      (∀ position < lines.length, keep position = false -> dropped position = true) ->
        (taken (Text.keepLines keep text)).batch = (taken text).batch ∧
          (taken (Text.keepLines keep text)).dropped +
              (List.range lines.length).countP (fun position => !keep position) =
            (taken text).dropped) ∧
    (∀ before white after,
      text = before ++ after -> AtLineStart before -> Text.isBlank white = true ->
        taken (before ++ white ++ "\n" ++ after) = taken text) ∧
    (∀ white, Text.isBlank white = true -> taken (text ++ "\n" ++ white) = taken text) ∧
    (∀ before after,
      text = before ++ "\n" ++ after -> taken (before ++ "\r\n" ++ after) = taken text) := by
  intro taken lines dropped accepted
  obtain ⟨sameBatch, allAccepted⟩ :=
    (Batch.empty schema).run_acceptedArrivals (lines.filterMap (arrivalOf? now))
  refine ⟨gather_toUTF8 schema now text, (batch_ofText schema now text).trans sameBatch.symm,
    allAccepted, ?_, ?_, fun keep areDropped => ?_,
    fun before white after split atStart blank => ?_, fun white blank => ?_,
    fun before after split => ?_⟩
  · exact (dropped_foldl_add_accepted _ lines).trans (Nat.zero_add _)
  · exact (dropped_foldl _ lines).trans (Nat.zero_add _)
  · change (Intake.ofText schema now _).batch = _ ∧ (Intake.ofText schema now _).dropped + _ = _
    rw [Intake.ofText, Text.lines_keepLines]
    exact foldl_keepAt areDropped
  · rw [split]
    exact ofText_insert_blank schema now atStart blank after
  · exact ofText_append_blank schema now text blank
  · rw [split]
    exact ofText_insert_return schema now before after

end Session
end LineMetrics
