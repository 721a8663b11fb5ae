import LineMetrics.Batch
import LineMetrics.Point.Json
import LineMetrics.Text.Blank
import LineMetrics.Text.Lines

/-!
# Points from lines of text

Every line holds the JSON text of a point. A line of white space is passed over, and
a line that holds no point, or one that is refused, is counted and has no effect on
what is gathered from the others.
-/

namespace LineMetrics

/-- What has been gathered from lines, and the number of lines without effect. -/
structure Intake where
  batch : Batch
  dropped : Nat := 0

namespace Intake

/-- Take in the point of a line that is not blank. -/
def takePoint (now : UInt64) (intake : Intake) (line : String) : Intake :=
  match Point.ofText? line with
  | none => { intake with dropped := intake.dropped + 1 }
  | some point =>
      match intake.batch.add now point with
      | (batch, none) => { intake with batch }
      | (batch, some _) => { batch, dropped := intake.dropped + 1 }

/-- Take in a line. -/
def takeLine (now : UInt64) (intake : Intake) (line : List Char) : Intake :=
  let line := String.ofList line
  if Text.isBlank line then intake else takePoint now intake line

/-- Take in all lines of a text. -/
def ofText (schema : Schema) (now : UInt64) (text : String) : Intake :=
  (Text.lines text.toList).foldl (takeLine now) ⟨.empty schema, 0⟩

end Intake
end LineMetrics
