import LineMetrics.CommandLine
import LineMetrics.Export
import LineMetrics.Intake
import LineMetrics.Request.Printer
import LineMetrics.Request.Reader

/-!
# Sessions

What a command does with the contents of its input: ingesting turns lines of points
into one line with a request, and exporting turns a request into lines of points.
-/

namespace LineMetrics
namespace Session

/-- The text of an input to be read line by line. -/
def textOf (contents : ByteArray) : Except Error String :=
  match String.fromUTF8? contents with
  | some text => .ok text
  | none => .error .unreadableInput

/-- Gather the points in the lines of an input. -/
def gather (schema : Schema) (now : UInt64) (contents : ByteArray) : Except Error Intake := do
  .ok (Intake.ofText schema now (<- textOf contents))

/-- The metric tree of a request in an input. -/
def requestIn (contents : ByteArray) : Except Error MetricTree :=
  match Request.treeOfBytes? contents with
  | some tree => .ok tree
  | none => .error .malformedJson

/-- The lines for the points of a metric tree. -/
def pointLines (schema : Schema) (tree : MetricTree) : List String :=
  let (written, _) := Export.writeTree schema PointWriter.collecting tree []
  written.reverse.map Point.toText

/-- The lines that a command prints, given the contents of its input if it can be
read. There is no connection by which a request could be sent anywhere. -/
def output
    (now : UInt64)
    (schema : Schema)
    (command : Command)
    (contents : Option ByteArray) : Except Error (List String) :=
  match contents with
  | none => .error .unreadableInput
  | some contents =>
      match command.activity with
      | .ingesting => do
          let intake <- gather schema now contents
          if command.endpoint.isSome then .error .noConnection
          else .ok [Request.textOfTree intake.batch.finish]
      | .exporting => do
          .ok (pointLines schema (<- requestIn contents))

/-- Run a command line. The input, which may have a name, is opened only if the schema
is known. -/
def run
    [Monad m]
    (now : UInt64)
    (inputOf : Option String -> m (Option ByteArray))
    (arguments : List String) : m (Except Error (List String)) :=
  match CommandLine.read arguments with
  | .error problem => pure (.error (.usage problem))
  | .ok command =>
      match Schema.ofName command.schema with
      | .error error => pure (.error error)
      | .ok schema => do
          let contents <- inputOf command.input
          pure (output now schema command contents)

end Session
end LineMetrics
