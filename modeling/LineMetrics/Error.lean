import LineMetrics.Binary64.Text
import LineMetrics.MetricKind
import LineMetrics.Text.Quoted

/-!
# Causes of failure

Each constructor of `Error` is one cause, with what is needed to say it in a
message. The first group concerns single values, the second points that are read,
the third metrics that are written, and the last the world outside.
-/

namespace LineMetrics

/-- What makes the data of a metric impossible to write. -/
inductive Malformation
  | noData
  | noValue
  | bucketLayout (counts bounds : Nat)
  deriving DecidableEq

namespace Malformation

def message : Malformation -> String
  | .noData => "metric has no data"
  | .noValue => "number data point has no value"
  | .bucketLayout counts bounds => s!"{counts} bucket counts for {bounds} explicit bounds"

end Malformation

/-- What is wrong with a command line, or the information it asks for in place of
a command. -/
inductive UsageProblem
  | helpRequested
  | versionRequested
  | nothingGiven
  | unknownCommand
  | unknownArgument
  | unusableValue
  | repeatedOption
  | needlessValue
  deriving DecidableEq

namespace UsageProblem

def message : UsageProblem -> String
  | .helpRequested => "help is available"
  | .versionRequested => "the version is available"
  | .nothingGiven => "a command is missing"
  | .unknownCommand => "there is no such command"
  | .unknownArgument => "an argument has no meaning here"
  | .unusableValue => "an option lacks a usable value"
  | .repeatedOption => "an option is given more than once"
  | .needlessValue => "an option does not take a value"

end UsageProblem

/-- A cause of failure. -/
inductive Error
  | unknownSchema (name : String)
  | notNumeric (field kind : String)
  | notACount (field value : String)
  | invalidTimestamp (value : String)
  | missingField (distribution : Distribution) (field metric : String)
  | noNumericFields (measurement : String)
  | unexpectedMeasurement (measurement : String)
  | unknownValueType (fields : List String)
  | fieldCount (expected : String) (found : Nat)
  | kindConflict (metric : String) (existing requested : MetricKind)
  | duplicateBound (metric : String) (bound : Binary64)
  | invalidBucketBound (text : String)
  | invalidQuantile (text : String)
  | unpairedBucket (bound : String)
  | unpairedQuantile (quantile : String)
  | unpairedTotal (field metric missing : String)
  | unsupportedTemporality (metric : String) (code : Int)
  | nonMonotonicSum (metric : String)
  | unsupportedMetricType (metric kind : String)
  | malformed (metric : String) (malformation : Malformation)
  | writer (reason : String)
  | unreadableInput
  | malformedJson
  | noConnection
  | usage (problem : UsageProblem)
  deriving DecidableEq

namespace Error

/-- The wording of a cause. -/
def message : Error -> String
  | .unknownSchema name => s!"unrecognized metrics schema '{name}'"
  | .notNumeric field kind =>
      s!"unsupported {kind} value for field '{field}' in a numeric context"
  | .notACount field value =>
      s!"field '{field}' value {value} cannot be represented as a count"
  | .invalidTimestamp value => s!"invalid timestamp '{value}'"
  | .missingField distribution field metric =>
      s!"{distribution.name} {field} field not found for metric '{metric}'"
  | .noNumericFields measurement => s!"no numeric fields in point '{measurement}'"
  | .unexpectedMeasurement measurement => s!"unexpected measurement name '{measurement}'"
  | .unknownValueType fields =>
      "unable to infer metric type from fields " ++ Text.quotedList fields
  | .fieldCount expected found =>
      s!"{expected} point should have exactly one field, found {found}"
  | .kindConflict metric existing requested =>
      s!"metric '{metric}' is a {existing.name}, cannot add a {requested.name} point"
  | .duplicateBound metric bound =>
      s!"duplicate histogram bucket bound {bound.plainText} for metric '{metric}'"
  | .invalidBucketBound text => s!"invalid histogram bucket bound '{text}'"
  | .invalidQuantile text => s!"invalid summary quantile '{text}'"
  | .unpairedBucket bound => s!"histogram bucket bound {bound} has no matching count"
  | .unpairedQuantile quantile => s!"summary quantile {quantile} has no matching value"
  | .unpairedTotal field metric missing =>
      s!"{field} of metric '{metric}' has no matching {missing}"
  | .unsupportedTemporality metric code =>
      s!"unsupported aggregation temporality {code} for metric '{metric}'"
  | .nonMonotonicSum metric => s!"unsupported non-monotonic sum '{metric}'"
  | .unsupportedMetricType metric kind =>
      s!"unsupported metric type {kind} for metric '{metric}'"
  | .malformed metric malformation =>
      s!"malformed data point for metric '{metric}': {malformation.message}"
  | .writer reason => s!"point writer failed: {reason}"
  | .unreadableInput => "the input cannot be read"
  | .malformedJson => "the input is not the JSON text of a request"
  | .noConnection => "transport error"
  | .usage problem => problem.message

/-- The cause as a failure of the writer; one that already is stays as it is. -/
def ofWriter : Error -> Error
  | .writer reason => .writer reason
  | other => .writer other.message

@[simp] theorem ofWriter_writer (reason : String) :
    ofWriter (.writer reason) = .writer reason := rfl

@[simp] theorem ofWriter_ofWriter (error : Error) :
    ofWriter (ofWriter error) = ofWriter error := by
  cases error <;> rfl

end Error
end LineMetrics
