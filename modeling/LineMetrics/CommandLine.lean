import LineMetrics.Error
import LineMetrics.Schema

/-!
# Command lines

A command line names an activity and its settings. A setting is given by its name
behind two hyphens or by its letter behind one, and its value stands in the same
argument or is the next one. An argument that starts with a hyphen is never taken
for a value, except for a lone hyphen.

A value in an argument of its own is examined only when the next setting begins or
the command line ends; until then another problem comes first.
-/

namespace LineMetrics

/-- What the program is asked to do. -/
inductive Activity
  | ingesting
  | exporting
  deriving DecidableEq

/-- What an activity can be told. -/
inductive Setting
  | schema
  | input
  | endpoint
  deriving DecidableEq

/-- An activity with its settings. -/
structure Command where
  activity : Activity
  schema : String
  input : Option String
  endpoint : Option String
  deriving DecidableEq

namespace Setting

def name : Setting -> String
  | .schema => "schema"
  | .input => "input"
  | .endpoint => "otlp-endpoint"

def letter : Setting -> Char
  | .schema => 's'
  | .input => 'i'
  | .endpoint => 'o'

/-- The value can be used for the setting: a path must not be empty. -/
def accepts (setting : Setting) (value : String) : Bool :=
  setting ≠ .input || value ≠ ""

end Setting

namespace Activity

def name : Activity -> String
  | .ingesting => "ingest"
  | .exporting => "export"

/-- The activity with a name. -/
def ofName? (name : String) : Option Activity :=
  [Activity.ingesting, .exporting].find? fun activity => activity.name = name

/-- The settings of an activity. Only ingested metrics can be sent somewhere. -/
def settings : Activity -> List Setting
  | .ingesting => [.schema, .input, .endpoint]
  | .exporting => [.schema, .input]

@[simp] theorem ofName?_name (activity : Activity) : ofName? activity.name = some activity := by
  cases activity <;> decide

end Activity

namespace CommandLine

/-- The form of an argument. -/
inductive Argument
  | separator
  | named (name : String) (value : Option String)
  | lettered (letter : Char) (value : Option String)
  | plain (text : String)
  deriving DecidableEq

namespace Argument

/-- The value behind a letter, which an equals sign may separate from it. -/
def valueBehindLetter? : List Char -> Option String
  | [] => none
  | '=' :: value => some (String.ofList value)
  | value => some (String.ofList value)

/-- An argument behind two hyphens: a name, and a value behind an equals sign. -/
def ofNameAndValue (text : List Char) : Argument :=
  match text.span (· ≠ '=') with
  | (name, []) => .named (String.ofList name) none
  | (name, _ :: value) => .named (String.ofList name) (some (String.ofList value))

/-- The form of an argument with a text. -/
def ofText (text : String) : Argument :=
  match text.toList with
  | ['-', '-'] => .separator
  | '-' :: '-' :: rest => ofNameAndValue rest
  | '-' :: letter :: rest => .lettered letter (valueBehindLetter? rest)
  | _ => .plain text

end Argument

/-- The settings given so far. The value of the last one may not have been examined, or
may be yet to come. -/
structure Given where
  values : List (Setting × String) := []
  pending : Option (Setting × Option String) := none

namespace Given

/-- Examine the value of a setting, which must be the only one for it. -/
def examine (given : Given) (setting : Setting) (value : String) : Except UsageProblem Given :=
  if (given.values.lookup setting).isSome then .error .repeatedOption
  else if setting.accepts value then .ok ⟨(setting, value) :: given.values, none⟩
  else .error .unusableValue

/-- Examine the value of the last setting. -/
def settle (given : Given) : Except UsageProblem Given :=
  match given.pending with
  | none => .ok given
  | some (_, none) => .error .unusableValue
  | some (setting, some value) => given.examine setting value

/-- Begin with a setting, which may have its value with it. -/
def begin (given : Given) (setting : Setting) (value : Option String) :
    Except UsageProblem Given := do
  let given <- given.settle
  match value with
  | some value => given.examine setting value
  | none => .ok { given with pending := some (setting, none) }

/-- Take an argument as the value of the last setting, which must lack one. -/
def takeValue (given : Given) (value : String) : Except UsageProblem Given :=
  match given.pending with
  | some (setting, none) => .ok { given with pending := some (setting, some value) }
  | _ => .error .unknownArgument

/-- Examine the value of the last setting and then show help. -/
def help (given : Given) : Except UsageProblem Given := do
  let _ <- given.settle
  .error .helpRequested

end Given

/-- The name and the letter that ask for help. -/
def helpName : String := "help"

def helpLetter : Char := 'h'

/-- The name and the letter that ask for the version. -/
def versionName : String := "version"

def versionLetter : Char := 'V'

/-- Take an argument of an activity. -/
def takeArgument (activity : Activity) (given : Given) : Argument -> Except UsageProblem Given
  | .separator => .error .unknownArgument
  | .named name value =>
      if name = helpName then
        if value.isSome then .error .needlessValue else given.help
      else
        match activity.settings.find? fun setting => setting.name = name with
        | some setting => given.begin setting value
        | none => .error .unknownArgument
  | .lettered letter value =>
      if letter = helpLetter then given.help
      else
        match activity.settings.find? fun setting => setting.letter = letter with
        | some setting => given.begin setting value
        | none => .error .unknownArgument
  | .plain text => given.takeValue text

/-- Read the settings of an activity. A separator may stand at the end. -/
def readSettings (activity : Activity) (arguments : List Argument) :
    Except UsageProblem Given := do
  let (arguments, behind) := arguments.span (· ≠ .separator)
  let given <- arguments.foldlM (takeArgument activity) {}
  if 1 < behind.length then .error .unknownArgument else given.settle

/-- Read the command for an activity. -/
def readCommand (activity : Activity) (arguments : List Argument) :
    Except UsageProblem Command := do
  let given <- readSettings activity arguments
  .ok {
    activity
    schema := (given.values.lookup .schema).getD (default : Schema).name
    input := given.values.lookup .input
    endpoint := given.values.lookup .endpoint }

/-- There is a command with that name, or help about it. -/
def isCommand (name : String) : Bool := (Activity.ofName? name).isSome || name = helpName

/-- The problem with arguments behind a separator in place of a command. -/
def problemBehindSeparator : List String -> UsageProblem
  | [] => .nothingGiven
  | name :: _ => if isCommand name then .unknownArgument else .unknownCommand

/-- The answer to a request for help, which may name one command. -/
def problemBehindHelp : List String -> UsageProblem
  | [] => .helpRequested
  | [name] => if isCommand name then .helpRequested else .unknownCommand
  | _ => .unknownCommand

/-- The answer to a named argument in place of a command. -/
def problemWithName (name : String) (value : Option String) : UsageProblem :=
  if name ≠ helpName ∧ name ≠ versionName then .unknownArgument
  else if value.isSome then .needlessValue
  else if name = helpName then .helpRequested
  else .versionRequested

/-- The answer to a letter in place of a command. -/
def problemWithLetter (letter : Char) : UsageProblem :=
  if letter = helpLetter then .helpRequested
  else if letter = versionLetter then .versionRequested
  else .unknownArgument

/-- Read a command line, without the name of the program. -/
def read : List String -> Except UsageProblem Command
  | [] => .error .nothingGiven
  | first :: rest =>
      match Argument.ofText first with
      | .separator => .error (problemBehindSeparator rest)
      | .named name value => .error (problemWithName name value)
      | .lettered letter _ => .error (problemWithLetter letter)
      | .plain name =>
          match Activity.ofName? name with
          | some activity => readCommand activity (rest.map Argument.ofText)
          | none =>
              .error (if name = helpName then problemBehindHelp rest else .unknownCommand)

/-- What the program says when it is asked for help. -/
def usage : String :=
  "Usage: line-metrics ingest [-s SCHEMA] [-i FILE] [-o ENDPOINT]\n" ++
  "       line-metrics export [-s SCHEMA] [-i FILE]"

/-- What the program says when it is asked for its version. -/
def version : String := "line-metrics 0.3.0"

end CommandLine
end LineMetrics
