import LineMetrics.Session
import Std.Time.DateTime.Timestamp

/-!
# The program

Runs the command line with the clock and the files of the machine. Lines go to the
standard output, and the message of a failure to the standard error.
-/

namespace LineMetrics
namespace Program

/-- Everything that a stream still holds, behind what has been read. -/
partial def readToEnd (stream : IO.FS.Stream) (contents : ByteArray) : IO ByteArray := do
  let bytes <- stream.read 65536
  if bytes.isEmpty then return contents
  readToEnd stream (contents ++ bytes)

/-- The contents of a file, or of the standard input if none is named. -/
def readInput (name : Option String) : IO (Option ByteArray) := do
  try
    match name with
    | some name => return some (<- IO.FS.readBinFile name)
    | none => return some (<- readToEnd (<- IO.getStdin) .empty)
  catch _ => return none

/-- The current time in nanoseconds since 1970. -/
def currentTime : IO UInt64 := do
  let timestamp <- Std.Time.Timestamp.now
  return UInt64.ofNat timestamp.toNanosecondsSinceUnixEpoch.val.toNat

/-- Print what comes of a command line, and give the status to exit with. -/
def finish : Except Error (List String) -> IO UInt32
  | .ok lines => do
      lines.forM IO.println
      return 0
  | .error (.usage .helpRequested) => do
      IO.println CommandLine.usage
      return 0
  | .error (.usage .versionRequested) => do
      IO.println CommandLine.version
      return 0
  | .error error => do
      IO.eprintln error.message
      return 1

end Program
end LineMetrics

def main (arguments : List String) : IO UInt32 := do
  let now <- LineMetrics.Program.currentTime
  LineMetrics.Program.finish
    (<- LineMetrics.Session.run now LineMetrics.Program.readInput arguments)
