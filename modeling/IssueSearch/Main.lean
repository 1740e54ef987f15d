import IssueSearch.Calendar.Text
import IssueSearch.Command.Run
import Std.Time.DateTime.Timestamp

/-! # The command line

    Reads the files that a run needs, and prints what it has to say. -/

namespace IssueSearch

/-- Is it the code of a name that is too long?  Codes come with either sign. -/
def FileError.isNameTooLong (code : UInt32) : Bool :=
  code = 36 || 0 - code = 36

/-- Why a file cannot be read.  A file of the wrong type is told by its name if
    it cannot be opened, and without a name if it cannot be read. -/
def FileError.ofSystem (e : IO.Error) : FileError :=
  match e with
  | .noFileOrDirectory _ _ _        => .missing
  | .inappropriateType (some _) _ _ => .notDirectory
  | .inappropriateType none _ _     => .directory
  | .invalidArgument _ code _       =>
    if isNameTooLong code then .nameTooLong else .other (toString e)
  | e                               => .other (toString e)

/-- The outcome of reading a text. -/
def fileText (read : IO String) : IO FileText := do
  try
    return .ok (← read)
  catch e =>
    return .error (.ofSystem e)

/-- The text of an input, where a dash stands for the standard input. -/
def inputText (path : String) : IO FileText :=
  fileText (if path = "-" then do (← IO.getStdin).readToEnd else IO.FS.readFile path)

/-- The time of day in the universal zone. -/
def timeText : IO String := do
  let nanos := (← Std.Time.Timestamp.now).toNanosecondsSinceUnixEpoch.toInt
  let perDay : Int := Calendar.nanosPerDay
  match Calendar.DateTime.ofDay? (nanos / perDay) (nanos % perDay).toNat with
  | some d => return d.interchange ++ "+00:00"
  | none   => return ""

/-- Runs a command and prints its output. -/
def Arguments.perform (args : Arguments) : IO UInt32 := do
  let settings ← fileText (IO.FS.readFile args.settingsPath)
  let input ←
    match args.input? settings with
    | some path => inputText path
    | none      => pure (.error .missing)
  let output := args.output (← timeText) (args.attempt settings input)
  IO.print output.stdout
  IO.eprint output.stderr
  return UInt32.ofNat output.exit.value

end IssueSearch

/-- Runs the command that the arguments name. -/
def main (tokens : List String) : IO UInt32 := do
  match IssueSearch.Arguments.read (← IO.getEnv "JQL_CONFIG") tokens with
  | .ok args => args.perform
  | .error e =>
    IO.eprintln ("error: " ++ e.message)
    return UInt32.ofNat IssueSearch.ExitCode.badInput.value
