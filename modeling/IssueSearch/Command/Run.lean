import IssueSearch.Command.Arguments
import IssueSearch.Eval.Standard
import IssueSearch.Expr.Json
import IssueSearch.Issue
import IssueSearch.Json.Reader
import IssueSearch.Json.Writer
import IssueSearch.Report
import IssueSearch.Settings

/-! # Running a command

    A run is a function of its arguments and of what its files hold:

    * `Arguments.attempt` finds the answer of the command, or why there is
      none;
    * `Arguments.output` tells what is printed and how the run ends. -/

namespace IssueSearch

/-! ## Files -/

/-- Why a file cannot be read. -/
inductive FileError where
  | missing
  | directory
  /-- The path goes through something that is not a directory. -/
  | notDirectory
  /-- A name in the path, or the whole path, is longer than the system takes. -/
  | nameTooLong
  | other (reason : String)

/-- The reason in the words of the system. -/
def FileError.reason : FileError → String
  | missing      => "No such file or directory (os error 2)"
  | directory    => "Is a directory (os error 21)"
  | notDirectory => "Not a directory (os error 20)"
  | nameTooLong  => "File name too long (os error 36)"
  | other reason => reason

/-- The text of a file. -/
abbrev FileText := Except FileError String

/-! ## Failures -/

/-- Why a command has no answer. -/
inductive RunError where
  | settingsUnreadable (path : String) (failure : FileError)
  | settingsMalformed (path detail : String)
  | inputUnreadable (path : String) (failure : FileError)
  | inputMalformed (detail : String)
  /-- The settings declare a field that cannot be. -/
  | fields (failure : SettingsError)
  | search (failure : SearchError)

namespace RunError

/-- The failure to report. -/
def failure : RunError → Failure
  | settingsUnreadable path failure =>
    .plain "IO_ERROR"
      ("Failed to load configuration: Failed to read " ++ path ++ ": " ++ failure.reason)
  | settingsMalformed path detail =>
    .plain "CONFIG_ERROR"
      ("Failed to load configuration: Failed to parse " ++ path ++ ": " ++ detail)
  | inputUnreadable path failure =>
    .plain "IO_ERROR"
      ("Failed to read " ++ (if path = "-" then "expression from stdin" else path) ++ ": " ++
        failure.reason)
  | inputMalformed detail =>
    .plain "PARSE_ERROR" ("Failed to parse expression tree JSON: " ++ detail)
  | fields failure =>
    .plain "GENERIC_ERROR" ("Invalid [fields] configuration: " ++ failure.message)
  | search failure => .ofSearch failure

/-- The failure in words. -/
def text : RunError → String
  | search failure => failure.advice.text
  | e              => "Error: " ++ e.failure.message

end RunError

/-! ## Answers -/

/-- The answer of a command. -/
inductive Answer where
  /-- A search, and the paging to use where it asks for none. -/
  | search (search : Search) (paging : Paging)
  | fields (table : FieldTable)

namespace Answer

/-- The answer as a document. -/
def toJson : Answer → Json
  | search s _   => s.toJson
  | fields table => table.toJson

/-- A text filled up with blanks. -/
def column (width : Nat) (s : String) : String :=
  s ++ String.ofList (List.replicate (width - s.length) ' ')

/-- A row of a field table as a line. -/
def fieldLine (p : Property) (f : Field) : String :=
  column 28 p.text ++ " " ++ column 18 f.remoteName ++ " " ++ f.abilities.text

/-- The answer as lines. -/
def lines : Answer → List String
  | search s _   => [s.text]
  | fields table => table.rows.map fun row => fieldLine row.1 row.2

/-- What is said beyond the answer. -/
def remarks : Answer → List String
  | search s paging =>
    let request := s.request paging
    ["startAt: " ++ Number.natText request.startAt.toNat,
     "maxResults: " ++ Number.natText request.maxResults.toNat]
  | fields table => ["\n" ++ Number.natText table.size ++ " field(s)"]

end Answer

/-! ## Runs -/

/-- Reads the settings.  A file that is not there stands for no settings at all. -/
def Settings.load (path : String) : FileText → Except RunError Settings
  | .error .missing      => .ok .none
  | .error .notDirectory => .ok .none
  | .error .nameTooLong => .ok .none
  | .error failure       => .error (.settingsUnreadable path failure)
  | .ok text =>
    match Settings.read text with
    | .ok s          => .ok s
    | .error failure => .error (.settingsMalformed path failure.message)

/-- The searchable fields of issues and those of the settings. -/
def Settings.allFields (s : Settings) : Except RunError FieldTable :=
  match s.fieldTable with
  | .ok table      => .ok (Issue.fieldTable.merge table)
  | .error failure => .error (.fields failure)

/-- Reads a query. -/
def Expr.load (path : String) : FileText → Except RunError Expr
  | .error failure => .error (.inputUnreadable path failure)
  | .ok text =>
    match Json.read? text with
    | none   => .error (.inputMalformed "invalid JSON")
    | some j =>
      match Expr.ofJson j with
      | .ok e          => .ok e
      | .error failure => .error (.inputMalformed failure.message)

/-- Folds a query, if it is to be folded. -/
def Expr.foldIf (folding : Bool) (lib : Library) (e : Expr) : Except RunError Expr :=
  if folding then
    match e.fold lib with
    | .ok folded     => .ok folded.tree
    | .error failure => .error (.search (.evaluation failure))
  else .ok e

/-- The search of a query. -/
def Expr.searchWith (ctx : Context) (e : Expr) : Except RunError Search :=
  match e.compile ctx with
  | .ok search     => .ok search
  | .error failure => .error (.search failure)

/-- The answer of a command, given the settings and what its input holds. -/
def Command.attempt (settings : Settings) (input : FileText) :
    Command → Except RunError Answer
  | compile path folding => do
    let e ← Expr.load path input
    let table ← settings.allFields
    let e ← e.foldIf folding .standard
    let search ← e.searchWith
      { fields := table, library := .standard, options := settings.textOptions }
    return .search search settings.pagingOrUsual
  | fields => do
    let table ← settings.allFields
    return .fields table

namespace Arguments

/-- The answer of a run, given what the settings file and the input hold. -/
def attempt (args : Arguments) (settings input : FileText) : Except RunError Answer := do
  let s ← Settings.load args.settingsPath settings
  args.command.attempt s input

/-- The input that a run reads once its settings are known to be sound. -/
def input? (args : Arguments) (settings : FileText) : Option String :=
  match Settings.load args.settingsPath settings, args.command with
  | .ok _, .compile path _ => some path
  | _, _                   => none

end Arguments

/-- What a run prints and how it ends. -/
structure Output where
  exit   : ExitCode
  stdout : String
  stderr : String

/-- Lines as a text. -/
def Output.ofLines (lines : List String) : String :=
  String.join (lines.map fun l => l ++ "\n")

/-- What is printed for the outcome of a run, made at some time. -/
def Arguments.output (args : Arguments) (time : String) : Except RunError Answer → Output
  | .ok answer =>
    let lines :=
      if args.json then [((Stamp.mk time args.command.name).success answer.toJson).pretty]
      else if args.quiet then answer.lines
      else answer.lines ++ answer.remarks
    { exit := .success, stdout := Output.ofLines lines, stderr := "" }
  | .error e =>
    let report := (e.failure.report (Stamp.mk time args.command.name)).pretty
    if args.json then
      { exit := e.failure.exitCode, stdout := Output.ofLines [report], stderr := "" }
    else
      { exit := e.failure.exitCode, stdout := "", stderr := Output.ofLines [e.text] }

end IssueSearch
