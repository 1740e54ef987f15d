import IssueSearch.Field.Table
import IssueSearch.Json.Basic
import IssueSearch.Search.Draft

/-! # Reports

    The outcome of a command as a JSON document, for a success and a failure
    alike: whether it succeeded, the data or the failure, and when and by
    which command it was made.  A failure also determines the exit code. -/

namespace IssueSearch

/-! ## Exit codes -/

/-- How a command ends. -/
inductive ExitCode where
  | success
  | general
  /-- The input or the arguments cannot be read. -/
  | badInput
  /-- The query has no search. -/
  | noSearch
  /-- Something outside failed, such as a file. -/
  | external
deriving DecidableEq

namespace ExitCode

/-- The number of an exit code. -/
def value : ExitCode → Nat
  | success  => 0
  | general  => 1
  | badInput => 2
  | noSearch => 4
  | external => 10

/-- How a command ends that failed with an error code. -/
def ofErrorCode (code : String) : ExitCode :=
  if code ∈ ["SCHEMA_ERROR", "UNSUPPORTED_OPERATION", "EVALUATION_FAILED"] then noSearch
  else if code ∈ ["INVALID_ARGUMENT", "PARSE_ERROR", "CONFIG_ERROR"] then badInput
  else if code = "IO_ERROR" then external
  else general

end ExitCode

/-! ## Documents -/

/-- When and by which command a report was made. -/
structure Stamp where
  time    : String
  command : String

/-- The version of the report format. -/
def Stamp.version : String := "0.1.0"

/-- The stamp as a document. -/
def Stamp.toJson (s : Stamp) : Json :=
  .obj [("timestamp", .str s.time), ("version", .str Stamp.version), ("command", .str s.command)]

/-- The report on a success. -/
def Stamp.success (s : Stamp) (data : Json) : Json :=
  .obj [("success", .bool true), ("data", data), ("metadata", s.toJson)]

/-- A failure as it is reported. -/
structure Failure where
  code        : String
  message     : String
  details     : Option Json
  suggestions : List String

namespace Failure

/-- A failure without details and suggestions. -/
def plain (code message : String) : Failure :=
  { code := code, message := message, details := none, suggestions := [] }

/-- What a failed search has to say beyond its message. -/
def searchDetails : SearchError → Option Json
  | .unsupported symbol _ => some (.obj [("symbol", .str symbol)])
  | _                     => none

/-- A failed search. -/
def ofSearch (e : SearchError) : Failure :=
  { code := e.code, message := e.message, details := searchDetails e, suggestions := e.remedies }

/-- How a command ends with this failure. -/
def exitCode (f : Failure) : ExitCode := .ofErrorCode f.code

/-- The failure as a document. -/
def toJson (f : Failure) : Json :=
  .objOf [("code", some (.str f.code)), ("message", some (.str f.message)),
    ("details", f.details),
    ("suggestions", if f.suggestions.isEmpty then none else some (.arr (f.suggestions.map .str)))]

/-- The report on a failure. -/
def report (f : Failure) (s : Stamp) : Json :=
  .obj [("success", .bool false), ("error", f.toJson), ("metadata", s.toJson)]

end Failure

/-- A search as a document. -/
def Search.toJson (s : Search) : Json :=
  .objOf [("jql", some (.str s.text)), ("startAt", s.startAt.map fun n => .int n.toNat),
    ("maxResults", s.maxResults.map fun n => .int n.toNat)]

/-- A row of a field table as a document. -/
def FieldTable.rowJson (p : Property) (f : Field) : Json :=
  .obj [("property", .str p.text), ("remote", .str f.remoteName),
    ("flags", .arr (f.abilities.names.map .str))]

/-- A field table as a document. -/
def FieldTable.toJson (t : FieldTable) : Json :=
  .obj [("fields", .arr (t.rows.map fun row => rowJson row.1 row.2)), ("count", .int t.size)]

end IssueSearch
