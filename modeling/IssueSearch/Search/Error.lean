import IssueSearch.Eval.Error

/-! # Failures of a search

    Why a query cannot be put to the server, with what may have caused it and
    what helps. -/

namespace IssueSearch

/-- Why a query has no search text. -/
inductive SearchError where
  /-- A property that is not a searchable field. -/
  | schema (what : String)
  /-- Something that the search language has no words for. -/
  | unsupported (symbol reason : String)
  /-- A part that should have been computed here, and failed. -/
  | evaluation (failure : EvalError)
deriving DecidableEq

namespace SearchError

/-- The stable code of a failure. -/
def code : SearchError → String
  | schema _        => "SCHEMA_ERROR"
  | unsupported _ _ => "UNSUPPORTED_OPERATION"
  | evaluation _    => "EVALUATION_FAILED"

/-- The message of a failure. -/
def message : SearchError → String
  | schema what               => "Schema error: " ++ what
  | unsupported symbol reason => "Unsupported operation '" ++ symbol ++ "': " ++ reason
  | evaluation failure        => "Evaluation failed: " ++ failure.message

/-- What may have caused a failure. -/
def causes : SearchError → List String
  | schema _ =>
    ["The property has no field metadata",
     "The field table was loaded for a different entity type"]
  | unsupported symbol _ =>
    ["'" ++ symbol ++ "' has no query-language translation",
     "A local computation could not be folded to a constant"]
  | evaluation _ => ["A captured value or local function failed while folding constants"]

/-- What helps against a failure. -/
def remedies : SearchError → List String
  | schema _ =>
    ["List known fields: jql fields",
     "Declare the field under [fields.<Owner>.<name>] in jql.toml"]
  | unsupported _ _ =>
    ["Move the computation out of the query and capture its result",
     "Apply in-memory operators after the search (select, count, first)"]
  | evaluation _ => ["Check the arguments passed to local functions in the query"]

end SearchError

/-- A message with what may have caused it and what helps. -/
structure Advice where
  message  : String
  causes   : List String
  remedies : List String

/-- A heading over a list, nothing if the list is empty. -/
def Advice.block (heading : String) (lines : List String) : String :=
  if lines.isEmpty then ""
  else "\n" ++ heading ++ ":\n" ++ String.join (lines.map fun l => "  • " ++ l ++ "\n")

/-- The message followed by the causes and the remedies. -/
def Advice.text (a : Advice) : String :=
  "Error: " ++ a.message ++ "\n" ++ Advice.block "Possible causes" a.causes ++
    Advice.block "To fix" a.remedies

/-- The advice on a failure. -/
def SearchError.advice (e : SearchError) : Advice :=
  { message := e.message, causes := e.causes, remedies := e.remedies }

end IssueSearch
