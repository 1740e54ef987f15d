/-! # Failures of local evaluation -/

namespace IssueSearch

/-- Why a tree has no value here. -/
inductive EvalError where
  /-- Something that only the search server knows, or that nothing defines.
      The tree is left as it is. -/
  | unsupported (what : String)
  /-- An operation met a value of the wrong kind. -/
  | typeMismatch (operation detail : String)
  /-- A whole number was divided by zero. -/
  | divisionByZero
  /-- A function of the library rejected its arguments. -/
  | function (name message : String)
deriving DecidableEq

namespace EvalError

/-- Is the tree merely beyond local evaluation? -/
def isUnsupported : EvalError → Bool
  | unsupported _ => true
  | _             => false

/-- The message of a failure. -/
def message : EvalError → String
  | unsupported what              => "cannot evaluate " ++ what ++ " locally"
  | typeMismatch operation detail => "type mismatch in " ++ operation ++ ": " ++ detail
  | divisionByZero                => "division by zero"
  | function name message         => "function '" ++ name ++ "' failed: " ++ message

end EvalError

end IssueSearch
