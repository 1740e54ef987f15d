import IssueSearch.Expr.Basic
import IssueSearch.Method.Operator

/-! # Results in place of the search

    After a search, the remote collection and every step that the server has
    carried out are replaced by the results, and what is left of the tree is
    what remains to be done here. -/

namespace IssueSearch

/-- The results of a search as a constant, with the type of its items. -/
def resultsExpr (results : List Value) (element : DataType) : Expr :=
  .constant (.array results) (.sequence element)

namespace Expr

/-- Does the node stand for a remote collection? -/
def isRemoteConstant (value : Value) (type : DataType) : Bool :=
  match value with
  | .source _ => true
  | _         => type.isQueryable

/-- Is it a step that the server has carried out? -/
def isServerStep (method : Method) : Bool :=
  !method.remote && isServerSideName method.name

mutual

/-- Puts the results in place of everything that the search has answered. -/
def bindResults (e results : Expr) : Expr :=
  match e with
  | constant value type =>
    if isRemoteConstant value type then results else constant value type
  | call target method args =>
    if isServerStep method then results
    else call (bindTarget target results) method (bindArgs args results)
  | binary op left right => binary op (left.bindResults results) (right.bindResults results)
  | member target p type => member (target.bindResults results) p type
  | convert operand type => convert (operand.bindResults results) type
  | construct name args => construct name (bindArgs args results)
  | lambda params body => lambda params (body.bindResults results)
  | parameter param => parameter param
  | quote operand => quote (operand.bindResults results)

/-- The same in the target of a call. -/
def bindTarget (target : Option Expr) (results : Expr) : Option Expr :=
  match target with
  | none        => none
  | some target => some (target.bindResults results)

/-- The same in all operands. -/
def bindArgs (args : List Expr) (results : Expr) : List Expr :=
  match args with
  | []          => []
  | arg :: rest => arg.bindResults results :: bindArgs rest results

end

end Expr

end IssueSearch
