import IssueSearch.Expr.Build
import IssueSearch.Text.Case

/-! # Chains of query steps

    A query over an entity is its remote collection followed by steps.  As a
    tree, each step is a call whose first operand is the chain before it, and
    the functions of a step are quoted lambdas over one item of the entity. -/

namespace IssueSearch

/-- A step of a query. -/
inductive Step where
  | filter (predicate : Expr)
  | sort (step : SortStep) (key : Expr)
  | select (projection : Expr)
  | skip (count : UInt32)
  | take (count : UInt32)
  | distinct
  | count
  | any
  | first
  | firstOrDefault
  | toList

/-- The parameter that stands for one item of an entity: it is named for the
    entity in lower case. -/
def itemParam (entity : String) : Param :=
  { name := Text.lower entity, type := .record entity }

/-- A function of one item of an entity. -/
def itemLambda (entity : String) (body : Expr) : Expr :=
  .quote (.lambda [itemParam entity] body)

namespace Step

/-- The operator of a step. -/
def operator : Step → Operator
  | filter _       => .filter
  | sort step _    => .sort step
  | select _       => .select
  | skip _         => .skip
  | take _         => .take
  | distinct       => .distinct
  | count          => .count
  | any            => .any
  | first          => .first
  | firstOrDefault => .firstOrDefault
  | toList         => .toList

/-- A count of items as a constant. -/
def countExpr (n : UInt32) : Expr :=
  .constant (.int (Int64.ofInt n.toNat)) .int32

/-- The operands of a step after the chain before it. -/
def args (entity : String) : Step → List Expr
  | filter predicate  => [itemLambda entity predicate]
  | sort _ key        => [itemLambda entity key]
  | select projection => [itemLambda entity projection]
  | skip n            => [countExpr n]
  | take n            => [countExpr n]
  | _                 => []

/-- The tree of a chain extended by one step. -/
def extend (entity : String) (before : Expr) (s : Step) : Expr :=
  .call none { name := s.operator.name, remote := false } (before :: s.args entity)

end Step

/-- Steps applied to a tree, the first step first. -/
def extendAll (entity : String) (start : Expr) (steps : List Step) : Expr :=
  steps.foldl (Step.extend entity) start

/-- A query: an entity and the steps over its remote collection. -/
structure Chain where
  entity : String
  steps  : List Step

/-- The tree of a query. -/
def Chain.toExpr (c : Chain) : Expr :=
  extendAll c.entity (.source c.entity) c.steps

end IssueSearch
