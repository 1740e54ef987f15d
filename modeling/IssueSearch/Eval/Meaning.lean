import IssueSearch.Eval.Arithmetic
import IssueSearch.Eval.Sequence

/-! # The meaning of a tree

    `Expr.meaning` gives every node a meaning in terms of the meanings of the
    nodes below it.  A node can be asked for three things:

    * its value, in a scope that binds parameters;
    * what it yields as a function of one value, if it is a lambda;
    * the keys that order it and what lies below them, if it is an ordering
      step.

    `Expr.eval` asks for the value. -/

namespace IssueSearch

open Sequence (SortKey)

/-- Bindings of parameters, the innermost first. -/
abbrev Scope := List (String × Value)

/-- A value that depends on a scope. -/
abbrev ScopedValue := Scope → Except EvalError Value

/-- A key to sort by, whose function depends on a scope. -/
structure ScopedKey where
  descending : Bool
  key        : Scope → ItemFunction

/-- What a node means. -/
structure Meaning where
  /-- The value of the node. -/
  value : ScopedValue
  /-- The node as a function of one value. -/
  apply : Scope → ItemFunction
  /-- The keys of the ordering steps that end here, in the order in which they
      decide, and what they sort. -/
  ordering : Except EvalError (List ScopedKey × ScopedValue)

namespace Meaning

/-- A node of the given kind that is neither a lambda nor an ordering step. -/
def plain (kind : String) (value : ScopedValue) : Meaning where
  value := value
  apply := fun _ _ =>
    .error (.typeMismatch "lambda application" (kind ++ " is not a lambda"))
  ordering := .ok ([], value)

/-! ## Operators -/

/-- The truth value of an operand. -/
def bool (op : BinaryOp) (operand : ScopedValue) (scope : Scope) : Except EvalError Bool := do
  match ← operand scope with
  | .bool b => .ok b
  | other   => .error (.typeMismatch op.name ("expected bool, got " ++ other.kind))

/-- The value of an operator.  A conjunction or disjunction that the left
    operand decides does not look at the right one. -/
def binary (op : BinaryOp) (left right : ScopedValue) (scope : Scope) :
    Except EvalError Value :=
  match op with
  | .and | .andAlso => do
    if ← bool op left scope then
      .ok (.bool (← bool op right scope))
    else
      .ok (.bool false)
  | .or | .orElse => do
    if ← bool op left scope then
      .ok (.bool true)
    else
      .ok (.bool (← bool op right scope))
  | op => do
    let l ← left scope
    let r ← right scope
    applyStrict op l r

/-- The values of all operands, from left to right. -/
def values (operands : List Meaning) (scope : Scope) : Except EvalError (List Value) :=
  match operands with
  | [] => .ok []
  | operand :: rest => do
    let value ← operand.value scope
    let others ← values rest scope
    .ok (value :: others)

/-- The property of a value. -/
def property (p : Property) (target : Value) : Except EvalError Value :=
  match target with
  | .record _ _ fields =>
    match fields.lookup p.name with
    | some v => .ok v
    | none   => .error (.unsupported ("member '" ++ p.text ++ "'"))
  | other =>
    .error (.typeMismatch ("member '" ++ p.text ++ "'") ("target is " ++ other.kind))

/-! ## Collection operators -/

/-- The items of a list. -/
def items (operation : String) (source : ScopedValue) (scope : Scope) :
    Except EvalError (List Value) := do
  match ← source scope with
  | .array items => .ok items
  | other =>
    .error (.typeMismatch operation ("expected a sequence, got " ++ other.kind))

/-- The keys of an ordering step and of the steps that it refines. -/
def orderingOf (step : SortStep) (operands : List Meaning) :
    Except EvalError (List ScopedKey × ScopedValue) :=
  let name := (Operator.sort step).name
  match operands with
  | []  => .error (.typeMismatch name "missing source sequence")
  | [_] => .error (.typeMismatch name "missing key selector")
  | source :: key :: _ =>
    let last : ScopedKey := { descending := step.isDescending, key := key.apply }
    if step.refines then do
      let (keys, below) ← source.ordering
      .ok (keys ++ [last], below)
    else
      .ok ([last], source.value)

/-- The value of an ordering step. -/
def sorted (step : SortStep) (operands : List Meaning) (scope : Scope) :
    Except EvalError Value := do
  let (keys, source) ← orderingOf step operands
  let sortKeys : List SortKey :=
    keys.map fun k => { descending := k.descending, key := k.key scope }
  .ok (.array (← Sequence.sortBy sortKeys (← items (Operator.sort .orderBy).name source scope)))

/-- The count that a paging step is given. -/
def pageCount (op : Operator) (count? : Option Meaning) (scope : Scope) :
    Except EvalError Nat :=
  let failure : EvalError := .typeMismatch op.name "expected a non-negative count"
  match count? with
  | none => .error failure
  | some count => do
    match ← count.value scope with
    | .int n => if 0 ≤ n.toInt then .ok n.toInt.toNat else .error failure
    | _      => .error failure

/-- The function that a step must be given. -/
def required (op : Operator) (what : String) (function? : Option Meaning) (scope : Scope) :
    Except EvalError ItemFunction :=
  match function? with
  | some f => .ok (f.apply scope)
  | none   => .error (.typeMismatch op.name ("missing " ++ what))

/-- The value of a step that does not sort, on the items it is given. -/
def onItems (op : Operator) (operand? : Option Meaning) (scope : Scope) (items : List Value) :
    Except EvalError Value :=
  let kept := Sequence.keepIf op.name (operand?.map fun m => m.apply scope) items
  match op with
  | .filter => do
    let predicate ← required op "predicate" operand? scope
    .ok (.array (← Sequence.keep op.name predicate items))
  | .select => do
    let projection ← required op "projection" operand? scope
    .ok (.array (← Sequence.mapItems projection items))
  | .skip => do .ok (.array (items.drop (← pageCount op operand? scope)))
  | .take => do .ok (.array (items.take (← pageCount op operand? scope)))
  | .count => do .ok (.int (Int64.ofNat (← kept).length))
  | .any => do .ok (.bool !(← kept).isEmpty)
  | .first => do
    match ← kept with
    | item :: _ => .ok item
    | []        => .error (.function op.name "sequence contains no elements")
  | .firstOrDefault => do .ok ((← kept).headD .null)
  | .distinct => .ok (.array (Sequence.distinct items))
  | .toList => .ok (.array items)
  | .sort _ => .ok (.array items)

/-- The value of a collection operator. -/
def operator (op : Operator) (operands : List Meaning) (scope : Scope) :
    Except EvalError Value :=
  match op with
  | .sort step => sorted step operands scope
  | op =>
    match operands with
    | [] => .error (.typeMismatch op.name "missing source sequence")
    | source :: rest => do onItems op rest.head? scope (← items op.name source.value scope)

/-! ## Calls -/

/-- The value of a call. -/
def callValue (lib : Library) (method : Method) (operands : List Meaning) (scope : Scope) :
    Except EvalError Value :=
  if method.remote then
    .error (.unsupported ("remote function '" ++ method.name ++ "'"))
  else
    match Operator.ofName? method.name with
    | some op => operator op operands scope
    | none    => do lib.call method.name (← values operands scope)

/-- The meaning of a call.  As an ordering step it is known by its name alone. -/
def call (lib : Library) (method : Method) (operands : List Meaning) : Meaning :=
  let value := callValue lib method operands
  { plain "call" value with
    ordering :=
      match Operator.ofName? method.name with
      | some (.sort step) => orderingOf step operands
      | _                 => .ok ([], value) }

/-- The meaning of a lambda, which binds its first parameter. -/
def lambda (params : List Param) (body : Meaning) : Meaning :=
  { plain "lambda" fun _ => .error (.unsupported "a lambda as a value") with
    apply := fun scope arg =>
      match params with
      | [] => .error (.typeMismatch "lambda application" "lambda has no parameter")
      | p :: _ => body.value ((p.name, arg) :: scope) }

/-- The meaning of a quoted tree, which is only of use as a function. -/
def quote (operand : Meaning) : Meaning :=
  { plain "quote" fun _ => .error (.unsupported "a lambda as a value") with
    apply := operand.apply }

/-- The value of a constant. -/
def constantValue : Value → Except EvalError Value
  | .source entity => .error (.unsupported ("the remote " ++ entity ++ " source"))
  | v              => .ok v

/-- The value of a parameter. -/
def parameterValue (name : String) (scope : Scope) : Except EvalError Value :=
  match scope.lookup name with
  | some v => .ok v
  | none   => .error (.unsupported ("unbound parameter '" ++ name ++ "'"))

end Meaning

namespace Expr

mutual

/-- The meaning of a tree under a library. -/
def meaning (lib : Library) : Expr → Meaning
  | binary op left right =>
    .plain "binary" (Meaning.binary op (left.meaning lib).value (right.meaning lib).value)
  | call target method args =>
    .call lib method (targetMeaning lib target ++ argsMeaning lib args)
  | member target p _ =>
    .plain "member" fun scope => do Meaning.property p (← (target.meaning lib).value scope)
  | constant value _ => .plain "constant" fun _ => Meaning.constantValue value
  | convert operand type =>
    .plain "convert" fun scope => do convertTo type (← (operand.meaning lib).value scope)
  | construct name args =>
    .plain "new" fun scope => do lib.construct name (← Meaning.values (argsMeaning lib args) scope)
  | lambda params body => .lambda params (body.meaning lib)
  | parameter param => .plain "parameter" (Meaning.parameterValue param.name)
  | quote operand => .quote (operand.meaning lib)

/-- The meaning of the target of a call, if it has one. -/
def targetMeaning (lib : Library) : Option Expr → List Meaning
  | none        => []
  | some target => [target.meaning lib]

/-- The meanings of a list of operands. -/
def argsMeaning (lib : Library) : List Expr → List Meaning
  | []          => []
  | arg :: rest => arg.meaning lib :: argsMeaning lib rest

end

/-- The value of a tree in a scope. -/
def evalIn (lib : Library) (e : Expr) (scope : Scope) : Except EvalError Value :=
  (e.meaning lib).value scope

/-- The value of a tree on its own. -/
def eval (lib : Library) (e : Expr) : Except EvalError Value :=
  e.evalIn lib []

end Expr

end IssueSearch
