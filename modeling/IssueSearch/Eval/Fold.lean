import IssueSearch.Eval.Meaning

/-! # Folding constants

    Folding replaces every part of a tree that can be computed here by its
    value.  A part is closed when it mentions no parameter and no remote
    collection.  A closed part that evaluates becomes a constant; one that is
    beyond local evaluation is searched for smaller closed parts; one that
    fails in any other way makes folding fail with that failure. -/

namespace IssueSearch

/-- A tree after a pass over it, and whether the pass changed it. -/
structure Folded (α : Type) where
  tree    : α
  changed : Bool

namespace Folded

/-- A tree left as it was. -/
def kept {α : Type} (tree : α) : Folded α :=
  { tree := tree, changed := false }

/-- The tree in a new place. -/
def map {α β : Type} (f : α → β) (r : Folded α) : Folded β :=
  { tree := f r.tree, changed := r.changed }

/-- Two trees brought together; a change of either is a change. -/
def map₂ {α β γ : Type} (f : α → β → γ) (a : Folded α) (b : Folded β) : Folded γ :=
  { tree := f a.tree b.tree, changed := a.changed || b.changed }

end Folded

/-- Does the value stand for a remote collection? -/
def Value.isSource : Value → Bool
  | .source _ => true
  | _         => false

namespace Expr

mutual

/-- Does the tree mention neither a parameter nor a remote collection? -/
def isClosed : Expr → Bool
  | binary _ left right => left.isClosed && right.isClosed
  | call target _ args  => targetClosed target && argsClosed args
  | member target _ _   => target.isClosed
  | constant value _    => !value.isSource
  | convert operand _   => operand.isClosed
  | construct _ args    => argsClosed args
  | lambda _ body       => body.isClosed
  | parameter _         => false
  | quote operand       => operand.isClosed

/-- The same of the target of a call. -/
def targetClosed : Option Expr → Bool
  | none        => true
  | some target => target.isClosed

/-- The same of all operands. -/
def argsClosed : List Expr → Bool
  | []          => true
  | arg :: rest => arg.isClosed && argsClosed rest

end

/-- Is it a call of a remote method? -/
def isRemoteCall : Expr → Bool
  | call _ method _ => method.remote
  | _               => false

/-- The constant of a computed value: it has the declared type of the tree it
    replaces, or else the type the value shows. -/
def foldedConstant (e : Expr) (value : Value) : Expr :=
  constant value (e.staticType.orElse value.typeOf)

/-- Folds a node that is not a constant, given how to fold the nodes below it. -/
def foldNode (lib : Library) (e : Expr) (below : Unit → Except EvalError (Folded Expr)) :
    Except EvalError (Folded Expr) :=
  if e.isClosed && !e.isRemoteCall then
    match e.eval lib with
    | .ok value              => .ok { tree := e.foldedConstant value, changed := true }
    | .error (.unsupported _) => below ()
    | .error failure          => .error failure
  else
    below ()

mutual

/-- Replaces the parts that can be computed here by their values. -/
def fold (lib : Library) (e : Expr) : Except EvalError (Folded Expr) :=
  match e with
  | constant value type => .ok (.kept (constant value type))
  | parameter param     => .ok (.kept (parameter param))
  | binary op left right =>
    foldNode lib (binary op left right) fun _ => do
      let left ← left.fold lib
      let right ← right.fold lib
      .ok (.map₂ (binary op) left right)
  | call target method args =>
    foldNode lib (call target method args) fun _ => do
      let target ← foldTarget lib target
      let args ← foldArgs lib args
      .ok (.map₂ (fun target args => call target method args) target args)
  | member target p type =>
    foldNode lib (member target p type) fun _ => do
      .ok (.map (fun target => member target p type) (← target.fold lib))
  | convert operand type =>
    foldNode lib (convert operand type) fun _ => do
      .ok (.map (fun operand => convert operand type) (← operand.fold lib))
  | construct name args =>
    foldNode lib (construct name args) fun _ => do
      .ok (.map (construct name) (← foldArgs lib args))
  | lambda params body =>
    foldNode lib (lambda params body) fun _ => do
      .ok (.map (lambda params) (← body.fold lib))
  | quote operand =>
    foldNode lib (quote operand) fun _ => do
      .ok (.map quote (← operand.fold lib))

/-- Folds the target of a call. -/
def foldTarget (lib : Library) : Option Expr → Except EvalError (Folded (Option Expr))
  | none        => .ok (.kept none)
  | some target => do .ok (.map some (← target.fold lib))

/-- Folds all operands, from left to right. -/
def foldArgs (lib : Library) : List Expr → Except EvalError (Folded (List Expr))
  | []          => .ok (.kept [])
  | arg :: rest => do
    let arg ← arg.fold lib
    let rest ← foldArgs lib rest
    .ok (.map₂ List.cons arg rest)

end

end Expr

end IssueSearch
