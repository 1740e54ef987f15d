import IssueSearch.Eval.Meaning
import IssueSearch.Field.Resolve
import IssueSearch.Method.Role
import IssueSearch.Search.Draft

/-! # From a query tree to a search

    Every node of a tree is given a `Writer` in terms of the writers of the
    nodes below it.  Predicates write text; the steps of a query collect a
    filter, an order clause and paging; what is applied to the results later
    writes nothing of its own.

    Literals know from the draft whether a comma has to stand before them.
    Whoever opens a new list, or a new operand, starts that count anew. -/

namespace IssueSearch

/-- How a search text is laid out. -/
structure TextOptions where
  /-- Write no space after the word that joins alternatives. -/
  tightOr  : Bool
  /-- Escape quotes and backslashes inside literals. -/
  escaping : Bool
deriving DecidableEq

/-- The usual layout. -/
def TextOptions.usual : TextOptions := { tightOr := false, escaping := false }

/-- What writing a search depends on. -/
structure Context where
  fields  : FieldTable
  library : Library
  options : TextOptions

/-- A node as an operand: the tree itself, and how it is written. -/
structure Operand where
  expr      : Expr
  /-- Writes the node. -/
  visit     : Writer Unit
  /-- Writes the body of the lambda that the node is or quotes, and the node
      itself if it is neither. -/
  visitBody : Writer Unit

namespace Operand

/-- The value of the operand, if it is a constant. -/
def value? (o : Operand) : Option Value :=
  o.expr.asConstant?.map Prod.fst

/-- Is the operand a list without items? -/
def isEmptyList (o : Operand) : Bool :=
  match o.value? with
  | some (.array []) => true
  | _                => false

end Operand

namespace Writer

/-- The first operand and the others. -/
def receiver (name : String) (operands : List Operand) : Writer (Operand × List Operand) :=
  match operands with
  | first :: rest => pure (first, rest)
  | []            => unsupported name "missing receiver"

/-! ## Operators -/

/-- Two predicates with a word between them, in parentheses. -/
def connective (word : String) (left right : Operand) : Writer Unit := do
  push "("
  left.visit
  push word
  right.visit
  push ")"

/-- A field and a value with an operator between them. -/
def comparison (word : String) (left right : Operand) : Writer Unit := do
  left.visit
  push word
  resetSeparator
  right.visit

/-- The words that replace a comparison with nothing: a date is empty, another
    field is null, and a comparison with the empty text asks for emptiness. -/
def absence? (dateField negated : Bool) : Option (Value × DataType) → Option Presence
  | some (.null, type) =>
    if dateField || type.isDate then some (if negated then .isNotEmpty else .isEmpty)
    else some (if negated then .isNotNull else .isNull)
  | some (.str s, _) =>
    if s = "" then some (if negated then .isNotEmpty else .isEmpty) else none
  | _ => none

/-- The operator of an equality: texts are searched for what they contain. -/
def equalityWord (isText negated : Bool) : String :=
  match isText, negated with
  | true, false  => " ~ "
  | true, true   => " !~ "
  | false, false => " = "
  | false, true  => " != "

/-- Is the operand a list? -/
def isList (o : Operand) : Bool :=
  match o.value? with
  | some (.array _) => true
  | _               => false

/-- An equality between a field and a value. -/
def equality (fields : FieldTable) (op : BinaryOp) (negated : Bool) (left right : Operand) :
    Writer Unit := do
  let field ← ofExcept (fields.resolve left.expr)
  if isList right then
    unsupported op.name "a list operand needs in / not_in"
  else
    left.visit
    let dateField := field.type.isDate || left.expr.staticType.isDate
    match absence? dateField negated right.expr.asConstant? with
    | some p => push p.words
    | none => do
      push (equalityWord (field.abilities.has .contains) negated)
      resetSeparator
      right.visit

/-- An operator between two operands. -/
def binary (ctx : Context) (op : BinaryOp) (left right : Operand) : Writer Unit :=
  match op with
  | .and | .andAlso      => connective " AND " left right
  | .or | .orElse        =>
    connective (if ctx.options.tightOr then " OR" else " OR ") left right
  | .equal               => equality ctx.fields op false left right
  | .notEqual            => equality ctx.fields op true left right
  | .lessThan            => comparison " < " left right
  | .lessThanOrEqual     => comparison " <= " left right
  | .greaterThan         => comparison " > " left right
  | .greaterThanOrEqual  => comparison " >= " left right
  | other => unsupported other.name "operator has no query-language translation"

/-! ## Steps of a query -/

/-- A filtering step: its clause joins the filter. -/
def filterStep (name : String) (operands : List Operand) : Writer Unit := do
  let (source, rest) ← receiver name operands
  source.visit
  match rest with
  | [] => unsupported name "missing predicate"
  | predicate :: _ => do
    resetSeparator
    addFilter (← capture predicate.visitBody)

/-- An ordering step: its key joins the order clause. -/
def sortStep (name : String) (step : SortStep) (operands : List Operand) : Writer Unit := do
  let (source, rest) ← receiver name operands
  source.visit
  match rest with
  | [] => unsupported name "missing key selector"
  | key :: _ => do addOrder step.refines step.isDescending (← capture key.visitBody)

/-- The count that a paging step is given. -/
def count? (o : Operand) : Option UInt32 :=
  match o.value? with
  | some (.int n) => Number.count? n.toInt
  | _             => none

/-- The count of a paging step, which has to be a constant. -/
def pageCount (name : String) (rest : List Operand) : Writer UInt32 :=
  match rest.head?.bind count? with
  | some n => pure n
  | none   => unsupported name "expected a constant non-negative integer"

/-- A paging step: its count is filled in. -/
def pagingStep (name : String) (slot : PageSlot) (operands : List Operand) : Writer Unit := do
  let (source, rest) ← receiver name operands
  source.visit
  setCount name slot (← pageCount name rest)

/-- A step that is applied to the results: only what it is applied to is
    written. -/
def laterStep (name : String) (operands : List Operand) : Writer Unit := do
  let (source, _) ← receiver name operands
  source.visit

/-- A step of a query. -/
def operator (name : String) (op : Operator) (operands : List Operand) : Writer Unit :=
  match op with
  | .filter    => filterStep name operands
  | .sort step => sortStep name step operands
  | .skip      => pagingStep name .startAt operands
  | .take      => pagingStep name .maxResults operands
  | _          => laterStep name operands

/-! ## Words of the search language -/

/-- A test of whether a field holds anything. -/
def presence (p : Presence) (operands : List Operand) : Writer Unit := do
  let (subject, _) ← receiver p.name operands
  subject.visit
  push p.words

/-- The items of a list.  A constant places its own separator; before anything
    else one is written. -/
def listItems : List Operand → Writer Unit
  | [] => pure ()
  | item :: rest => do
    if item.value?.isNone then
      push (← nextSeparator)
    item.visit
    listItems rest

/-- A test of whether a field is one of several values. -/
def membership (m : Membership) (operands : List Operand) : Writer Unit := do
  let (field, items) ← receiver m.name operands
  if items.all Operand.isEmptyList then
    unsupported m.name "expected at least one value"
  else
    field.visit
    push m.words
    resetSeparator
    listItems items
    push ")"

/-- Restrictions on a change, each after a space. -/
def qualifiers : List Operand → Writer Unit
  | [] => pure ()
  | q :: rest => do
    push " "
    resetSeparator
    q.visit
    qualifiers rest

/-- A value that a field held before. -/
def pastValue (value : Operand) : Writer Unit :=
  match value.value? with
  | some .null => push "empty"
  | _          => value.visit

/-- A test of what a field held before. -/
def history (h : History) (operands : List Operand) : Writer Unit := do
  let (field, rest) ← receiver h.name operands
  field.visit
  match h with
  | .changed => do
    push h.words
    qualifiers rest
  | _ =>
    match rest with
    | [] => unsupported h.name "expected a value"
    | value :: more => do
      push h.words
      resetSeparator
      pastValue value
      qualifiers more

/-- The bounds of a restriction: a period in parentheses, or a single bound. -/
def bounds (q : Qualifier) (operands : List Operand) : Writer Unit :=
  match q, operands with
  | .during, [low, high] => do
    push "("
    low.visit
    high.visit
    push ")"
  | .during, _   => pure ()
  | _, [bound]   => bound.visit
  | _, _         => pure ()

/-- The predicate that a restriction applies to, and its bounds.  The predicate
    is the target of the call, or the first of more operands than the
    restriction has bounds. -/
def splitSubject (q : Qualifier) (hasTarget : Bool) (operands : List Operand) :
    Option Operand × List Operand :=
  match operands with
  | [] => (none, [])
  | subject :: rest =>
    if hasTarget || q.arity ≤ rest.length then (some subject, rest) else (none, operands)

/-- The predicate that a restriction applies to, with a space after it. -/
def subject : Option Operand → Writer Unit
  | none => pure ()
  | some o => do
    o.visit
    push " "

/-- A restriction on a change. -/
def qualifier (q : Qualifier) (hasTarget : Bool) (operands : List Operand) : Writer Unit := do
  let (subject?, limits) := splitSubject q hasTarget operands
  if limits.length ≠ q.arity then
    unsupported q.name ("expected " ++ Number.natText q.arity ++ " argument(s), got " ++
      Number.natText limits.length)
  else
    subject subject?
    push q.name
    push " "
    resetSeparator
    bounds q limits

/-- A function of the search server. -/
def remoteFunction (name : String) (operands : List Operand) : Writer Unit :=
  match operands with
  | _ :: _ :: _ => unsupported name "remote functions take at most one argument"
  | _ => do
    push (Remote.writtenName name)
    push "("
    match operands with
    | arg :: _ => do
      resetSeparator
      arg.visit
    | [] => pure ()
    push ")"

/-- A call. -/
def call (method : Method) (hasTarget : Bool) (operands : List Operand) : Writer Unit :=
  if method.remote then
    if method.name = Remote.customField then
      match title? (operands.map Operand.expr) with
      | some title => push (titledField title).remoteName
      | none       => throw (.schema "custom_field requires a literal field name")
    else
      remoteFunction method.name operands
  else
    match Role.ofName method.name with
    | .operator op  => operator method.name op operands
    | .presence p   => presence p operands
    | .membership m => membership m operands
    | .history h    => history h operands
    | .qualifier q  => qualifier q hasTarget operands
    | .other => unsupported method.name "method has no query-language translation"

/-! ## Other nodes -/

/-- A property: a searchable field by its remote name, or else a captured
    value. -/
def member (ctx : Context) (e : Expr) (p : Property) : Writer Unit :=
  match ctx.fields.get? p with
  | some field => push field.remoteName
  | none =>
    match e.eval ctx.library with
    | .ok value => constant ctx.options.escaping value (e.staticType.orElse value.typeOf)
    | .error (.unsupported _) => throw (unknownField p)
    | .error failure => throw (.evaluation failure)

/-- The values of operands that all have to be constants. -/
def constants? : List Operand → Option (List Value)
  | []        => some []
  | o :: rest => o.value?.bind fun v => (constants? rest).map (v :: ·)

/-- A constructed value. -/
def construct (ctx : Context) (name : String) (args : List Operand) : Writer Unit :=
  match constants? args with
  | none => unsupported name "constructor arguments must be constants"
  | some values =>
    match ctx.library.construct name values with
    | .ok value => constant ctx.options.escaping value value.typeOf
    | .error (.unsupported _) => unsupported name "no constructor registered under this name"
    | .error failure => throw (.evaluation failure)

end Writer

/-! ## Trees -/

/-- A node that is written the given way, wherever it stands. -/
def Operand.ofNode (ctx : Context) (e : Expr) (w : Writer Unit) : Operand :=
  let visit :=
    Writer.node e.kind
      (match e.asConstant? with
        | some (value, type) => Writer.constant ctx.options.escaping value type
        | none => w)
  { expr := e, visit := visit, visitBody := visit }

namespace Expr

mutual

/-- A tree as an operand. -/
def operand (ctx : Context) : Expr → Operand
  | binary op left right =>
    .ofNode ctx (binary op left right) (.binary ctx op (left.operand ctx) (right.operand ctx))
  | call target method args =>
    .ofNode ctx (call target method args)
      (.call method target.isSome (targetOperand ctx target ++ argOperands ctx args))
  | member target p type =>
    .ofNode ctx (member target p type) (.member ctx (member target p type) p)
  | constant value type =>
    .ofNode ctx (constant value type) (.constant ctx.options.escaping value type)
  | convert e type => .ofNode ctx (convert e type) (e.operand ctx).visit
  | construct name args =>
    .ofNode ctx (construct name args) (.construct ctx name (argOperands ctx args))
  | parameter param =>
    .ofNode ctx (parameter param)
      (.unsupported param.name "a bare parameter has no query-language translation")
  | lambda params body =>
    let inner := body.operand ctx
    { Operand.ofNode ctx (lambda params body) inner.visit with visitBody := inner.visit }
  | quote e =>
    let inner := e.operand ctx
    { Operand.ofNode ctx (quote e) inner.visit with visitBody := inner.visitBody }

/-- The target of a call as an operand, if it has one. -/
def targetOperand (ctx : Context) : Option Expr → List Operand
  | none        => []
  | some target => [target.operand ctx]

/-- A list of trees as operands. -/
def argOperands (ctx : Context) : List Expr → List Operand
  | []          => []
  | arg :: rest => arg.operand ctx :: argOperands ctx rest

end

/-- Writes a whole tree. -/
def write (ctx : Context) (e : Expr) : Writer Search := do
  (e.operand ctx).visit
  let search := (← get).search
  modify fun d => { d with events := d.events ++ [.finish search] }
  return search

/-- The search of a tree, with everything that happened on the way. -/
def compileTraced (ctx : Context) (e : Expr) : Except SearchError Search × List Event :=
  match (e.write ctx).run .blank with
  | .ok search d     => (.ok search, d.events)
  | .error failure d => (.error failure, d.events)

/-- The search of a tree. -/
def compile (ctx : Context) (e : Expr) : Except SearchError Search :=
  (e.compileTraced ctx).1

end Expr

end IssueSearch
