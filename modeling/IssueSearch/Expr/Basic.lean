import IssueSearch.Data.Value

/-! # Query trees

    A query is a tree of nodes: operators, calls, properties of an item,
    constants, and functions of one item written as lambdas.

    A call may name its first operand apart from the others, as the target it
    is called on.  `Expr.operands` lists all operands of either style in
    order, and nothing else in the library depends on the style except where
    it says so. -/

namespace IssueSearch

/-- An operator of two operands. -/
inductive BinaryOp where
  | and
  | andAlso
  | or
  | orElse
  | equal
  | notEqual
  | lessThan
  | lessThanOrEqual
  | greaterThan
  | greaterThanOrEqual
  | add
  | subtract
  | multiply
  | divide
  | modulo
deriving DecidableEq

namespace BinaryOp

/-- All operators. -/
def all : List BinaryOp :=
  [and, andAlso, or, orElse, equal, notEqual, lessThan, lessThanOrEqual, greaterThan,
   greaterThanOrEqual, add, subtract, multiply, divide, modulo]

/-- The name of an operator in messages. -/
def name : BinaryOp → String
  | and                => "And"
  | andAlso            => "AndAlso"
  | or                 => "Or"
  | orElse             => "OrElse"
  | equal              => "Equal"
  | notEqual           => "NotEqual"
  | lessThan           => "LessThan"
  | lessThanOrEqual    => "LessThanOrEqual"
  | greaterThan        => "GreaterThan"
  | greaterThanOrEqual => "GreaterThanOrEqual"
  | add                => "Add"
  | subtract           => "Subtract"
  | multiply           => "Multiply"
  | divide             => "Divide"
  | modulo             => "Modulo"

/-- Does it compute a number, a text or a date rather than a truth value? -/
def isArithmetic : BinaryOp → Bool
  | add | subtract | multiply | divide | modulo => true
  | _ => false

end BinaryOp

/-- A property of a kind of domain object. -/
structure Property where
  owner : String
  name  : String
deriving DecidableEq

/-- The property with its owner, if it has one. -/
def Property.text (p : Property) : String :=
  if p.owner = "" then p.name else p.owner ++ "." ++ p.name

/-- The method of a call.  A remote method exists only on the search server and
    is never evaluated here. -/
structure Method where
  name   : String
  remote : Bool
deriving DecidableEq

/-- A parameter of a lambda. -/
structure Param where
  name : String
  type : DataType
deriving DecidableEq

/-- A node of a query tree. -/
inductive Expr where
  | binary (op : BinaryOp) (left right : Expr)
  | call (target : Option Expr) (method : Method) (args : List Expr)
  | member (target : Expr) (property : Property) (type : DataType)
  | constant (value : Value) (type : DataType)
  | convert (operand : Expr) (type : DataType)
  | construct (constructor : String) (args : List Expr)
  | lambda (params : List Param) (body : Expr)
  | parameter (param : Param)
  | quote (operand : Expr)

namespace Expr

/-- The kind of a node, as named in messages and traces. -/
def kind : Expr → String
  | binary ..    => "binary"
  | call ..      => "call"
  | member ..    => "member"
  | constant ..  => "constant"
  | convert ..   => "convert"
  | construct .. => "new"
  | lambda ..    => "lambda"
  | parameter .. => "parameter"
  | quote ..     => "quote"

/-- All operands of a call, whichever way it is written. -/
def operands (target : Option Expr) (args : List Expr) : List Expr :=
  target.toList ++ args

/-- The nodes directly below a node, from left to right. -/
def children : Expr → List Expr
  | binary _ left right  => [left, right]
  | call target _ args   => operands target args
  | member target _ _    => [target]
  | constant ..          => []
  | convert operand _    => [operand]
  | construct _ args     => args
  | lambda _ body        => [body]
  | parameter _          => []
  | quote operand        => [operand]

/-- The declared type of a node, as far as the node tells. -/
def staticType : Expr → DataType
  | binary op _ _    => if op.isArithmetic then .any else .bool
  | member _ _ type  => type
  | constant _ type  => type
  | convert _ type   => type
  | parameter param  => param.type
  | quote operand    => operand.staticType
  | _                => .any

/-- The body of a lambda under any number of quotes; any other tree is its own
    body. -/
def lambdaBody : Expr → Expr
  | quote operand => operand.lambdaBody
  | lambda _ body => body
  | e             => e

/-- The value and type of a constant, directly or under one conversion, whose
    type then counts if it is known. -/
def asConstant? : Expr → Option (Value × DataType)
  | constant value type                   => some (value, type)
  | convert (constant value type) outer   => some (value, outer.orElse type)
  | _                                     => none

/-- The entity whose remote collection a constant stands for, if any. -/
def constantEntity? (value : Value) (type : DataType) : Option String :=
  match value with
  | .source entity => some entity
  | _ =>
    match type with
    | .queryable entity => some entity
    | _                 => none

mutual

/-- The entity of the first remote collection in the tree. -/
def entity? : Expr → Option String
  | binary _ left right => left.entity?.or right.entity?
  | call target _ args  => (targetEntity? target).or (argsEntity? args)
  | member target _ _   => target.entity?
  | constant value type => constantEntity? value type
  | convert operand _   => operand.entity?
  | construct _ args    => argsEntity? args
  | lambda _ body       => body.entity?
  | parameter _         => none
  | quote operand       => operand.entity?

/-- The same of the target of a call. -/
def targetEntity? : Option Expr → Option String
  | none        => none
  | some target => target.entity?

/-- The same of a list of operands. -/
def argsEntity? : List Expr → Option String
  | []          => none
  | arg :: rest => arg.entity?.or (argsEntity? rest)

end

end Expr

end IssueSearch
