import IssueSearch.Data.Json
import IssueSearch.Expr.Basic

/-! # Query trees as JSON

    A node is an object whose member `node` names its kind.  Some members may
    be left out when they hold what they usually hold: the target of a call,
    the mark of a remote method, a list without items, and the type `any`.  A
    tree is read as a whole. -/

namespace IssueSearch

namespace BinaryOp

/-- The key of an operator. -/
def key : BinaryOp → String
  | and                => "and"
  | andAlso            => "and_also"
  | or                 => "or"
  | orElse             => "or_else"
  | equal              => "equal"
  | notEqual           => "not_equal"
  | lessThan           => "less_than"
  | lessThanOrEqual    => "less_than_or_equal"
  | greaterThan        => "greater_than"
  | greaterThanOrEqual => "greater_than_or_equal"
  | add                => "add"
  | subtract           => "subtract"
  | multiply           => "multiply"
  | divide             => "divide"
  | modulo             => "modulo"

/-- The operator of a key. -/
def ofKey? (key : String) : Option BinaryOp :=
  all.find? fun op => op.key == key

/-- Reads an operator. -/
def ofJson (j : Json) : Decoded BinaryOp := do
  let key ← j.asStr
  match ofKey? key with
  | some op => .ok op
  | none    => .error (.unknown "operator" key)

end BinaryOp

/-! ## Parts of nodes -/

/-- The declared type under the key `ty`, which may be left out. -/
def typeMember (members : List (String × Json)) : Decoded DataType :=
  Decoded.memberOr "ty" .any DataType.ofJson members

/-- The JSON form of a property. -/
def Property.toJson (p : Property) : Json :=
  .obj [("owner", .str p.owner), ("name", .str p.name)]

/-- Reads a property. -/
def Property.ofJson (j : Json) : Decoded Property := do
  let members ← j.asObj
  let owner ← (← Decoded.member "owner" members).asStr
  let name ← (← Decoded.member "name" members).asStr
  .ok { owner := owner, name := name }

/-- The JSON form of a method. -/
def Method.toJson (m : Method) : Json :=
  .obj [("name", .str m.name), ("remote", .bool m.remote)]

/-- Reads a method. -/
def Method.ofJson (j : Json) : Decoded Method := do
  let members ← j.asObj
  let name ← (← Decoded.member "name" members).asStr
  let remote ← Decoded.memberOr "remote" false Json.asBool members
  .ok { name := name, remote := remote }

/-- The JSON form of a parameter. -/
def Param.toJson (p : Param) : Json :=
  .obj [("name", .str p.name), ("ty", p.type.toJson)]

/-- The parameter with the given members. -/
def Param.ofMembers (members : List (String × Json)) : Decoded Param := do
  let name ← (← Decoded.member "name" members).asStr
  let type ← typeMember members
  .ok { name := name, type := type }

/-- Reads a parameter. -/
def Param.ofJson (j : Json) : Decoded Param := do
  Param.ofMembers (← j.asObj)

/-- Reads a list of parameters. -/
def Param.listOfJson (j : Json) : Decoded (List Param) := do
  Decoded.sequence ((← j.asArr).map Param.ofJson)

/-! ## Nodes -/

namespace Expr

mutual

/-- The JSON form of a tree. -/
def toJson : Expr → Json
  | binary op left right =>
    .obj [("node", .str "binary"), ("op", .str op.key), ("left", left.toJson),
      ("right", right.toJson)]
  | call target method args =>
    .obj (("node", .str "call") :: (targetToJson target ++
      [("method", method.toJson), ("args", .arr (argsToJson args))]))
  | member target p type =>
    .obj [("node", .str "member"), ("target", target.toJson), ("member", p.toJson),
      ("ty", type.toJson)]
  | constant value type =>
    .obj [("node", .str "constant"), ("value", value.toJson), ("ty", type.toJson)]
  | convert operand type =>
    .obj [("node", .str "convert"), ("operand", operand.toJson), ("ty", type.toJson)]
  | construct name args =>
    .obj [("node", .str "new"), ("constructor", .str name), ("args", .arr (argsToJson args))]
  | lambda params body =>
    .obj [("node", .str "lambda"), ("params", .arr (params.map Param.toJson)),
      ("body", body.toJson)]
  | parameter param =>
    .obj [("node", .str "parameter"), ("name", .str param.name), ("ty", param.type.toJson)]
  | quote operand => .obj [("node", .str "quote"), ("operand", operand.toJson)]

/-- The member for the target of a call, if it has one. -/
def targetToJson : Option Expr → List (String × Json)
  | none        => []
  | some target => [("target", target.toJson)]

/-- The JSON forms of all operands. -/
def argsToJson : List Expr → List Json
  | []          => []
  | arg :: rest => arg.toJson :: argsToJson rest

end

/-- A part of a document and what it reads as. -/
structure Reading where
  json  : Json
  /-- The part as a tree. -/
  expr  : Decoded Expr
  /-- The part as a list of trees. -/
  exprs : Decoded (List Expr)

/-- The tree that a part reads as, unless it is `null`. -/
def Reading.option (r : Reading) : Decoded (Option Expr) :=
  match r.json with
  | .null => .ok none
  | _     => r.expr.map some

/-- The tree of an object with the given members. -/
def ofMembers (members : List (String × Reading)) : Decoded Expr := do
  let plain := members.map fun m => (m.1, m.2.json)
  let text (key : String) : Decoded String := do (← Decoded.member key plain).asStr
  let tree (key : String) : Decoded Expr := do (← Decoded.member key members).expr
  let trees (key : String) : Decoded (List Expr) := Decoded.memberOr key [] Reading.exprs members
  match ← text "node" with
  | "binary" => do
    let op ← BinaryOp.ofJson (← Decoded.member "op" plain)
    .ok (binary op (← tree "left") (← tree "right"))
  | "call" => do
    let target ← Decoded.memberOr "target" none Reading.option members
    let method ← Method.ofJson (← Decoded.member "method" plain)
    .ok (call target method (← trees "args"))
  | "member" => do
    let target ← tree "target"
    let p ← Property.ofJson (← Decoded.member "member" plain)
    .ok (member target p (← typeMember plain))
  | "constant" => do
    let value ← Value.ofJson (← Decoded.member "value" plain)
    .ok (constant value (← typeMember plain))
  | "convert" => do
    let operand ← tree "operand"
    .ok (convert operand (← DataType.ofJson (← Decoded.member "ty" plain)))
  | "new" => do
    let name ← text "constructor"
    .ok (construct name (← trees "args"))
  | "lambda" => do
    let params ← Param.listOfJson (← Decoded.member "params" plain)
    .ok (lambda params (← tree "body"))
  | "parameter" => do .ok (parameter (← Param.ofMembers plain))
  | "quote" => do .ok (quote (← tree "operand"))
  | other => .error (.unknown "node" other)

/-- Reads one part, given what the parts below it read as. -/
def readPart (j : Json) (items : List Reading) (members : List (String × Reading)) : Reading :=
  match j with
  | .arr _ =>
    { json := j, expr := .error (.expected "a tree"),
      exprs := Decoded.sequence (items.map Reading.expr) }
  | .obj _ => { json := j, expr := ofMembers members, exprs := .error (.expected "an array") }
  | _ => { json := j, expr := .error (.expected "a tree"), exprs := .error (.expected "an array") }

/-- Reads a tree. -/
def ofJson (j : Json) : Decoded Expr := do
  ((← j.asReadable).fold readPart).expr

end Expr

end IssueSearch
