import IssueSearch.Field.Table
import IssueSearch.Method.Remote
import IssueSearch.Search.Error

/-! # Which field is compared

    The field on the left of a comparison is a property, a property under one
    conversion, or a field named by its title.  A field named by its title
    needs no row in the table; it is searched as a text. -/

namespace IssueSearch

/-- The failure for a property that cannot be searched. -/
def unknownField (p : Property) : SearchError :=
  .schema ("'" ++ p.text ++ "' is not a searchable field")

/-- The failure for a node that names no field. -/
def unresolved (e : Expr) : SearchError :=
  .schema ("unable to resolve field from " ++ e.kind ++ " node")

/-- The field of a title. -/
def titledField (title : String) : Field :=
  { remoteName := "\"" ++ title ++ "\"", abilities := .ofList [.contains], type := .any }

/-- The title that the operands of a titled field give: the first constant
    text. -/
def title? (operands : List Expr) : Option String :=
  operands.findSome? fun e =>
    match e.asConstant? with
    | some (.str title, _) => some title
    | _                    => none

/-- The field of a property. -/
def FieldTable.find (t : FieldTable) (p : Property) : Except SearchError Field :=
  match t.get? p with
  | some f => .ok f
  | none   => .error (unknownField p)

/-- The field that a node names. -/
def FieldTable.resolve (t : FieldTable) : Expr → Except SearchError Field
  | .member _ p _ => t.find p
  | .convert (.member _ p _) _ => t.find p
  | .convert operand _ => .error (unresolved operand)
  | .call target method args =>
    if method.name = Remote.customField then
      match title? (Expr.operands target args) with
      | some title => .ok (titledField title)
      | none       => .error (.schema "custom_field requires a literal field name")
    else
      .error (unresolved (.call target method args))
  | e => .error (unresolved e)

end IssueSearch
