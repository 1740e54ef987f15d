import IssueSearch.Expr.Basic
import IssueSearch.Method.Remote
import IssueSearch.Method.Role

/-! # Building query trees

    Short ways to write the trees that queries are made of: captured
    variables, properties of an item, and the words of the search language as
    methods called on a field. -/

namespace IssueSearch.Expr

/-- A constant of the type its value shows. -/
def ofValue (value : Value) : Expr :=
  constant value value.typeOf

/-- The remote collection of an entity. -/
def source (entity : String) : Expr :=
  constant (.source entity) (.queryable entity)

/-- A property of declared type; its owner is told by the type of the target. -/
def typedField (target : Expr) (name : String) (type : DataType) : Expr :=
  member target { owner := target.staticType.recordName?.getD "", name := name } type

/-- A property of unknown type. -/
def field (target : Expr) (name : String) : Expr :=
  target.typedField name .any

/-- A captured variable of declared type: the only field of a record that holds
    what was captured. -/
def typedLocal (name : String) (value : Value) (type : DataType) : Expr :=
  (constant (.record "closure" none [(name, value)]) (.record "closure")).typedField name type

/-- A captured variable. -/
def ofLocal (name : String) (value : Value) : Expr :=
  typedLocal name value value.typeOf

/-- A call of a method that can run here, on a target. -/
def invoke (target : Expr) (method : String) (args : List Expr) : Expr :=
  call (some target) { name := method, remote := false } args

/-- A field named by its title. -/
def customField (target : Expr) (title : String) : Expr :=
  call (some target) { name := Remote.customField, remote := true } [ofValue (.str title)]

/-- A function of the search server, with or without an argument. -/
def remoteFunction (name : String) (arg : Option Expr) : Expr :=
  call none { name := name, remote := true } arg.toList

/-- A test of whether the field holds anything. -/
def presence (target : Expr) (p : Presence) : Expr :=
  target.invoke p.name []

/-- A test of whether the field is one of several values. -/
def membership (target : Expr) (m : Membership) (values : Expr) : Expr :=
  target.invoke m.name [values]

/-- A test of what the field held before. -/
def history (target : Expr) (h : History) (operands : List Expr) : Expr :=
  target.invoke h.name operands

/-- A restriction on a change. -/
def qualify (target : Expr) (q : Qualifier) (bounds : List Expr) : Expr :=
  target.invoke q.name bounds

end IssueSearch.Expr
