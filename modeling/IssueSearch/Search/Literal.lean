import IssueSearch.Data.Value

/-! # Literals of the search language

    How a value is written into the search text.

    * A whole number stands bare, unless it is declared to be a text.
    * A date is written as a quoted day.
    * A list is its items with commas between them.
    * Everything else is its text in quotes.

    Inside quotes, quotes and backslashes are escaped with a backslash if the
    writer is told to, and left alone if not. -/

namespace IssueSearch

/-! ## Quoted texts -/

namespace Literal

/-- A text with a backslash before every quote and every backslash. -/
def escape : List Char → List Char
  | [] => []
  | c :: rest =>
    if c = '"' ∨ c = '\\' then '\\' :: c :: escape rest else c :: escape rest

/-- A text in quotes. -/
def quoted (escaping : Bool) (s : String) : String :=
  "\"" ++ (if escaping then String.ofList (escape s.toList) else s) ++ "\""

/-- A date as a quoted day. -/
def date (d : Calendar.DateTime) : String :=
  "\"" ++ d.dateText "/" ++ "\""

end Literal

/-! ## Separators -/

/-- What stands before the next item of a list: nothing before the first one
    and a comma before each later one. -/
inductive Separator where
  | first
  | later
deriving DecidableEq

/-- The text of a separator. -/
def Separator.text : Separator → String
  | first => ""
  | later => ", "

namespace Literal

/-- An item of a list of the given element type. -/
def item (escaping : Bool) (type : DataType) (value : Value) : String :=
  match value with
  | .date d => date d
  | .int n  =>
    if type.isString then quoted escaping (Value.int n).text else Number.intText n.toInt
  | other => quoted escaping other.text

/-- The items of a list, each after its separator. -/
def itemsFrom (escaping : Bool) (type : DataType) : Separator → List Value → String
  | _, [] => ""
  | s, value :: rest => s.text ++ item escaping type value ++ itemsFrom escaping type .later rest

/-- The items of a list with commas between them. -/
def list (escaping : Bool) (type : DataType) (items : List Value) : String :=
  itemsFrom escaping type .first items

/-- The separator state after writing a list. -/
def afterList (items : List Value) : Separator :=
  if items.isEmpty then .first else .later

/-- A value of the given type.  The absent value and a remote collection have no
    literal. -/
def scalar (escaping : Bool) (type : DataType) (value : Value) : String :=
  match value with
  | .null        => ""
  | .source _    => ""
  | .array items => list escaping type.elementType items
  | other        => item escaping type other

end Literal

end IssueSearch
