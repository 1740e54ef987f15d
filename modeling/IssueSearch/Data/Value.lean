import IssueSearch.Calendar.Text
import IssueSearch.Data.DataType
import IssueSearch.Number.Decimal
import IssueSearch.Number.Integer

/-! # Values

    The values that a query tree holds, and that evaluating one produces.

    A record keeps its fields in the order of their names, each name once, so
    that two records with the same fields are the same record. -/

namespace IssueSearch

open Calendar (DateTime)

/-- A value. -/
inductive Value where
  | null
  | bool (b : Bool)
  | int (n : Int64)
  | float (x : Float)
  | str (s : String)
  | date (d : DateTime)
  | array (items : List Value)
  /-- A domain object with the name of its kind, the text it is shown as, and
      its fields. -/
  | record (typeName : String) (display : Option String) (fields : List (String × Value))
  /-- The remote collection of an entity, which has no value here. -/
  | source (entity : String)

/-- A domain object on its own. -/
structure Record where
  typeName : String
  display  : Option String
  fields   : List (String × Value)

/-- Puts a field in its place by name; an earlier field of the name gives way. -/
def insertField (name : String) (value : Value) :
    List (String × Value) → List (String × Value)
  | [] => [(name, value)]
  | (other, v) :: rest =>
    if name < other then (name, value) :: (other, v) :: rest
    else if name = other then (name, value) :: rest
    else (other, v) :: insertField name value rest

/-- The fields in the order of their names; of two fields of one name the
    later one stays. -/
def sortFields (fields : List (String × Value)) : List (String × Value) :=
  fields.foldl (fun sorted f => insertField f.1 f.2 sorted) []

/-- The record as a value. -/
def Record.toValue (r : Record) : Value :=
  .record r.typeName r.display r.fields

/-- The field of the given name. -/
def Record.field? (r : Record) (name : String) : Option Value :=
  r.fields.lookup name

/-- The text a record is shown as: its own, or else the name of its kind. -/
def recordText (typeName : String) (display : Option String) : String :=
  display.getD typeName

/-- The text a record is shown as. -/
def Record.text (r : Record) : String :=
  recordText r.typeName r.display

/-- Is `id` the text the record is shown as, or its name, key or id? -/
def Record.isNamed (r : Record) (id : String) : Bool :=
  r.display == some id ||
    ["name", "key", "id"].any fun field =>
      match r.field? field with
      | some (.str s) => s == id
      | _             => false

namespace Value

/-- The kind of a value, as named in messages. -/
def kind : Value → String
  | null       => "null"
  | bool _     => "bool"
  | int _      => "int"
  | float _    => "float"
  | str _      => "string"
  | date _     => "date"
  | array _    => "array"
  | record ..  => "record"
  | source _   => "source"

/-- The type a value shows by itself; that of a list is told by its first
    item. -/
def typeOf : Value → DataType
  | null                  => .any
  | bool _                => .bool
  | int _                 => .int64
  | float _               => .float
  | str _                 => .string
  | date _                => .date
  | array []              => .array .any
  | array (item :: _)     => .array item.typeOf
  | record typeName _ _   => .record typeName
  | source entity         => .queryable entity

/-- Is it the absent value? -/
def isNull : Value → Bool
  | null => true
  | _    => false

/-- The truth value, if it is one. -/
def asBool? : Value → Option Bool
  | bool b => some b
  | _      => none

/-- The whole number, if it is one. -/
def asInt? : Value → Option Int64
  | int n => some n
  | _     => none

/-- The text, if it is one. -/
def asStr? : Value → Option String
  | str s => some s
  | _     => none

mutual

/-- The text of a value: that of a list is the texts of its items with commas
    between them, and the absent value has none. -/
def text : Value → String
  | null                      => ""
  | bool b                    => if b then "true" else "false"
  | int n                     => Number.intText n.toInt
  | float x                   => Number.text x
  | str s                     => s
  | date d                    => d.display
  | array items               => itemsText items
  | record typeName display _ => recordText typeName display
  | source entity             => "<" ++ entity ++ " source>"

/-- The texts of the items with commas between them. -/
def itemsText : List Value → String
  | []           => ""
  | [item]       => item.text
  | item :: rest => item.text ++ ", " ++ itemsText rest

end

end Value

end IssueSearch
