/-! # Declared types

    The type a node of a query tree is declared to have.  `any` stands for a
    type that is not known or does not matter. -/

namespace IssueSearch

/-- A declared type. -/
inductive DataType where
  | any
  | bool
  | int16
  | int32
  | int64
  | float
  | string
  | date
  /-- A domain object, by the name of its kind. -/
  | record (name : String)
  | array (element : DataType)
  /-- A value that may be absent. -/
  | nullable (inner : DataType)
  /-- The remote collection of an entity. -/
  | queryable (entity : String)
  /-- A collection held in memory. -/
  | sequence (element : DataType)
deriving DecidableEq

namespace DataType

/-- The type under one layer of `nullable`. -/
def underlying : DataType → DataType
  | nullable inner => inner
  | t              => t

/-- Is it a date, or a date that may be absent? -/
def isDate (t : DataType) : Bool :=
  t.underlying == date

/-- Is it text, or text that may be absent? -/
def isString (t : DataType) : Bool :=
  t.underlying == string

/-- Is it a whole number, or one that may be absent? -/
def isInteger (t : DataType) : Bool :=
  match t.underlying with
  | int16 | int32 | int64 => true
  | _ => false

/-- Is it the remote collection of some entity? -/
def isQueryable : DataType → Bool
  | queryable _ => true
  | _           => false

/-- The type of the items of a collection; `any` if it is not one. -/
def elementType (t : DataType) : DataType :=
  match t.underlying with
  | array element    => element
  | sequence element => element
  | _                => any

/-- The kind of domain object, if it is one. -/
def recordName? (t : DataType) : Option String :=
  match t.underlying with
  | record name => some name
  | _           => none

/-- The declared type, unless it is `any`: then the other one. -/
def orElse (declared other : DataType) : DataType :=
  match declared with
  | any => other
  | t   => t

end DataType

end IssueSearch
