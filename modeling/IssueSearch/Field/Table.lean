import IssueSearch.Expr.Basic
import IssueSearch.Field.Abilities

/-! # Searchable fields

    A field table says which properties can be searched, under which name the
    server knows them, and what they can be asked.  Its rows are kept in the
    order of owner and name. -/

namespace IssueSearch

/-- A searchable field. -/
structure Field where
  /-- The name the search server knows it by. -/
  remoteName : String
  abilities  : Abilities
  /-- The declared type of the property, `any` if it is not recorded. -/
  type       : DataType
deriving DecidableEq

/-- The searchable fields by property. -/
structure FieldTable where
  rows : List (Property × Field)

/-- Does one property come before another, by owner and then by name? -/
def Property.before (p q : Property) : Bool :=
  p.owner < q.owner || (p.owner = q.owner && p.name < q.name)

namespace FieldTable

/-- The table without rows. -/
def empty : FieldTable := { rows := [] }

/-- Puts a row in its place; an earlier row of the property gives way. -/
def insertRow (p : Property) (f : Field) : List (Property × Field) → List (Property × Field)
  | [] => [(p, f)]
  | (q, g) :: rest =>
    if p.before q then (p, f) :: (q, g) :: rest
    else if p = q then (p, f) :: rest
    else (q, g) :: insertRow p f rest

/-- The table with one more field. -/
def insert (t : FieldTable) (p : Property) (f : Field) : FieldTable :=
  { rows := insertRow p f t.rows }

/-- The table with all fields of another one, which replace those it has. -/
def merge (t other : FieldTable) : FieldTable :=
  other.rows.foldl (fun acc row => acc.insert row.1 row.2) t

/-- The table of a list of rows; of two rows of one property the later one
    stays. -/
def ofList (rows : List (Property × Field)) : FieldTable :=
  rows.foldl (fun acc row => acc.insert row.1 row.2) empty

/-- The field of a property. -/
def get? (t : FieldTable) (p : Property) : Option Field :=
  t.rows.lookup p

/-- The number of fields. -/
def size (t : FieldTable) : Nat := t.rows.length

end FieldTable

end IssueSearch
