/-! # TOML documents

    A document is a table of values.  While it is read, tables carry marks
    that tell how they came about, because a table may be extended in some
    ways and not in others:

    * a table named by a longer header is there by implication, and a header
      of its own may still follow;
    * a table made by a dotted key may be extended by dotted keys only;
    * a table written as a value is complete. -/

namespace IssueSearch

/-- A TOML value.  Floating-point numbers and dates are told apart from other
    values, but nothing is kept of them, since no setting has such a value. -/
inductive Toml where
  | bool (b : Bool)
  | int (n : Int64)
  | float
  | dateTime
  | str (s : String)
  | arr (items : List Toml)
  | table (entries : List (String × Toml))

namespace Toml

/-! ## Tables in the making -/

mutual

/-- An entry of a table in the making. -/
inductive Entry where
  | value (v : Toml)
  | table (t : Draft)
  /-- An array of tables, the latest last. -/
  | tables (ts : List Draft)

/-- A table in the making. -/
inductive Draft where
  | mk (implicit dotted : Bool) (entries : List (String × Entry))

end

namespace Draft

/-- The table without entries. -/
def empty (implicit dotted : Bool) : Draft := .mk implicit dotted []

/-- Is the table there by implication? -/
def isImplicit : Draft → Bool
  | mk implicit _ _ => implicit

/-- Was the table made by a dotted key? -/
def isDotted : Draft → Bool
  | mk _ dotted _ => dotted

/-- The entries of the table. -/
def entries : Draft → List (String × Entry)
  | mk _ _ entries => entries

/-- Replaces the entry of a key, or adds one at the end. -/
def putEntry (key : String) (e : Entry) : List (String × Entry) → List (String × Entry)
  | [] => [(key, e)]
  | (k, old) :: rest => if k = key then (k, e) :: rest else (k, old) :: putEntry key e rest

/-- The table with the entry of a key replaced or added. -/
def put (key : String) (e : Entry) : Draft → Draft
  | mk implicit dotted entries => mk implicit dotted (putEntry key e entries)

/-- Changes the table at the end of a path, making the tables on the way that
    are not there.  A dotted path may only pass through tables that are there
    by implication; the path goes through the latest table of an array. -/
def update (dotted : Bool) (change : Draft → Option Draft) : List String → Draft → Option Draft
  | [], t => change t
  | key :: rest, t =>
    match t.entries.lookup key with
    | none =>
      (update dotted change rest (empty true dotted)).map fun child => t.put key (.table child)
    | some (.value _) => none
    | some (.table child) =>
      if dotted && !child.isImplicit then none
      else (update dotted change rest child).map fun child => t.put key (.table child)
    | some (.tables ts) =>
      match ts.reverse with
      | [] => none
      | last :: before =>
        (update dotted change rest last).map fun last =>
          t.put key (.tables (before.reverse ++ [last]))

/-- Adds a new value.  A table made by dotted keys takes no plain key, and any
    other table takes no dotted one. -/
def addValue (byDottedKey : Bool) (key : String) (v : Toml) (t : Draft) : Option Draft :=
  if t.isDotted != byDottedKey then none
  else
    match t.entries.lookup key with
    | some _ => none
    | none   => some (t.put key (.value v))

/-- Adds a value under a key of one or more parts. -/
def assign (path : List String) (key : String) (v : Toml) (t : Draft) : Option Draft :=
  t.update true (addValue (!path.isEmpty) key v) path

/-- Opens the table of a header. -/
def openTable (key : String) (t : Draft) : Option Draft :=
  match t.entries.lookup key with
  | none => some (t.put key (.table (empty false false)))
  | some (.table (.mk true false entries)) => some (t.put key (.table (.mk false false entries)))
  | some _ => none

/-- Opens a new table at the end of an array of tables. -/
def openArrayTable (key : String) (t : Draft) : Option Draft :=
  match t.entries.lookup key with
  | none => some (t.put key (.tables [empty false false]))
  | some (.tables ts) => some (t.put key (.tables (ts ++ [empty false false])))
  | some _ => none

end Draft

mutual

/-- The value of an entry. -/
def ofEntry : Entry → Toml
  | .value v   => v
  | .table t   => .table (ofDraft t)
  | .tables ts => .arr (ofDrafts ts)

/-- The entries of a table. -/
def ofDraft : Draft → List (String × Toml)
  | .mk _ _ entries => ofEntries entries

/-- The values of all entries. -/
def ofEntries : List (String × Entry) → List (String × Toml)
  | []               => []
  | (key, e) :: rest => (key, ofEntry e) :: ofEntries rest

/-- The tables of an array. -/
def ofDrafts : List Draft → List Toml
  | []        => []
  | t :: rest => .table (ofDraft t) :: ofDrafts rest

end

end Toml

end IssueSearch
