/-! # JSON values

    A JSON document as data.  A number is whole if it is written without a
    point or an exponent and fits into 64 bits, and a floating-point number
    otherwise.  An object keeps its members as they stand, repeated ones
    included, so that a reader can tell.

    A part of a document can keep to the syntax and still stand for nothing:
    a number that is too large, a text with half of a surrogate pair, an object
    with such a text for a key, or anything that is nested too deep.  It is
    `unreadable`, which does not matter as long as nobody looks at it. -/

namespace IssueSearch

/-- A JSON value. -/
inductive Json where
  | null
  | bool (b : Bool)
  | int (n : Int)
  | float (x : Float)
  | str (s : String)
  | arr (items : List Json)
  | obj (members : List (String × Json))
  | unreadable

namespace Json

mutual

/-- Computes something of a document from the bottom up: `f` is given a value,
    the results for its items and the results for its members. -/
def fold {α : Type} (f : Json → List α → List (String × α) → α) : Json → α
  | null        => f null [] []
  | bool b      => f (bool b) [] []
  | int n       => f (int n) [] []
  | float x     => f (float x) [] []
  | str s       => f (str s) [] []
  | arr items   => f (arr items) (foldItems f items) []
  | obj members => f (obj members) [] (foldMembers f members)
  | unreadable  => f unreadable [] []

/-- The results for all items. -/
def foldItems {α : Type} (f : Json → List α → List (String × α) → α) : List Json → List α
  | []           => []
  | item :: rest => item.fold f :: foldItems f rest

/-- The results for all members. -/
def foldMembers {α : Type} (f : Json → List α → List (String × α) → α) :
    List (String × Json) → List (String × α)
  | []                 => []
  | (key, item) :: rest => (key, item.fold f) :: foldMembers f rest

end

/-- Can a part be read, given whether the parts below it can? -/
def readablePart (j : Json) (items : List Bool) (members : List (String × Bool)) : Bool :=
  match j with
  | unreadable => false
  | _          => items.all id && members.all Prod.snd

/-- Can every part of the document be read? -/
def isReadable (j : Json) : Bool :=
  j.fold readablePart

/-- An object that leaves out the members without a value. -/
def objOf (members : List (String × Option Json)) : Json :=
  obj (members.filterMap fun m => m.2.map fun v => (m.1, v))

end Json

end IssueSearch
