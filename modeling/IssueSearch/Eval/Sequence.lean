import IssueSearch.Data.Order
import IssueSearch.Eval.Error
import IssueSearch.Method.Operator

/-! # Operations on lists of values

    The pieces that the collection operators are made of.  Each takes the
    function it applies as a parameter and stops at the first failure, item by
    item from the front. -/

namespace IssueSearch

/-- A function of one value that may fail. -/
abbrev ItemFunction := Value → Except EvalError Value

namespace Sequence

/-- The results of a function on every item. -/
def mapItems (f : ItemFunction) : List Value → Except EvalError (List Value)
  | [] => .ok []
  | item :: rest => do
    let result ← f item
    let results ← mapItems f rest
    .ok (result :: results)

/-- The truth value that a predicate gives. -/
def holds (operation : String) (predicate : ItemFunction) (item : Value) :
    Except EvalError Bool := do
  match ← predicate item with
  | .bool b => .ok b
  | other   => .error (.typeMismatch operation ("predicate returned " ++ other.kind))

/-- The items that satisfy a predicate. -/
def keep (operation : String) (predicate : ItemFunction) :
    List Value → Except EvalError (List Value)
  | [] => .ok []
  | item :: rest => do
    let kept ← holds operation predicate item
    let others ← keep operation predicate rest
    .ok (if kept then item :: others else others)

/-- The items that satisfy a predicate, all of them if there is none. -/
def keepIf (operation : String) (predicate? : Option ItemFunction) (items : List Value) :
    Except EvalError (List Value) :=
  match predicate? with
  | some predicate => keep operation predicate items
  | none           => .ok items

/-- Goes on from the values kept so far: an item that equals one of them is
    dropped. -/
def distinctFrom (kept : List Value) : List Value → List Value
  | [] => kept
  | item :: rest =>
    if kept.any fun v => v.equals item then distinctFrom kept rest
    else distinctFrom (kept ++ [item]) rest

/-- The items without those that equal an earlier one. -/
def distinct (items : List Value) : List Value :=
  distinctFrom [] items

/-! ## Sorting -/

/-- A key to sort by. -/
structure SortKey where
  descending : Bool
  key        : ItemFunction

/-- The outcome of a comparison, turned around for a descending key. -/
def directed (descending : Bool) (o : Ordering) : Ordering :=
  if descending then o.swap else o

/-- Lexicographic order of two lists of keys. -/
def keysOrder : List Bool → List Value → List Value → Ordering
  | descending :: more, a :: as, b :: bs =>
    match directed descending (a.order b) with
    | .eq => keysOrder more as bs
    | o   => o
  | _, _, _ => .eq

/-- The values of all keys on an item. -/
def keyValues (keys : List SortKey) (item : Value) : Except EvalError (List Value) :=
  match keys with
  | [] => .ok []
  | k :: rest => do
    let value ← k.key item
    let values ← keyValues rest item
    .ok (value :: values)

/-- Every item with the values of its keys. -/
def withKeys (keys : List SortKey) : List Value → Except EvalError (List (List Value × Value))
  | [] => .ok []
  | item :: rest => do
    let values ← keyValues keys item
    let others ← withKeys keys rest
    .ok ((values, item) :: others)

/-- Puts an element before the first one that it does not come after. -/
def insertSorted {α : Type} (cmp : α → α → Ordering) (a : α) : List α → List α
  | []        => [a]
  | b :: rest => if cmp a b == .gt then b :: insertSorted cmp a rest else a :: b :: rest

/-- Sorts a list; elements that compare equal keep their order. -/
def sort {α : Type} (cmp : α → α → Ordering) (items : List α) : List α :=
  items.foldr (insertSorted cmp) []

/-- The items sorted by all keys, the first key deciding first. -/
def sortBy (keys : List SortKey) (items : List Value) : Except EvalError (List Value) := do
  let keyed ← withKeys keys items
  let directions := keys.map SortKey.descending
  .ok ((sort (fun a b => keysOrder directions a.1 b.1) keyed).map Prod.snd)

end Sequence

end IssueSearch
