import IssueSearch.Search.Error
import IssueSearch.Search.Literal

/-! # Drafts of a search

    A search text is written piece by piece.  A `Draft` holds what has been
    written so far: the text at hand, the filter and the order collected from
    the steps of the query, the paging, and a record of everything that
    happened.  A `Writer` changes a draft and may fail; what happened before
    the failure stays on record. -/

namespace IssueSearch

/-- A finished search: its text, and which of its results are wanted. -/
structure Search where
  text       : String
  startAt    : Option UInt32
  maxResults : Option UInt32
deriving DecidableEq

/-- Something that happened while a search was written. -/
inductive Event where
  /-- A node was begun, at a depth below the root. -/
  | enter (kind : String) (depth : Nat)
  /-- A piece of text was written. -/
  | emit (fragment : String)
  /-- The search was finished. -/
  | finish (search : Search)
deriving DecidableEq

/-- What has been written so far. -/
structure Draft where
  /-- The text at hand. -/
  out        : String
  /-- The filter of the steps so far. -/
  filter     : Option String
  /-- The order clause of the steps so far. -/
  order      : String
  startAt    : Option UInt32
  maxResults : Option UInt32
  /-- What stands before the next literal. -/
  separator  : Separator
  /-- The depth of the node at hand. -/
  depth      : Nat
  /-- What happened, the earliest first. -/
  events     : List Event

/-- The draft before anything is written. -/
def Draft.blank : Draft :=
  { out := "", filter := none, order := "", startAt := none, maxResults := none,
    separator := .first, depth := 0, events := [] }

/-- The search that a draft amounts to. -/
def Draft.search (d : Draft) : Search :=
  { text := d.filter.getD "" ++ d.out ++ d.order, startAt := d.startAt,
    maxResults := d.maxResults }

/-- A number that pages the results. -/
inductive PageSlot where
  /-- Where the results start. -/
  | startAt
  /-- How many results are wanted. -/
  | maxResults

/-- The number of the paging that was said. -/
def Draft.count? (d : Draft) : PageSlot → Option UInt32
  | .startAt    => d.startAt
  | .maxResults => d.maxResults

/-- The draft with a number of the paging filled in. -/
def Draft.withCount (d : Draft) (n : UInt32) : PageSlot → Draft
  | .startAt    => { d with startAt := some n }
  | .maxResults => { d with maxResults := some n }

/-- A change of a draft that may fail. -/
abbrev Writer (α : Type) := EStateM SearchError Draft α

namespace Writer

/-- Writes a piece of text; an empty one leaves no trace. -/
def push (fragment : String) : Writer Unit :=
  modify fun d =>
    if fragment = "" then d
    else { d with out := d.out ++ fragment, events := d.events ++ [.emit fragment] }

/-- Starts a list anew. -/
def resetSeparator : Writer Unit :=
  modify fun d => { d with separator := .first }

/-- Takes the separator for the next item. -/
def nextSeparator : Writer String := do
  let d ← get
  set { d with separator := .later }
  return d.separator.text

/-- Fails because the search language has no words for something. -/
def unsupported {α : Type} (symbol reason : String) : Writer α :=
  throw (.unsupported symbol reason)

/-- The outcome of a part that was decided beforehand. -/
def ofExcept {α : Type} : Except SearchError α → Writer α
  | .ok a    => pure a
  | .error e => throw e

/-- Writes on a clean sheet and returns the text, leaving the text at hand as it
    was. -/
def capture (w : Writer Unit) : Writer String := do
  let outer := (← get).out
  modify fun d => { d with out := "" }
  w
  let inner := (← get).out
  modify fun d => { d with out := outer }
  return inner

/-- Writes a node, one level below the node at hand. -/
def node (kind : String) (w : Writer Unit) : Writer Unit := do
  modify fun d => { d with depth := d.depth + 1, events := d.events ++ [.enter kind d.depth] }
  w
  modify fun d => { d with depth := d.depth - 1 }

/-- Writes a constant.  The absent value and a remote collection leave nothing
    behind, and neither does a list without items. -/
def constant (escaping : Bool) (value : Value) (type : DataType) : Writer Unit :=
  match value with
  | .null     => pure ()
  | .source _ => pure ()
  | .array [] => pure ()
  | .array items => do
    let lead ← nextSeparator
    modify fun d => { d with separator := Literal.afterList items }
    push lead
    push (Literal.list escaping type.elementType items)
  | scalar => do
    let lead ← nextSeparator
    push lead
    push (Literal.scalar escaping type scalar)

/-- Says a number of the paging, which may be said once. -/
def setCount (name : String) (slot : PageSlot) (n : UInt32) : Writer Unit := do
  if ((← get).count? slot).isSome then
    unsupported name "may appear at most once per query"
  else
    modify fun d => d.withCount n slot

/-- Adds a clause to the filter: all clauses have to hold. -/
def addFilter (clause : String) : Writer Unit :=
  modify fun d =>
    { d with filter := some (match d.filter with
        | some before => "(" ++ before ++ " AND " ++ clause ++ ")"
        | none        => clause) }

/-- Adds a key to the order clause. -/
def addOrder (refines descending : Bool) (key : String) : Writer Unit :=
  modify fun d =>
    let order := if refines && d.order != "" then d.order ++ ", " ++ key else " order by " ++ key
    { d with order := if descending then order ++ " desc" else order }

end Writer

end IssueSearch
