import IssueSearch.Method.Operator

/-! # The words of the search language

    The methods of a query tree that stand for words of the search language,
    and the part each of them plays. -/

namespace IssueSearch

/-- A test of whether a field holds anything. -/
inductive Presence where
  | isEmpty
  | isNotEmpty
  | isNull
  | isNotNull
deriving DecidableEq

namespace Presence

/-- All tests. -/
def all : List Presence := [isEmpty, isNotEmpty, isNull, isNotNull]

/-- The method name of a test. -/
def name : Presence → String
  | isEmpty    => "is_empty"
  | isNotEmpty => "is_not_empty"
  | isNull     => "is_null"
  | isNotNull  => "is_not_null"

/-- The text that follows the field. -/
def words : Presence → String
  | isEmpty    => " is empty"
  | isNotEmpty => " is not empty"
  | isNull     => " is null"
  | isNotNull  => " is not null"

end Presence

/-- A test of whether a field is, or was, one of several values. -/
inductive Membership where
  | isIn
  | notIn
  | wasIn
  | wasNotIn
deriving DecidableEq

namespace Membership

/-- All tests. -/
def all : List Membership := [isIn, notIn, wasIn, wasNotIn]

/-- The method name of a test. -/
def name : Membership → String
  | isIn     => "in"
  | notIn    => "not_in"
  | wasIn    => "was_in"
  | wasNotIn => "was_not_in"

/-- The text between the field and the list. -/
def words : Membership → String
  | isIn     => " in ("
  | notIn    => " not in ("
  | wasIn    => " was in ("
  | wasNotIn => " was not in ("

end Membership

/-- A test of what a field held before. -/
inductive History where
  | was
  | wasNot
  | changed
deriving DecidableEq

namespace History

/-- All tests. -/
def all : List History := [was, wasNot, changed]

/-- The method name of a test. -/
def name : History → String
  | was     => "was"
  | wasNot  => "was_not"
  | changed => "changed"

/-- The text that follows the field. -/
def words : History → String
  | was     => " was "
  | wasNot  => " was not "
  | changed => " changed"

end History

/-- A restriction on when, or by whom, a change was made. -/
inductive Qualifier where
  | during
  | after
  | before
  | byUser
  | onDate
  | fromValue
  | toValue
deriving DecidableEq

namespace Qualifier

/-- All restrictions. -/
def all : List Qualifier := [during, after, before, byUser, onDate, fromValue, toValue]

/-- The method name of a restriction, which is also its word. -/
def name : Qualifier → String
  | during    => "during"
  | after     => "after"
  | before    => "before"
  | byUser    => "by"
  | onDate    => "on"
  | fromValue => "from"
  | toValue   => "to"

/-- How many bounds a restriction has. -/
def arity : Qualifier → Nat
  | during => 2
  | _      => 1

end Qualifier

/-- The part a method plays in a query. -/
inductive Role where
  | operator (o : Operator)
  | presence (p : Presence)
  | membership (m : Membership)
  | history (h : History)
  | qualifier (q : Qualifier)
  | other
deriving DecidableEq

/-- The part played by the method of the given name. -/
def Role.ofName (name : String) : Role :=
  match Operator.ofName? name with
  | some o => .operator o
  | none =>
    match Presence.all.find? fun p => p.name == name with
    | some p => .presence p
    | none =>
      match Membership.all.find? fun m => m.name == name with
      | some m => .membership m
      | none =>
        match History.all.find? fun h => h.name == name with
        | some h => .history h
        | none =>
          match Qualifier.all.find? fun q => q.name == name with
          | some q => .qualifier q
          | none   => .other

end IssueSearch
