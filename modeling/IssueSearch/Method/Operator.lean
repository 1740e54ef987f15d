/-! # Operators on collections

    The steps of a query over a collection.  Some of them the search server
    carries out (filtering, ordering and paging), and the others are applied
    to the results afterwards. -/

namespace IssueSearch

/-- An ordering step. -/
inductive SortStep where
  | orderBy
  | orderByDescending
  | thenBy
  | thenByDescending
deriving DecidableEq

namespace SortStep

/-- Does the step sort from the greatest key to the least? -/
def isDescending : SortStep → Bool
  | orderBy | thenBy => false
  | orderByDescending | thenByDescending => true

/-- Does the step refine the ordering made so far instead of starting anew? -/
def refines : SortStep → Bool
  | orderBy | orderByDescending => false
  | thenBy | thenByDescending => true

end SortStep

/-- A step of a query over a collection. -/
inductive Operator where
  | filter
  | sort (step : SortStep)
  | skip
  | take
  | select
  | count
  | any
  | first
  | firstOrDefault
  | toList
  | distinct
deriving DecidableEq

namespace Operator

/-- All operators. -/
def all : List Operator :=
  [filter, sort .orderBy, sort .orderByDescending, sort .thenBy, sort .thenByDescending, skip,
   take, select, count, any, first, firstOrDefault, toList, distinct]

/-- The method name of an operator. -/
def name : Operator → String
  | filter                  => "where"
  | sort .orderBy           => "order_by"
  | sort .orderByDescending => "order_by_descending"
  | sort .thenBy            => "then_by"
  | sort .thenByDescending  => "then_by_descending"
  | skip                    => "skip"
  | take                    => "take"
  | select                  => "select"
  | count                   => "count"
  | any                     => "any"
  | first                   => "first"
  | firstOrDefault          => "first_or_default"
  | toList                  => "to_list"
  | distinct                => "distinct"

/-- The operator of a method name. -/
def ofName? (name : String) : Option Operator :=
  all.find? fun o => o.name == name

/-- Does the search server carry the step out? -/
def isServerSide : Operator → Bool
  | filter | sort _ | skip | take => true
  | _ => false

end Operator

/-- Is `name` a step that the search server carries out? -/
def isServerSideName (name : String) : Bool :=
  (Operator.ofName? name).any Operator.isServerSide

/-- Is `name` a step that is applied to the results? -/
def isInMemoryName (name : String) : Bool :=
  (Operator.ofName? name).any fun o => !o.isServerSide

end IssueSearch
