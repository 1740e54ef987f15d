import IssueSearch.Text.Blank
import IssueSearch.Text.Case

/-! # What a field can be asked

    A searchable field supports some comparisons and not others.  The set of
    those it supports is held as a number with one bit for each. -/

namespace IssueSearch

/-- A comparison that a field may support. -/
inductive Ability where
  | comparable
  | sortable
  | contains
  | inclusion
  | check
  | was
  | wasInclude
  | changed
deriving DecidableEq

namespace Ability

/-- All abilities, in the order in which they are listed. -/
def all : List Ability :=
  [comparable, sortable, contains, inclusion, check, was, wasInclude, changed]

/-- The name of an ability. -/
def name : Ability → String
  | comparable => "comparable"
  | sortable   => "sortable"
  | contains   => "contains"
  | inclusion  => "include"
  | check      => "check"
  | was        => "was"
  | wasInclude => "was_include"
  | changed    => "changed"

/-- The bit of an ability. -/
def bit : Ability → Nat
  | comparable => 1
  | sortable   => 2
  | contains   => 4
  | inclusion  => 8
  | check      => 16
  | was        => 32
  | wasInclude => 64
  | changed    => 128

/-- The ability of a name, in any letter case and with blanks around it. -/
def ofName? (name : String) : Option Ability :=
  let plain := Text.lower (Text.trim name)
  all.find? fun a => a.name == plain

end Ability

/-- A set of abilities. -/
structure Abilities where
  bits : Nat
deriving DecidableEq

namespace Abilities

/-- The empty set. -/
def none : Abilities := { bits := 0 }

/-- The abilities of either set. -/
def union (a b : Abilities) : Abilities := { bits := a.bits ||| b.bits }

/-- The set with one more ability. -/
def insert (s : Abilities) (a : Ability) : Abilities := { bits := s.bits ||| a.bit }

/-- The set of the listed abilities. -/
def ofList (as : List Ability) : Abilities := as.foldl insert none

/-- Does the set have every ability of the other one? -/
def includes (s t : Abilities) : Bool := s.bits &&& t.bits == t.bits

/-- Does the set have the ability? -/
def has (s : Abilities) (a : Ability) : Bool := s.bits &&& a.bit == a.bit

/-- The names of the abilities in the set. -/
def names (s : Abilities) : List String :=
  (Ability.all.filter s.has).map Ability.name

/-- The names with bars between them. -/
def text (s : Abilities) : String := String.intercalate "|" s.names

end Abilities

end IssueSearch
