import IssueSearch.Data.Order
import IssueSearch.Eval.Error

/-! # Libraries of local functions

    A library gives a meaning to the names of functions and constructors.  A
    name without a meaning cannot be evaluated here. -/

namespace IssueSearch

/-- A function of values. -/
abbrev LocalFunction := List Value → Except EvalError Value

/-- The functions and constructors that a tree may call. -/
structure Library where
  function?    : String → Option LocalFunction
  constructor? : String → Option LocalFunction

namespace Library

/-- The library without any name. -/
def empty : Library where
  function? _    := none
  constructor? _ := none

/-- Gives a function a new meaning. -/
def withFunction (lib : Library) (name : String) (f : LocalFunction) : Library :=
  { lib with function? := fun n => if n = name then some f else lib.function? n }

/-- Gives a constructor a new meaning. -/
def withConstructor (lib : Library) (name : String) (f : LocalFunction) : Library :=
  { lib with constructor? := fun n => if n = name then some f else lib.constructor? n }

/-- Does the library have a function of the name? -/
def knows (lib : Library) (name : String) : Bool :=
  (lib.function? name).isSome

/-- Applies a function. -/
def call (lib : Library) (name : String) (args : List Value) : Except EvalError Value :=
  match lib.function? name with
  | some f => f args
  | none   => .error (.unsupported ("function '" ++ name ++ "'"))

/-- Applies a constructor. -/
def construct (lib : Library) (name : String) (args : List Value) : Except EvalError Value :=
  match lib.constructor? name with
  | some f => f args
  | none   => .error (.unsupported ("constructor '" ++ name ++ "'"))

end Library

end IssueSearch
