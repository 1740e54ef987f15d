import IssueSearch.Eval.Library
import IssueSearch.Text.Blank
import IssueSearch.Text.Case

/-! # The standard library

    Functions on texts, lists and dates, and the constructors of dates.  Each
    function looks at its arguments from left to right and reports the first
    one that is missing or of the wrong kind. -/

namespace IssueSearch

open Calendar (DateTime)

namespace Standard

/-! ## Arguments -/

/-- The argument at an index. -/
def arg (name : String) (args : List Value) (index : Nat) : Except EvalError Value :=
  match args[index]? with
  | some v => .ok v
  | none   => .error (.function name ("missing argument " ++ Number.natText (index + 1)))

/-- The text at an index. -/
def strArg (name : String) (args : List Value) (index : Nat) : Except EvalError String := do
  match ← arg name args index with
  | .str s => .ok s
  | other  => .error (.typeMismatch name ("expected string, got " ++ other.kind))

/-- The whole number at an index. -/
def intArg (name : String) (args : List Value) (index : Nat) : Except EvalError Int64 := do
  match ← arg name args index with
  | .int n => .ok n
  | other  => .error (.typeMismatch name ("expected int, got " ++ other.kind))

/-! ## Dates -/

/-- Moves a date by a number of days. -/
def addDays (d : DateTime) (days : Int) : Except EvalError Value :=
  match d.addDays? days with
  | some moved => .ok (.date moved)
  | none       => .error (.function "add_days" "date out of range")

/-- Midnight of the date that the first three arguments give. -/
def dateArgs (name : String) (args : List Value) : Except EvalError DateTime := do
  let year ← intArg name args 0
  let month ← intArg name args 1
  let day ← intArg name args 2
  let civil : Calendar.Civil :=
    { year := year.toInt, month := month.toInt.toNat, day := day.toInt.toNat }
  match DateTime.ofCivil? civil 0 with
  | some d => .ok d
  | none   =>
    .error (.function name ("invalid date " ++ Number.intText year.toInt ++ "-" ++
      Number.intText month.toInt ++ "-" ++ Number.intText day.toInt))

/-- The nanosecond of the day that three whole numbers give as hour, minute and
    second. -/
def clock? (hour minute second : Int64) : Option Nat :=
  if 0 ≤ hour.toInt ∧ 0 ≤ minute.toInt ∧ 0 ≤ second.toInt then
    DateTime.nanosOfClock? hour.toInt.toNat minute.toInt.toNat second.toInt.toNat 0
  else
    none

/-- The constructor of a date at midnight. -/
def date (args : List Value) : Except EvalError Value := do
  .ok (.date (← dateArgs "date" args))

/-- The constructor of a date with a time of day. -/
def dateTime (args : List Value) : Except EvalError Value := do
  let midnight ← dateArgs "date_time" args
  let hour ← intArg "date_time" args 3
  let minute ← intArg "date_time" args 4
  let second ← intArg "date_time" args 5
  match (clock? hour minute second).bind (DateTime.ofDay? midnight.day) with
  | some d => .ok (.date d)
  | none   => .error (.function "date_time" "invalid time of day")

/-! ## Texts and lists -/

/-- The number of characters of a text, or of items of a list. -/
def len (args : List Value) : Except EvalError Value := do
  match ← arg "len" args 0 with
  | .str s       => .ok (.int (Int64.ofNat s.length))
  | .array items => .ok (.int (Int64.ofNat items.length))
  | other        => .error (.typeMismatch "len" (other.kind ++ " has no length"))

/-- Does a text begin with another one? -/
def startsWith (args : List Value) : Except EvalError Value := do
  let text ← strArg "starts_with" args 0
  let start ← strArg "starts_with" args 1
  .ok (.bool (start.toList.isPrefixOf text.toList))

/-- Moves a date by a number of days. -/
def addDaysArgs (args : List Value) : Except EvalError Value := do
  match ← arg "add_days" args 0 with
  | .date d => addDays d (← intArg "add_days" args 1).toInt
  | other   => .error (.typeMismatch "add_days" ("expected date, got " ++ other.kind))

/-- The texts of all arguments, one after the other. -/
def concat (args : List Value) : Except EvalError Value :=
  .ok (.str (String.join (args.map Value.text)))

/-- A function of one text. -/
def onText (name : String) (f : String → String) (args : List Value) : Except EvalError Value := do
  .ok (.str (f (← strArg name args 0)))

/-- The text of any value. -/
def toText (args : List Value) : Except EvalError Value := do
  .ok (.str (← arg "to_string" args 0).text)

/-- The functions, by name. -/
def functions : List (String × LocalFunction) :=
  [("to_upper", onText "to_upper" Text.upper), ("to_lower", onText "to_lower" Text.lower),
   ("trim", onText "trim" Text.trim), ("to_string", toText), ("concat", concat), ("len", len),
   ("starts_with", startsWith), ("add_days", addDaysArgs)]

/-- The constructors, by name. -/
def constructors : List (String × LocalFunction) :=
  [("date", date), ("date_time", dateTime)]

end Standard

/-- The library of the standard functions. -/
def Library.standard : Library where
  function?    := fun name => Standard.functions.lookup name
  constructor? := fun name => Standard.constructors.lookup name

end IssueSearch
