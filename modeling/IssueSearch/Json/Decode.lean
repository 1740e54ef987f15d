import IssueSearch.Json.Basic
import IssueSearch.Number.Binary64
import IssueSearch.Number.Integer

/-! # Data out of JSON

    How the parts of a document are looked up and taken for what they should
    be.  A key that is looked for may occur only once; keys that nobody looks
    for do not matter.  What is read only as a whole has no part that is
    unreadable. -/

namespace IssueSearch

/-- Why a document does not hold the data it should. -/
inductive DecodeError where
  | missing (key : String)
  | repeated (key : String)
  | expected (what : String)
  | unknown (what name : String)
  | unreadable
deriving DecidableEq

/-- The message of a failure. -/
def DecodeError.message : DecodeError → String
  | missing key       => "missing field '" ++ key ++ "'"
  | repeated key      => "duplicate field '" ++ key ++ "'"
  | expected what     => "expected " ++ what
  | unknown what name => "unknown " ++ what ++ " '" ++ name ++ "'"
  | unreadable        => "a part cannot be read"

/-- Data read from a document. -/
abbrev Decoded (α : Type) := Except DecodeError α

namespace Decoded

/-- The member of a key, if there is one. -/
def member? {α : Type} (key : String) (members : List (String × α)) : Decoded (Option α) :=
  match members.filter fun m => m.1 == key with
  | []  => .ok none
  | [m] => .ok (some m.2)
  | _   => .error (.repeated key)

/-- The member of a key that has to be there. -/
def member {α : Type} (key : String) (members : List (String × α)) : Decoded α := do
  match ← member? key members with
  | some v => .ok v
  | none   => .error (.missing key)

/-- What the member of a key reads as, or a default if there is none. -/
def memberOr {α β : Type} (key : String) (default : β) (read : α → Decoded β)
    (members : List (String × α)) : Decoded β := do
  match ← member? key members with
  | some v => read v
  | none   => .ok default

/-- All results of a list, or the first failure. -/
def sequence {α : Type} : List (Decoded α) → Decoded (List α)
  | [] => .ok []
  | r :: rest => do
    let a ← r
    let others ← sequence rest
    .ok (a :: others)

end Decoded

namespace Json

/-- A document of which every part can be read. -/
def asReadable (j : Json) : Decoded Json :=
  if j.isReadable then .ok j else .error .unreadable

/-- A text. -/
def asStr : Json → Decoded String
  | str s => .ok s
  | _     => .error (.expected "a string")

/-- A truth value. -/
def asBool : Json → Decoded Bool
  | bool b => .ok b
  | _      => .error (.expected "a boolean")

/-- A whole number of 64 bits. -/
def asInt64 : Json → Decoded Int64
  | int n =>
    match Number.int64? n with
    | some n => .ok n
    | none   => .error (.expected "a 64-bit integer")
  | _ => .error (.expected "a 64-bit integer")

/-- A count of 32 bits. -/
def asCount : Json → Decoded UInt32
  | int n =>
    match Number.count? n with
    | some n => .ok n
    | none   => .error (.expected "a 32-bit count")
  | _ => .error (.expected "a 32-bit count")

/-- A number, whole or not. -/
def asFloat : Json → Decoded Float
  | int n   => .ok (Float.ofInt n)
  | float x => .ok x
  | _       => .error (.expected "a number")

/-- The items of an array. -/
def asArr : Json → Decoded (List Json)
  | arr items => .ok items
  | _         => .error (.expected "an array")

/-- The members of an object. -/
def asObj : Json → Decoded (List (String × Json))
  | obj members => .ok members
  | _           => .error (.expected "an object")

/-- Something that may be absent, which `null` stands for. -/
def asOption {α : Type} (read : Json → Decoded α) : Json → Decoded (Option α)
  | null => .ok none
  | j    => (read j).map some

/-- An array of texts. -/
def asStrs (j : Json) : Decoded (List String) := do
  Decoded.sequence ((← j.asArr).map asStr)

end Json

end IssueSearch
