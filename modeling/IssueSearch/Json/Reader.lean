import IssueSearch.Json.Basic
import IssueSearch.Number.Binary64

/-! # JSON text: reading

    `Json.read?` accepts exactly one JSON value with blanks around it.  What is
    nested more than `maxDepth` deep has to keep to the syntax and cannot be
    read.

    A number that is not whole is read from its leading digits, as many as fit
    into 64 bits, with one multiplication or division by a power of ten.  One
    that is too large to be finite cannot be read. -/

namespace IssueSearch.Json

/-- How deep arrays and objects may be nested. -/
def maxDepth : Nat := 127

/-- What has been read, if it stands for something. -/
def orUnreadable (j? : Option Json) : Json :=
  j?.getD unreadable

/-- Drops the blanks between tokens. -/
def skipBlanks (cs : List Char) : List Char :=
  cs.dropWhile fun c => c = ' ' || c = '\n' || c = '\t' || c = '\r'

/-- Takes the given word off the front. -/
def dropWord? (word cs : List Char) : Option (List Char) :=
  match word, cs with
  | [], rest => some rest
  | w :: word, c :: rest => if w = c then dropWord? word rest else none
  | _ :: _, [] => none

/-! ## Numbers -/

/-- The greatest whole number of 64 bits. -/
def maxWhole : Nat := Nat.pow 2 64 - 1

/-- Appends digits to a number as long as it fits; returns the digits that do
    not. -/
def absorb (n : Nat) : List Char → Nat × List Char
  | [] => (n, [])
  | c :: rest =>
    let m := n * 10 + (c.toNat - '0'.toNat)
    if m ≤ maxWhole then absorb m rest else (n, c :: rest)

/-- A power of ten. -/
def powerOfTen (e : Nat) : Float :=
  Float.ofScientific 1 false e

/-- `x * 10^e`, in at most `fuel` steps; nothing if it is not finite. -/
def scale? (fuel : Nat) (x : Float) (e : Int) : Option Float :=
  match fuel with
  | 0 => some x
  | fuel + 1 =>
    if e.natAbs ≤ 308 then
      if 0 ≤ e then
        let y := x * powerOfTen e.natAbs
        if Number.isFinite y then some y else none
      else
        some (x / powerOfTen e.natAbs)
    else if x == 0 then some x
    else if 0 ≤ e then none
    else scale? fuel (x / powerOfTen 308) (e + 308)

/-- The parts of a number: its sign, the digits before and after the point, and
    the exponent. -/
structure Numeral where
  negative : Bool
  whole    : List Char
  fraction : Option (List Char)
  exponent : Option Int

/-- The floating-point number of a numeral. -/
def Numeral.float? (n : Numeral) : Option Float :=
  let fraction := n.fraction.getD []
  let (leading, dropped) := absorb 0 n.whole
  let (digits, unused) := absorb leading fraction
  let places : Int := (fraction.length - unused.length : Nat)
  let e : Int := (dropped.length : Nat) - places + n.exponent.getD 0
  (scale? 4 (Float.ofNat digits) e).map fun x => if n.negative then -x else x

/-- The value of a numeral.  A negative zero is not whole. -/
def Numeral.value? (n : Numeral) : Option Json :=
  let float := n.float?.map Json.float
  if n.fraction.isSome || n.exponent.isSome then float
  else
    match absorb 0 n.whole with
    | (digits, []) =>
      if !n.negative then some (int digits)
      else if digits = 0 then float
      else if digits ≤ Nat.pow 2 63 then some (int (-(digits : Int)))
      else float
    | _ => float

/-- Takes a run of digits off the front. -/
def digits (cs : List Char) : List Char × List Char :=
  (cs.takeWhile Char.isDigit, cs.dropWhile Char.isDigit)

/-- Digits of which there has to be one. -/
def someDigits? (cs : List Char) : Option (List Char × List Char) :=
  match digits cs with
  | ([], _)  => none
  | (ds, rest) => some (ds, rest)

/-- The digits before the point, which do not start with a zero unless they are
    one. -/
def whole? (cs : List Char) : Option (List Char × List Char) :=
  match digits cs with
  | ([], _) => none
  | ('0' :: _ :: _, _) => none
  | (ds, rest) => some (ds, rest)

/-- The point and the digits after it, if they are there. -/
def fraction? : List Char → Option (Option (List Char) × List Char)
  | '.' :: cs => (someDigits? cs).map fun (ds, rest) => (some ds, rest)
  | cs        => some (none, cs)

/-- A number of decimal digits. -/
def digitsNumber (ds : List Char) : Nat :=
  ds.foldl (fun n c => n * 10 + (c.toNat - '0'.toNat)) 0

/-- The digits of an exponent after its sign. -/
def exponentDigits? (negative : Bool) (cs : List Char) : Option (Option Int × List Char) :=
  (someDigits? cs).map fun (ds, rest) =>
    let n : Int := digitsNumber ds
    (some (if negative then -n else n), rest)

/-- The exponent, if it is there. -/
def exponent? (cs : List Char) : Option (Option Int × List Char) :=
  match cs with
  | 'e' :: '+' :: rest | 'E' :: '+' :: rest => exponentDigits? false rest
  | 'e' :: '-' :: rest | 'E' :: '-' :: rest => exponentDigits? true rest
  | 'e' :: rest | 'E' :: rest => exponentDigits? false rest
  | _ => some (none, cs)

/-- Reads a number after its sign. -/
def unsigned? (negative : Bool) (cs : List Char) : Option (Json × List Char) := do
  let (whole, cs) ← whole? cs
  let (fraction, cs) ← fraction? cs
  let (exponent, cs) ← exponent? cs
  let n : Numeral :=
    { negative := negative, whole := whole, fraction := fraction, exponent := exponent }
  return (orUnreadable n.value?, cs)

/-- Reads a number. -/
def number? : List Char → Option (Json × List Char)
  | '-' :: cs => unsigned? true cs
  | cs        => unsigned? false cs

/-! ## Texts -/

/-- The value of a hexadecimal digit. -/
def hexValue? (c : Char) : Option Nat :=
  if '0' ≤ c ∧ c ≤ '9' then some (c.toNat - '0'.toNat)
  else if 'a' ≤ c ∧ c ≤ 'f' then some (c.toNat - 'a'.toNat + 10)
  else if 'A' ≤ c ∧ c ≤ 'F' then some (c.toNat - 'A'.toNat + 10)
  else none

/-- The unit of four hexadecimal digits. -/
def unit? (a b c d : Char) : Option Nat := do
  return (((← hexValue? a) * 16 + (← hexValue? b)) * 16 + (← hexValue? c)) * 16 + (← hexValue? d)

/-- The character of a unit, unless the unit is half of a pair. -/
def unitChar? (u : Nat) : Option Char :=
  if 0xD800 ≤ u ∧ u ≤ 0xDFFF then none else some (Char.ofNat u)

/-- The character of a pair of units. -/
def pairChar? (high low : Nat) : Option Char :=
  if 0xD800 ≤ high ∧ high ≤ 0xDBFF ∧ 0xDC00 ≤ low ∧ low ≤ 0xDFFF then
    some (Char.ofNat (0x10000 + (high - 0xD800) * 0x400 + (low - 0xDC00)))
  else
    none

/-- The character that stands after a backslash for another one. -/
def shortEscape? : Char → Option Char
  | '"'  => some '"'
  | '\\' => some '\\'
  | '/'  => some '/'
  | 'b'  => some '\x08'
  | 'f'  => some '\x0c'
  | 'n'  => some '\n'
  | 'r'  => some '\r'
  | 't'  => some '\t'
  | _    => none

/-- Puts a character, if there is one, in front of a text that is being read. -/
def prepend (c? : Option Char) :
    Option (Option (List Char) × List Char) → Option (Option (List Char) × List Char) :=
  Option.map fun (cs?, rest) => (c?.bind fun c => cs?.map (c :: ·), rest)

/-- Reads the rest of a text, after its opening quote.  Half of a pair of units
    keeps to the syntax and spoils the text. -/
def textBody? : List Char → Option (Option (List Char) × List Char)
  | [] => none
  | '"' :: rest => some (some [], rest)
  | '\\' :: 'u' :: a :: b :: c :: d :: rest =>
    match unit? a b c d with
    | none => none
    | some u =>
      match unitChar? u with
      | some ch => prepend (some ch) (textBody? rest)
      | none =>
        match rest with
        | '\\' :: 'u' :: e :: f :: g :: h :: rest =>
          match unit? e f g h with
          | none     => none
          | some low => prepend (pairChar? u low) (textBody? rest)
        | rest => prepend none (textBody? rest)
  | '\\' :: c :: rest =>
    match shortEscape? c with
    | some ch => prepend (some ch) (textBody? rest)
    | none    => none
  | ['\\'] => none
  | c :: rest => if c.toNat < 0x20 then none else prepend (some c) (textBody? rest)

/-- Reads a text after its opening quote. -/
def text? (cs : List Char) : Option (Option String × List Char) :=
  (textBody? cs).map fun (s?, rest) => (s?.map String.ofList, rest)

/-! ## Values -/

/-- An array or an object that may be nested `depth` deep. -/
def nested (depth : Nat) (j : Json) : Json :=
  if depth = 0 then unreadable else j

/-- The members of an object with one more in front, if its key can be read. -/
def addMember (key? : Option String) (item : Json) (members? : Option (List (String × Json))) :
    Option (List (String × Json)) :=
  key?.bind fun key => members?.map ((key, item) :: ·)

mutual

/-- Reads a value, nested at most `depth` deep, in at most `fuel` steps. -/
def valueFrom? (fuel depth : Nat) (cs : List Char) : Option (Json × List Char) :=
  match fuel with
  | 0 => none
  | fuel + 1 =>
    match skipBlanks cs with
    | [] => none
    | '"' :: rest => (text? rest).map fun (s?, rest) => (orUnreadable (s?.map str), rest)
    | '[' :: rest =>
      match skipBlanks rest with
      | ']' :: rest => some (nested depth (arr []), rest)
      | rest =>
        (itemsFrom? fuel (depth - 1) rest).map fun (items, rest) =>
          (nested depth (arr items), rest)
    | '\x7b' :: rest =>
      match skipBlanks rest with
      | '\x7d' :: rest => some (nested depth (obj []), rest)
      | rest =>
        (membersFrom? fuel (depth - 1) rest).map fun (members?, rest) =>
          (nested depth (orUnreadable (members?.map obj)), rest)
    | 't' :: rest => (dropWord? ['r', 'u', 'e'] rest).map fun rest => (bool true, rest)
    | 'f' :: rest => (dropWord? ['a', 'l', 's', 'e'] rest).map fun rest => (bool false, rest)
    | 'n' :: rest => (dropWord? ['u', 'l', 'l'] rest).map fun rest => (null, rest)
    | rest => number? rest

/-- Reads one or more items and the bracket after them. -/
def itemsFrom? (fuel depth : Nat) (cs : List Char) : Option (List Json × List Char) :=
  match fuel with
  | 0 => none
  | fuel + 1 =>
    match valueFrom? fuel depth cs with
    | none => none
    | some (item, rest) =>
      match skipBlanks rest with
      | ',' :: rest => (itemsFrom? fuel depth rest).map fun (items, rest) => (item :: items, rest)
      | ']' :: rest => some ([item], rest)
      | _ => none

/-- Reads one or more members and the brace after them. -/
def membersFrom? (fuel depth : Nat) (cs : List Char) :
    Option (Option (List (String × Json)) × List Char) :=
  match fuel with
  | 0 => none
  | fuel + 1 =>
    match skipBlanks cs with
    | '"' :: rest =>
      match text? rest with
      | none => none
      | some (key?, rest) =>
        match skipBlanks rest with
        | ':' :: rest =>
          match valueFrom? fuel depth rest with
          | none => none
          | some (item, rest) =>
            match skipBlanks rest with
            | ',' :: rest =>
              (membersFrom? fuel depth rest).map fun (members?, rest) =>
                (addMember key? item members?, rest)
            | '\x7d' :: rest => some (addMember key? item (some []), rest)
            | _ => none
        | _ => none
    | _ => none

end

/-- Reads a document.  Every step takes at least one character, so the length of
    the text bounds their number. -/
def read? (text : String) : Option Json :=
  let cs := text.toList
  match valueFrom? (2 * cs.length + 2) maxDepth cs with
  | some (j, rest) => if (skipBlanks rest).isEmpty then some j else none
  | none           => none

end IssueSearch.Json
