import IssueSearch.Json.Basic
import IssueSearch.Number.Decimal
import IssueSearch.Number.Integer

/-! # JSON text: writing

    * `Json.compact`: on one line, without blanks.
    * `Json.pretty`: one item to a line, two blanks for each level.

    Control characters, quotes and backslashes are escaped, and nothing else
    is.  What has no text of its own is written as `null`. -/

namespace IssueSearch.Json

/-- The digit of a number below sixteen. -/
def hexDigit (n : Nat) : Char :=
  if n < 10 then Char.ofNat (48 + n) else Char.ofNat (87 + n)

/-- A character inside quotes. -/
def escapeChar (c : Char) : List Char :=
  if c = '"' then ['\\', '"']
  else if c = '\\' then ['\\', '\\']
  else if c = '\n' then ['\\', 'n']
  else if c = '\r' then ['\\', 'r']
  else if c = '\t' then ['\\', 't']
  else if c = '\x08' then ['\\', 'b']
  else if c = '\x0c' then ['\\', 'f']
  else if c.toNat < 0x20 then
    ['\\', 'u', '0', '0', hexDigit (c.toNat / 16), hexDigit (c.toNat % 16)]
  else [c]

/-- A text in quotes. -/
def quoted (s : String) : String :=
  "\"" ++ String.ofList (s.toList.flatMap escapeChar) ++ "\""

/-- The digits of a decimal other than zero: positional with at most sixteen
    digits before the point and at most four zeros right behind it, and with an
    exponent otherwise. -/
def decimalText (d : Number.Decimal) : List Char :=
  if -5 < d.size && d.size ≤ 16 then
    if 0 ≤ d.exponent then d.layout ++ ['.', '0'] else d.layout
  else
    d.scientific

/-- A floating-point number, written so that it is read back as one.  What is
    not finite has no JSON text. -/
def floatText (x : Float) : String :=
  let sign := if Number.isNegative x then "-" else ""
  if !Number.isFinite x then "null"
  else if Number.magnitude x = 0 then sign ++ "0.0"
  else sign ++ String.ofList (decimalText (Number.shortest .even x))

mutual

/-- The document on one line. -/
def compact : Json → String
  | null        => "null"
  | bool b      => if b then "true" else "false"
  | int n       => Number.intText n
  | float x     => floatText x
  | str s       => quoted s
  | arr items   => "[" ++ compactItems items ++ "]"
  | obj members => "\x7b" ++ compactMembers members ++ "\x7d"
  | unreadable  => "null"

/-- Items with commas between them. -/
def compactItems : List Json → String
  | []           => ""
  | [item]       => item.compact
  | item :: rest => item.compact ++ "," ++ compactItems rest

/-- Members with commas between them. -/
def compactMembers : List (String × Json) → String
  | []                  => ""
  | [(key, item)]       => quoted key ++ ":" ++ item.compact
  | (key, item) :: rest => quoted key ++ ":" ++ item.compact ++ "," ++ compactMembers rest

end

/-- A new line at the given level. -/
def newLine (level : Nat) : String :=
  "\n" ++ String.ofList (List.replicate (2 * level) ' ')

mutual

/-- The document over several lines, inside the given level. -/
def prettyAt (level : Nat) : Json → String
  | arr []      => "[]"
  | arr items   => "[" ++ prettyItems (level + 1) items ++ newLine level ++ "]"
  | obj []      => "\x7b\x7d"
  | obj members => "\x7b" ++ prettyMembers (level + 1) members ++ newLine level ++ "\x7d"
  | leaf        => leaf.compact

/-- Items on lines of their own. -/
def prettyItems (level : Nat) : List Json → String
  | []           => ""
  | [item]       => newLine level ++ item.prettyAt level
  | item :: rest => newLine level ++ item.prettyAt level ++ "," ++ prettyItems level rest

/-- Members on lines of their own. -/
def prettyMembers (level : Nat) : List (String × Json) → String
  | []                  => ""
  | [(key, item)]       => newLine level ++ quoted key ++ ": " ++ item.prettyAt level
  | (key, item) :: rest =>
    newLine level ++ quoted key ++ ": " ++ item.prettyAt level ++ "," ++ prettyMembers level rest

end

/-- The document over several lines. -/
def pretty (j : Json) : String :=
  j.prettyAt 0

end IssueSearch.Json
