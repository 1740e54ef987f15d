import IssueSearch.Calendar.Day
import IssueSearch.Number.Decimal
import IssueSearch.Number.Integer
import IssueSearch.Toml.Basic

/-! # TOML text: reading

    `Toml.read?` reads a document of version 1.0 of the format.  Line ends of
    two characters are taken for single ones first, so that the rest knows
    only one kind of line end. -/

namespace IssueSearch.Toml

/-! ## Characters -/

/-- Blank within a line. -/
def isSpace (c : Char) : Bool := c = ' ' || c = '\t'

/-- May the character stand in a comment or a text?  Control characters other
    than the tab may not. -/
def isPlain (c : Char) : Bool := c = '\t' || (0x20 ≤ c.toNat && c.toNat ≠ 0x7F)

/-- Drops the blanks within a line. -/
def skipSpaces (cs : List Char) : List Char := cs.dropWhile isSpace

/-- Line ends of two characters made single. -/
def joinLineEnds : List Char → List Char
  | '\r' :: '\n' :: rest => '\n' :: joinLineEnds rest
  | c :: rest            => c :: joinLineEnds rest
  | []                   => []

/-- Drops a comment, if there is one, up to the end of the line. -/
def skipComment? : List Char → Option (List Char)
  | '#' :: rest =>
    let after := rest.dropWhile fun c => c ≠ '\n'
    if (rest.takeWhile fun c => c ≠ '\n').all isPlain then some after else none
  | cs => some cs

/-- Drops blanks, comments and line ends, in at most `fuel` steps. -/
def skipLines? (fuel : Nat) (cs : List Char) : Option (List Char) :=
  match fuel with
  | 0 => none
  | fuel + 1 =>
    match skipComment? (skipSpaces cs) with
    | none => none
    | some ('\n' :: rest) => skipLines? fuel rest
    | some rest => some rest

/-- Drops what may follow an expression on its line. -/
def endLine? (cs : List Char) : Option (List Char) :=
  match skipComment? (skipSpaces cs) with
  | some ('\n' :: rest) => some rest
  | some []             => some []
  | _                   => none

/-! ## Texts -/

/-- The value of a hexadecimal digit. -/
def hexValue? (c : Char) : Option Nat :=
  if '0' ≤ c ∧ c ≤ '9' then some (c.toNat - '0'.toNat)
  else if 'a' ≤ c ∧ c ≤ 'f' then some (c.toNat - 'a'.toNat + 10)
  else if 'A' ≤ c ∧ c ≤ 'F' then some (c.toNat - 'A'.toNat + 10)
  else none

/-- The number of a run of hexadecimal digits. -/
def hexNumber? (ds : List Char) : Option Nat :=
  ds.foldl (fun n? c => n?.bind fun n => (hexValue? c).map fun d => n * 16 + d) (some 0)

/-- The character of a run of hexadecimal digits. -/
def hexChar? (ds : List Char) : Option Char :=
  (hexNumber? ds).bind fun n => if n.isValidChar then some (Char.ofNat n) else none

/-- The character that stands after a backslash for another one. -/
def shortEscape? : Char → Option Char
  | '"'  => some '"'
  | '\\' => some '\\'
  | 'b'  => some '\x08'
  | 't'  => some '\t'
  | 'n'  => some '\n'
  | 'f'  => some '\x0c'
  | 'r'  => some '\r'
  | _    => none

/-- Puts a character in front of a text that is being read. -/
def prepend (c? : Option Char) (more : Option (List Char × List Char)) :
    Option (List Char × List Char) :=
  c?.bind fun c => more.map fun (cs, rest) => (c :: cs, rest)

/-- The rest of a text in double quotes on one line. -/
def basicBody? : List Char → Option (List Char × List Char)
  | [] => none
  | '"' :: rest => some ([], rest)
  | '\\' :: 'u' :: a :: b :: c :: d :: rest =>
    prepend (hexChar? [a, b, c, d]) (basicBody? rest)
  | '\\' :: 'U' :: a :: b :: c :: d :: e :: f :: g :: h :: rest =>
    prepend (hexChar? [a, b, c, d, e, f, g, h]) (basicBody? rest)
  | '\\' :: c :: rest => prepend (shortEscape? c) (basicBody? rest)
  | c :: rest => if isPlain c && c ≠ '\\' then prepend (some c) (basicBody? rest) else none

/-- The rest of a text in single quotes on one line. -/
def literalBody? : List Char → Option (List Char × List Char)
  | [] => none
  | '\'' :: rest => some ([], rest)
  | c :: rest => if isPlain c then prepend (some c) (literalBody? rest) else none

/-- Where a text over several lines stands: in the text, between a backslash and
    the end of its line, or in the blanks that follow such a line. -/
inductive LineMode where
  | text
  | lineEnd
  | blanks
deriving DecidableEq

/-- The rest of a text in three double quotes.  Up to two quotes may stand before
    the closing ones. -/
def longBasicBody? (mode : LineMode) : List Char → Option (List Char × List Char)
  | [] => none
  | c :: rest =>
    if mode = .lineEnd then
      if isSpace c then longBasicBody? .lineEnd rest
      else if c = '\n' then longBasicBody? .blanks rest
      else none
    else if mode = .blanks && (isSpace c || c = '\n') then longBasicBody? .blanks rest
    else
      match c, rest with
      | '"', '"' :: '"' :: '"' :: '"' :: rest => some (['"', '"'], rest)
      | '"', '"' :: '"' :: '"' :: rest => some (['"'], rest)
      | '"', '"' :: '"' :: rest => some ([], rest)
      | '\\', 'u' :: a :: b :: c :: d :: rest =>
        prepend (hexChar? [a, b, c, d]) (longBasicBody? .text rest)
      | '\\', 'U' :: a :: b :: c :: d :: e :: f :: g :: h :: rest =>
        prepend (hexChar? [a, b, c, d, e, f, g, h]) (longBasicBody? .text rest)
      | '\\', e :: rest =>
        if isSpace e then longBasicBody? .lineEnd rest
        else if e = '\n' then longBasicBody? .blanks rest
        else prepend (shortEscape? e) (longBasicBody? .text rest)
      | '\\', [] => none
      | c, rest =>
        if isPlain c || c = '\n' then prepend (some c) (longBasicBody? .text rest) else none

/-- The rest of a text in three single quotes. -/
def longLiteralBody? : List Char → Option (List Char × List Char)
  | [] => none
  | '\'' :: '\'' :: '\'' :: '\'' :: '\'' :: rest => some (['\'', '\''], rest)
  | '\'' :: '\'' :: '\'' :: '\'' :: rest => some (['\''], rest)
  | '\'' :: '\'' :: '\'' :: rest => some ([], rest)
  | c :: rest =>
    if isPlain c || c = '\n' then prepend (some c) (longLiteralBody? rest) else none

/-- Drops a line end right after the opening quotes. -/
def dropFirstLineEnd : List Char → List Char
  | '\n' :: rest => rest
  | cs           => cs

/-- Reads a text that may be a key. -/
def shortText? : List Char → Option (String × List Char)
  | '"' :: rest  => (basicBody? rest).map fun (s, rest) => (String.ofList s, rest)
  | '\'' :: rest => (literalBody? rest).map fun (s, rest) => (String.ofList s, rest)
  | _            => none

/-- Reads a text. -/
def text? : List Char → Option (String × List Char)
  | '"' :: '"' :: '"' :: rest =>
    (longBasicBody? .text (dropFirstLineEnd rest)).map fun (s, rest) => (String.ofList s, rest)
  | '\'' :: '\'' :: '\'' :: rest =>
    (longLiteralBody? (dropFirstLineEnd rest)).map fun (s, rest) => (String.ofList s, rest)
  | cs => shortText? cs

/-! ## Keys -/

/-- May the character stand in a key without quotes? -/
def isBareKeyChar (c : Char) : Bool := c.isAlphanum || c = '_' || c = '-'

/-- Reads one part of a key. -/
def keyPart? (cs : List Char) : Option (String × List Char) :=
  match cs.takeWhile isBareKeyChar with
  | []   => shortText? cs
  | name => some (String.ofList name, cs.dropWhile isBareKeyChar)

/-- How many parts a key may have. -/
def maxKeyParts : Nat := 79

/-- Reads the parts of a key, at most `count` of them. -/
def keyParts? (count : Nat) (cs : List Char) : Option (List String × List Char) :=
  match count with
  | 0 => none
  | count + 1 =>
    match keyPart? (skipSpaces cs) with
    | none => none
    | some (part, rest) =>
      match skipSpaces rest with
      | '.' :: rest => (keyParts? count rest).map fun (parts, rest) => (part :: parts, rest)
      | rest => some ([part], rest)

/-- Reads a key. -/
def key? (cs : List Char) : Option (List String × List Char) :=
  keyParts? maxKeyParts cs

/-! ## Numbers and dates -/

/-- A run of digits, single underscores allowed between them, without the
    underscores. -/
def grouped? (isDigit : Char → Bool) : List Char → Option (List Char)
  | [] => none
  | [c] => if isDigit c then some [c] else none
  | c :: '_' :: rest => if isDigit c then (grouped? isDigit rest).map (c :: ·) else none
  | c :: rest => if isDigit c then (grouped? isDigit rest).map (c :: ·) else none

/-- The value of a run of digits in some base. -/
def digitsValue (base : Nat) (ds : List Char) : Nat :=
  ds.foldl (fun n c => n * base + (hexValue? c).getD 0) 0

/-- A whole number in some base, without a sign. -/
def based? (base : Nat) (cs : List Char) : Option Toml :=
  (grouped? (fun c => (hexValue? c).any (· < base)) cs).bind fun ds =>
    (Number.int64? (digitsValue base ds)).map Toml.int

/-- Decimal digits that do not start with a zero unless they are one. -/
def decimal? (cs : List Char) : Option (List Char) :=
  match grouped? Char.isDigit cs with
  | some ('0' :: _ :: _) => none
  | ds? => ds?

/-- The sign of a number, and the rest. -/
def splitSign : List Char → Bool × List Char
  | '-' :: rest => (true, rest)
  | '+' :: rest => (false, rest)
  | cs          => (false, cs)

/-- A whole number in decimal digits. -/
def decimalInt? (cs : List Char) : Option Toml :=
  let (negative, rest) := splitSign cs
  (decimal? rest).bind fun ds =>
    let n : Int := digitsValue 10 ds
    (Number.int64? (if negative then -n else n)).map Toml.int

/-- The digits behind the point, none without one. -/
def fraction? : List Char → Option (List Char)
  | []      => some []
  | _ :: cs => grouped? Char.isDigit cs

/-- The exponent behind its mark, zero without one. -/
def exponent? : List Char → Option Int
  | [] => some 0
  | _ :: cs =>
    let (negative, rest) := splitSign cs
    (grouped? Char.isDigit rest).map fun ds =>
      let n : Int := digitsValue 10 ds
      if negative then -n else n

/-- A number with a point or an exponent, without a sign. -/
def decimalFloat? (cs : List Char) : Option Number.Decimal := do
  let isMark (c : Char) : Bool := c = 'e' || c = 'E'
  let mantissa := cs.takeWhile fun c => !isMark c
  let point := mantissa.dropWhile fun c => c ≠ '.'
  let mark := cs.dropWhile fun c => !isMark c
  let whole ← decimal? (mantissa.takeWhile fun c => c ≠ '.')
  let fraction ← fraction? point
  let exponent ← exponent? mark
  if point.isEmpty && mark.isEmpty then none
  else
    return { digits := digitsValue 10 (whole ++ fraction),
             exponent := exponent - (fraction.length : Nat) }

/-- Is it a number with a point or an exponent, or one that is not finite?  A
    positive one that is too large to be finite has to be written as such. -/
def isFloat (cs : List Char) : Bool :=
  let (negative, rest) := splitSign cs
  rest = ['i', 'n', 'f'] || rest = ['n', 'a', 'n'] ||
    (decimalFloat? rest).any fun d => negative || !d.overflows

/-- Two digits below a limit. -/
def isTwoDigits (limit : Nat) (a b : Char) : Bool :=
  a.isDigit && b.isDigit && digitsValue 10 [a, b] < limit

/-- Is it nothing, or a zone? -/
def isZone : List Char → Bool
  | []    => true
  | ['Z'] => true
  | ['z'] => true
  | [sign, a, b, ':', c, d] =>
    (sign = '+' || sign = '-') && isTwoDigits 24 a b && isTwoDigits 60 c d
  | _     => false

/-- Is it a time of day, followed by a zone only where one is allowed? -/
def isTime (zoneAllowed : Bool) : List Char → Bool
  | a :: b :: ':' :: c :: d :: ':' :: e :: f :: rest =>
    let after :=
      match rest with
      | '.' :: fraction =>
        if (fraction.takeWhile Char.isDigit).isEmpty then none
        else some (fraction.dropWhile Char.isDigit)
      | rest => some rest
    isTwoDigits 24 a b && isTwoDigits 60 c d && isTwoDigits 61 e f &&
      (match after with
        | none      => false
        | some rest => rest.isEmpty || (zoneAllowed && isZone rest))
  | _ => false

/-- Is it a day of the calendar? -/
def isDate : List Char → Bool
  | [a, b, c, d, '-', e, f, '-', g, h] =>
    [a, b, c, d, e, f, g, h].all Char.isDigit &&
      Calendar.Civil.isValid
        { year := (digitsValue 10 [a, b, c, d] : Nat), month := digitsValue 10 [e, f],
          day := digitsValue 10 [g, h] }
  | _ => false

/-- Is it a date, a time, or both? -/
def isDateTime (cs : List Char) : Bool :=
  isDate cs || isTime false cs ||
    (isDate (cs.take 10) &&
      match cs.drop 10 with
      | 'T' :: time => isTime true time
      | 't' :: time => isTime true time
      | ' ' :: time => isTime true time
      | _           => false)

/-- The value of a word without quotes. -/
def word? (cs : List Char) : Option Toml :=
  match cs with
  | ['t', 'r', 'u', 'e'] => some (bool true)
  | ['f', 'a', 'l', 's', 'e'] => some (bool false)
  | '0' :: 'x' :: ds => based? 16 ds
  | '0' :: 'o' :: ds => based? 8 ds
  | '0' :: 'b' :: ds => based? 2 ds
  | cs =>
    match decimalInt? cs with
    | some n => some n
    | none =>
      if isFloat cs then some float
      else if isDateTime cs then some dateTime
      else none

/-- May the character stand in a word without quotes? -/
def isWordChar (c : Char) : Bool :=
  c.isAlphanum || c = '_' || c = '-' || c = '+' || c = '.' || c = ':'

/-- Takes a word off the front.  A date and a time may have a blank between
    them. -/
def splitWord (cs : List Char) : List Char × List Char :=
  let word := cs.takeWhile isWordChar
  let rest := cs.dropWhile isWordChar
  match rest with
  | ' ' :: c :: more =>
    if isDate word && c.isDigit then
      (word ++ ' ' :: (c :: more).takeWhile isWordChar, (c :: more).dropWhile isWordChar)
    else
      (word, rest)
  | _ => (word, rest)

/-! ## Values -/

/-- How deep arrays and tables may be nested inside a value. -/
def maxDepth : Nat := 79

/-- Adds a key and its value to a table written as a value. -/
def assignKey (parts : List String) (v : Toml) (t : Draft) : Option Draft :=
  match parts.reverse with
  | []          => none
  | key :: path => t.assign path.reverse key v

mutual

/-- Reads a value, nested at most `depth` deep, in at most `fuel` steps. -/
def valueFrom? (fuel depth : Nat) (cs : List Char) : Option (Toml × List Char) :=
  match fuel with
  | 0 => none
  | fuel + 1 =>
    match cs with
    | '"' :: _ => (text? cs).map fun (s, rest) => (str s, rest)
    | '\'' :: _ => (text? cs).map fun (s, rest) => (str s, rest)
    | '[' :: rest =>
      if depth = 0 then none
      else (itemsFrom? fuel (depth - 1) rest).map fun (items, rest) => (arr items, rest)
    | '\x7b' :: rest =>
      if depth = 0 then none
      else
        match skipSpaces rest with
        | '\x7d' :: rest => some (table [], rest)
        | rest =>
          (entriesFrom? fuel (depth - 1) (.empty false false) rest).map fun (t, rest) =>
            (table (ofDraft t), rest)
    | cs =>
      let (word, rest) := splitWord cs
      (word? word).map fun v => (v, rest)

/-- Reads the items of an array and the bracket after them. -/
def itemsFrom? (fuel depth : Nat) (cs : List Char) : Option (List Toml × List Char) :=
  match fuel with
  | 0 => none
  | fuel + 1 =>
    match skipLines? (cs.length + 1) cs with
    | none => none
    | some (']' :: rest) => some ([], rest)
    | some rest =>
      match valueFrom? fuel depth rest with
      | none => none
      | some (item, rest) =>
        match skipLines? (rest.length + 1) rest with
        | some (',' :: rest) =>
          (itemsFrom? fuel depth rest).map fun (items, rest) => (item :: items, rest)
        | some (']' :: rest) => some ([item], rest)
        | _ => none

/-- Reads one or more entries of a table written as a value, and the brace after
    them. -/
def entriesFrom? (fuel depth : Nat) (t : Draft) (cs : List Char) : Option (Draft × List Char) :=
  match fuel with
  | 0 => none
  | fuel + 1 =>
    match key? cs with
    | some (parts, '=' :: rest) =>
      match valueFrom? fuel depth (skipSpaces rest) with
      | none => none
      | some (v, rest) =>
        match assignKey parts v t with
        | none => none
        | some t =>
          match skipSpaces rest with
          | ',' :: rest => entriesFrom? fuel depth t rest
          | '\x7d' :: rest => some (t, rest)
          | _ => none
    | _ => none

end

/-! ## Documents -/

/-- A document as far as it has been read: all of it, and the path of the table
    that further keys belong to. -/
structure Progress where
  root    : Draft
  current : List String

/-- Opens the table of a header with the given way of opening. -/
def Progress.header (openIt : String → Draft → Option Draft) (parts : List String)
    (p : Progress) : Option Progress :=
  match parts.reverse with
  | [] => none
  | key :: path =>
    (p.root.update false (openIt key) path.reverse).map fun root =>
      { root := root, current := parts }

/-- Adds a key and its value to the current table. -/
def Progress.assign (parts : List String) (v : Toml) (p : Progress) : Option Progress :=
  (p.root.update false (assignKey parts v) p.current).map fun root => { p with root := root }

/-- Reads one expression, a header or a key with its value. -/
def expression? (p : Progress) (cs : List Char) : Option (Progress × List Char) :=
  match cs with
  | '[' :: '[' :: rest =>
    match key? rest with
    | some (parts, ']' :: ']' :: rest) =>
      (p.header Draft.openArrayTable parts).map fun p => (p, rest)
    | _ => none
  | '[' :: rest =>
    match key? rest with
    | some (parts, ']' :: rest) => (p.header Draft.openTable parts).map fun p => (p, rest)
    | _ => none
  | cs =>
    match key? cs with
    | some (parts, '=' :: rest) =>
      match valueFrom? (2 * rest.length + 2) maxDepth (skipSpaces rest) with
      | some (v, rest) => (p.assign parts v).map fun p => (p, rest)
      | none => none
    | _ => none

/-- Reads the expressions of a document, one to a line, in at most `fuel` steps. -/
def documentFrom? (fuel : Nat) (p : Progress) (cs : List Char) : Option Progress :=
  match fuel with
  | 0 => none
  | fuel + 1 =>
    match skipLines? (cs.length + 1) cs with
    | none => none
    | some [] => some p
    | some rest =>
      match expression? p rest with
      | none => none
      | some (p, rest) =>
        match endLine? rest with
        | none => none
        | some rest => documentFrom? fuel p rest

/-- Drops the mark that may stand at the start of a text. -/
def dropByteOrderMark : List Char → List Char
  | '\ufeff' :: rest => rest
  | cs               => cs

/-- Reads a document: the entries of its outermost table. -/
def read? (text : String) : Option (List (String × Toml)) :=
  let cs := joinLineEnds (dropByteOrderMark text.toList)
  (documentFrom? (cs.length + 2) { root := .empty false false, current := [] } cs).map
    fun p => ofDraft p.root

end IssueSearch.Toml
