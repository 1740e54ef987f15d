import IssueSearch.Calendar.DateTime
import IssueSearch.Text.Blank

/-! # Date-times as text

    The interchange form is `2024-01-02T03:04:05`, with a fraction of three,
    six or nine digits when the time is not a whole second.  A year outside
    `0` to `9999` has a sign.

    Reading is more generous than writing: blanks may stand before each number
    and before each mark and at the end, a number may be shorter than its
    column, and a fraction may have any number of digits, of which the first
    nine count.  A leap second, such as `2016-12-31T23:59:60`, is refused. -/

namespace IssueSearch.Calendar

/-! ## Writing -/

/-- The digits of `n`, with zeros in front up to the given width. -/
def padded (width n : Nat) : String :=
  let ds := Nat.toDigits 10 n
  String.ofList (List.replicate (width - ds.length) '0' ++ ds)

/-- A year of at least four digits, signed outside `0` to `9999`. -/
def yearText (year : Int) : String :=
  if year < 0 then "-" ++ padded 4 year.natAbs
  else if 9999 < year then "+" ++ padded 4 year.natAbs
  else padded 4 year.natAbs

/-- Year, month and day with a mark between them. -/
def DateTime.dateText (d : DateTime) (mark : String) : String :=
  let c := d.civil
  yearText c.year ++ mark ++ padded 2 c.month ++ mark ++ padded 2 c.day

/-- Hour, minute and second. -/
def DateTime.clockText (d : DateTime) : String :=
  padded 2 d.hour ++ ":" ++ padded 2 d.minute ++ ":" ++ padded 2 d.second

/-- The fraction of a second in the fewest groups of three digits, nothing for
    a whole second. -/
def fractionText (nano : Nat) : String :=
  if nano = 0 then ""
  else if nano % 1000000 = 0 then "." ++ padded 3 (nano / 1000000)
  else if nano % 1000 = 0 then "." ++ padded 6 (nano / 1000)
  else "." ++ padded 9 nano

/-- The interchange form. -/
def DateTime.interchange (d : DateTime) : String :=
  d.dateText "-" ++ "T" ++ d.clockText ++ fractionText d.nano

/-- The form shown to readers, without the fraction. -/
def DateTime.display (d : DateTime) : String :=
  d.dateText "-" ++ " " ++ d.clockText

/-! ## Reading -/

/-- The value of a run of digits. -/
def digitsValue (ds : List Char) : Nat :=
  ds.foldl (fun n c => n * 10 + (c.toNat - '0'.toNat)) 0

/-- Takes a run of one to `limit` digits off the front. -/
def number? (limit : Nat) (cs : List Char) : Option (Nat × List Char) :=
  let ds := (cs.take limit).takeWhile Char.isDigit
  if ds.isEmpty then none else some (digitsValue ds, cs.drop ds.length)

/-- A number of at most two digits after optional blanks. -/
def column? (cs : List Char) : Option (Nat × List Char) :=
  number? 2 (Text.dropBlanks cs)

/-- The given mark, after optional blanks. -/
def mark? (c : Char) (cs : List Char) : Option (List Char) :=
  match Text.dropBlanks cs with
  | x :: rest => if x = c then some rest else none
  | []        => none

/-- A year after optional blanks: at most four digits, or a sign and any
    number of digits. -/
def year? (cs : List Char) : Option (Int × List Char) :=
  match Text.dropBlanks cs with
  | '-' :: rest => (number? rest.length rest).map fun (n, r) => (-(n : Int), r)
  | '+' :: rest => (number? rest.length rest).map fun (n, r) => ((n : Int), r)
  | rest        => (number? 4 rest).map fun (n, r) => ((n : Int), r)

/-- An optional fraction of a second, in nanoseconds. -/
def fraction? : List Char → Option (Nat × List Char)
  | '.' :: cs =>
    let ds := cs.takeWhile Char.isDigit
    let kept := ds.take 9
    if ds.isEmpty then none
    else some (digitsValue kept * Nat.pow 10 (9 - kept.length), cs.drop ds.length)
  | cs => some (0, cs)

/-- Reads the interchange form of a date-time that exists.  Leap seconds do
    not. -/
def DateTime.read? (s : String) : Option DateTime := do
  let (year, cs) ← year? s.toList
  let (month, cs) ← column? (← mark? '-' cs)
  let (day, cs) ← column? (← mark? '-' cs)
  let (hour, cs) ← column? (← mark? 'T' cs)
  let (minute, cs) ← column? (← mark? ':' cs)
  let (second, cs) ← column? (← mark? ':' cs)
  let (nano, cs) ← fraction? cs
  if (Text.dropBlanks cs).isEmpty then
    let nanos ← nanosOfClock? hour minute second nano
    ofCivil? { year := year, month := month, day := day } nanos
  else
    none

end IssueSearch.Calendar
