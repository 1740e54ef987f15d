import IssueSearch.Text.CaseTable

/-! # Letter case of running text

    Whole-text lower and upper case.  A letter may become several characters,
    and the capital sigma has two small forms: `ς` where it ends a word, `σ`
    elsewhere.  A sigma ends a word when a cased letter stands before it and
    none stands after it, characters without weight of their own being passed
    over on both sides. -/

namespace IssueSearch.Text

/-- The other case of `c`: its expansion if it has one, else its single
    counterpart, else `c` itself. -/
def mapCase (expansions : List (Nat × List Nat)) (runs : List CaseRun) (c : Char) : List Char :=
  match expansions.find? fun e => e.1 == c.toNat with
  | some e => e.2.map Char.ofNat
  | none =>
    match runs.findSome? fun r => r.map? c.toNat with
    | some n => [Char.ofNat n]
    | none   => [c]

/-- The small form of one character, apart from its neighbours. -/
def lowerChar (c : Char) : List Char :=
  if c.toNat < 0x80 then [c.toLower] else mapCase lowerExpansions lowerRuns c

/-- The capital form of one character. -/
def upperChar (c : Char) : List Char :=
  if c.toNat < 0x80 then [c.toUpper] else mapCase upperExpansions upperRuns c

/-- Is the first character that is not passed over a cased letter? -/
def meetsCased (cs : List Char) : Bool :=
  match cs.dropWhile fun c => inRuns ignorableRuns c.toNat with
  | c :: _ => inRuns casedRuns c.toNat
  | []     => false

/-- Lower case of the rest of a text, where `before` holds the characters
    already passed, the latest first. -/
def lowerFrom (before : List Char) : List Char → List Char
  | [] => []
  | c :: rest =>
    let small :=
      if c == 'Σ' then
        [if meetsCased before && !meetsCased rest then 'ς' else 'σ']
      else
        lowerChar c
    small ++ lowerFrom (c :: before) rest

/-- Lower case of a text. -/
def lower (s : String) : String :=
  String.ofList (lowerFrom [] s.toList)

/-- Upper case of a text. -/
def upper (s : String) : String :=
  String.ofList (s.toList.flatMap upperChar)

end IssueSearch.Text
