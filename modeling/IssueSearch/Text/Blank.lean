/-! # Blank characters

    The white space of running text, and trimming it off both ends.

    * `isBlank`: the standard's white-space property, which has more members
      than the blanks of ASCII (a no-break space, an ideographic space).
    * `trim`: what is left when the blanks at either end are removed. -/

namespace IssueSearch.Text

/-- The code points with the white-space property, as closed ranges. -/
def blankRuns : List (Nat × Nat) :=
  [(0x9, 0xD), (0x20, 0x20), (0x85, 0x85), (0xA0, 0xA0), (0x1680, 0x1680), (0x2000, 0x200A),
   (0x2028, 0x2029), (0x202F, 0x202F), (0x205F, 0x205F), (0x3000, 0x3000)]

/-- Is `c` white space? -/
def isBlank (c : Char) : Bool :=
  blankRuns.any fun r => r.1 ≤ c.toNat && c.toNat ≤ r.2

/-- Drops the blanks at the front. -/
def dropBlanks (cs : List Char) : List Char :=
  cs.dropWhile isBlank

/-- Removes the blanks at both ends. -/
def trim (s : String) : String :=
  String.ofList (dropBlanks (dropBlanks s.toList).reverse).reverse

end IssueSearch.Text
