/-! # Whole numbers of 64 bits

    Arithmetic is carried out on unbounded integers and the result is kept
    only if it fits, so nothing ever wraps. -/

namespace IssueSearch.Number

/-- Does `n` fit into 64 bits with a sign? -/
def fits (n : Int) : Bool :=
  Int64.minValue.toInt ≤ n && n ≤ Int64.maxValue.toInt

/-- The 64-bit integer of the same value, if there is one. -/
def int64? (n : Int) : Option Int64 :=
  if fits n then some (Int64.ofInt n) else none

/-- The 32-bit count of the same value, if there is one. -/
def count? (n : Int) : Option UInt32 :=
  if 0 ≤ n ∧ n < 4294967296 then some (UInt32.ofNat n.toNat) else none

/-- Decimal digits of a natural number. -/
def natText (n : Nat) : String :=
  String.ofList (Nat.toDigits 10 n)

/-- Decimal digits of an integer, with a sign if it is negative. -/
def intText (n : Int) : String :=
  if n < 0 then "-" ++ natText n.natAbs else natText n.natAbs

end IssueSearch.Number
