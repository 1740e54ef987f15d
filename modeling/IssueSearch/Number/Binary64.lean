/-! # Binary floating-point numbers

    A view of `Float` by the fields of its 64 bits, and the operations that
    need it.

    * `magnitude`: every finite number is a whole multiple of `2^-1074`, and
      this is the multiple.  Truncation and remainder are exact on it.
    * `rank`: the total order of all numbers, in which `-0` stands before `0`
      and NaN stands above the positive infinity.  There is one NaN: `toBits`
      gives it without a sign, so none stands below the negative infinity. -/

namespace IssueSearch.Number

/-- The weight of the sign bit. -/
def signWeight : Nat := Nat.pow 2 63

/-- The weight of the bit in front of the fraction, which is not stored. -/
def hiddenWeight : Nat := Nat.pow 2 52

/-- The sign bit. -/
def isNegative (x : Float) : Bool :=
  signWeight ≤ x.toBits.toNat

/-- The bits below the sign. -/
def unsignedBits (x : Float) : Nat :=
  x.toBits.toNat % signWeight

/-- The eleven bits of the exponent. -/
def exponentField (x : Float) : Nat :=
  unsignedBits x / hiddenWeight

/-- The fifty-two bits of the fraction. -/
def fractionField (x : Float) : Nat :=
  x.toBits.toNat % hiddenWeight

/-- Is `x` neither infinite nor NaN? -/
def isFinite (x : Float) : Bool :=
  exponentField x < 2047

/-- Is `x` NaN? -/
def isNaN (x : Float) : Bool :=
  exponentField x == 2047 && fractionField x != 0

/-- `|x| * 2^1074`, for a finite `x`. -/
def magnitude (x : Float) : Nat :=
  if exponentField x = 0 then fractionField x
  else (hiddenWeight + fractionField x) * Nat.pow 2 (exponentField x - 1)

/-- The distance from a finite `x` to its neighbour away from zero, in the
    unit of `magnitude`. -/
def spacing (x : Float) : Nat :=
  Nat.pow 2 (exponentField x - 1)

/-- The number with the given sign and magnitude, for a magnitude of at most
    fifty-three significant bits. -/
def ofMagnitude (negative : Bool) (n : Nat) : Float :=
  let shift := n.log2 - 52
  let bits :=
    if n < hiddenWeight then n
    else (shift + 1) * hiddenWeight + (n / Nat.pow 2 shift - hiddenWeight)
  Float.ofBits (UInt64.ofNat (if negative then signWeight + bits else bits))

/-- Position in the total order of all numbers. -/
def rank (x : Float) : Int :=
  if isNegative x then -(unsignedBits x : Int) - 1 else unsignedBits x

/-- Order of two numbers in the total order. -/
def order (x y : Float) : Ordering :=
  if rank x < rank y then .lt else if rank x = rank y then .eq else .gt

/-- The whole part of `x`, cut toward zero and clamped to 64 bits; NaN gives
    zero. -/
def truncate (x : Float) : Int64 :=
  if isNaN x then 0
  else if isFinite x then
    let whole : Int := (magnitude x / Nat.pow 2 1074 : Nat)
    let signed := if isNegative x then -whole else whole
    if signed < Int64.minValue.toInt then Int64.minValue
    else if Int64.maxValue.toInt < signed then Int64.maxValue
    else Int64.ofInt signed
  else if isNegative x then Int64.minValue
  else Int64.maxValue

/-- Remainder of a division that cuts toward zero; it has the sign of `x`. -/
def remainder (x y : Float) : Float :=
  if isNaN x || isNaN y || !isFinite x || (isFinite y && magnitude y == 0) then
    Float.ofBits 0x7FF8000000000000
  else if isFinite y then
    ofMagnitude (isNegative x) (magnitude x % magnitude y)
  else
    x

/-- The nearest number to a 64-bit integer. -/
def ofInt64 (n : Int64) : Float :=
  Float.ofInt n.toInt

end IssueSearch.Number
