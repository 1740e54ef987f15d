import IssueSearch.Number.Binary64
import IssueSearch.Number.Integer

/-! # Decimal text of numbers

    A number is written with the fewest digits that read back as the same
    number; of two candidates with that many digits the nearer one is taken,
    and a `Tie` decides between two that are equally near.  In `text` a tie
    goes up and the digits are laid out positionally, however many zeros that
    takes; a whole number has no point. -/

namespace IssueSearch.Number

/-! ## The fewest digits -/

/-- A decimal `digits * 10^exponent`. -/
structure Decimal where
  digits   : Nat
  exponent : Int

/-- How many digits stand before the point; below zero, how many zeros stand
    right behind it. -/
def Decimal.size (d : Decimal) : Int :=
  (Nat.toDigits 10 d.digits).length + d.exponent

/-- The least number that rounds to infinity: half a step above the greatest
    finite one, whose last bit is set, so that the tie goes up. -/
def overflowStart : Nat := (Nat.pow 2 54 - 1) * Nat.pow 2 970

/-- Is the decimal too large to round to a finite number?  The number of its
    digits decides that far from the limit. -/
def Decimal.overflows (d : Decimal) : Bool :=
  if d.digits = 0 || d.size < 309 then false
  else if 309 < d.size then true
  else if 0 ≤ d.exponent then overflowStart ≤ d.digits * Nat.pow 10 d.exponent.toNat
  else overflowStart * Nat.pow 10 (-d.exponent).toNat ≤ d.digits

/-- The numbers that round to a given one: all those between `low` and `high`,
    the ends included or not.  `value`, `low` and `high` are numerators over
    `scale`. -/
structure Rounding where
  value  : Nat
  low    : Nat
  high   : Nat
  closed : Bool
  scale  : Nat

/-- The rounding interval of a finite number other than zero: half a step to
    either side, a quarter step below a power of two.  The ends belong to the
    interval when the last bit is zero. -/
def roundingOf (x : Float) : Rounding :=
  let m := 4 * magnitude x
  let step := spacing x
  let below := if fractionField x = 0 && 1 < exponentField x then step else 2 * step
  { value := m, low := m - below, high := m + 2 * step,
    closed := fractionField x % 2 == 0, scale := Nat.pow 2 1076 }

/-- Does `n / scale` round to the number? -/
def Rounding.holds (r : Rounding) (n : Nat) : Bool :=
  if r.closed then r.low ≤ n && n ≤ r.high else r.low < n && n < r.high

/-- The interval with everything multiplied by ten to the given power. -/
def Rounding.scaleUp (r : Rounding) (power : Nat) : Rounding :=
  let f := Nat.pow 10 power
  { r with value := r.value * f, low := r.low * f, high := r.high * f }

/-- Which one is taken of two candidates that are equally near. -/
inductive Tie where
  | upper
  | even

/-- Does a tie go to the candidate `d` rather than to the one above it? -/
def Tie.goesDown (tie : Tie) (d : Nat) : Bool :=
  match tie with
  | upper => false
  | even  => d % 2 == 0

/-- The multiple of `unit` that rounds to the number and is nearest to it, if
    there is one. -/
def Rounding.nearest? (r : Rounding) (tie : Tie) (unit : Nat) : Option Nat :=
  let d := r.value / unit
  let down := r.holds (d * unit)
  let up := r.holds ((d + 1) * unit)
  if down && up then
    let below := r.value - d * unit
    let above := (d + 1) * unit - r.value
    some (if below < above || (below == above && tie.goesDown d) then d else d + 1)
  else if down then some d
  else if up then some (d + 1)
  else none

/-- The candidate on the grid of spacing `10^exponent`. -/
def Rounding.onGrid? (r : Rounding) (tie : Tie) (exponent : Int) : Option Decimal :=
  let digits? :=
    if exponent < 0 then
      (r.scaleUp (-exponent).toNat).nearest? tie r.scale
    else
      r.nearest? tie (r.scale * Nat.pow 10 exponent.toNat)
  digits?.map fun d => { digits := d, exponent := exponent }

/-- The least `e` from `e₀` on with `value < 10^e * scale`, looking at most
    `fuel` steps ahead. -/
def Rounding.magnitudeFrom (r : Rounding) (fuel : Nat) (e₀ : Int) : Int :=
  match fuel with
  | 0 => e₀
  | fuel + 1 =>
    let below :=
      if e₀ < 0 then r.value * Nat.pow 10 (-e₀).toNat < r.scale
      else r.value < Nat.pow 10 e₀.toNat * r.scale
    if below then e₀ else r.magnitudeFrom fuel (e₀ + 1)

/-- The first grid that has a candidate, from `exponent` down to finer ones. -/
def Rounding.shortestFrom (r : Rounding) (tie : Tie) (fuel : Nat) (exponent : Int) : Decimal :=
  match fuel with
  | 0 => { digits := r.value, exponent := 0 }
  | fuel + 1 =>
    match r.onGrid? tie exponent with
    | some d => d
    | none   => r.shortestFrom tie fuel (exponent - 1)

/-- The shortest decimal that reads back as `x`, for a finite `x` other than
    zero.  Every such number lies between `10^-324` and `10^309`, and
    seventeen digits always suffice. -/
def shortest (tie : Tie) (x : Float) : Decimal :=
  let r := roundingOf x
  r.shortestFrom tie 18 (r.magnitudeFrom 640 (-324) - 1)

/-! ## Layout -/

/-- Drops the zeros at the end of a run of digits. -/
def dropEndZeros (ds : List Char) : List Char :=
  (ds.reverse.dropWhile (· == '0')).reverse

/-- The decimal in positional notation, without a point if it is whole. -/
def Decimal.layout (d : Decimal) : List Char :=
  let ds := Nat.toDigits 10 d.digits
  if 0 ≤ d.exponent then
    ds ++ List.replicate d.exponent.toNat '0'
  else
    let places := (-d.exponent).toNat
    let padded := List.replicate (places + 1 - ds.length) '0' ++ ds
    let whole := padded.take (padded.length - places)
    match dropEndZeros (padded.drop (padded.length - places)) with
    | []   => whole
    | frac => whole ++ '.' :: frac

/-- The decimal with one digit before the point, and an exponent. -/
def Decimal.scientific (d : Decimal) : List Char :=
  let exponent := (intText (d.size - 1)).toList
  match Nat.toDigits 10 d.digits with
  | []      => []
  | [c]     => c :: 'e' :: exponent
  | c :: cs => c :: '.' :: cs ++ 'e' :: exponent

/-- The text of a number. -/
def text (x : Float) : String :=
  if isNaN x then "NaN"
  else
    let sign := if isNegative x then "-" else ""
    if !isFinite x then sign ++ "inf"
    else if magnitude x = 0 then sign ++ "0"
    else sign ++ String.ofList (shortest .upper x).layout

end IssueSearch.Number
