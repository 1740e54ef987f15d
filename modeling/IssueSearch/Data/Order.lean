import IssueSearch.Data.Value

/-! # Equality and order of values

    * `Value.same`: equality within a kind.  Numbers are compared as numbers,
      so `-0` equals `0` and NaN differs from itself.
    * `Value.equals`: the same, except that a whole number also equals the
      floating-point number of that size.
    * `Value.order`: the order used for sorting.  The absent value comes
      first, numbers are ordered as numbers, and values of two kinds that
      have nothing in common are ordered by their texts. -/

namespace IssueSearch.Value

mutual

/-- Equality within a kind. -/
def same : Value → Value → Bool
  | null, null                         => true
  | bool a, bool b                     => a == b
  | int a, int b                       => a == b
  | float a, float b                   => a == b
  | str a, str b                       => a == b
  | date a, date b                     => a == b
  | array a, array b                   => sameItems a b
  | record n d fields, record m e more => n == m && d == e && sameFields fields more
  | source a, source b                 => a == b
  | _, _                               => false

/-- Equality of lists, item by item. -/
def sameItems : List Value → List Value → Bool
  | [], []           => true
  | a :: as, b :: bs => same a b && sameItems as bs
  | _, _             => false

/-- Equality of fields, name by name. -/
def sameFields : List (String × Value) → List (String × Value) → Bool
  | [], []                     => true
  | (n, a) :: as, (m, b) :: bs => n == m && same a b && sameFields as bs
  | _, _                       => false

end

/-- Equality that lets a whole number equal a floating-point number. -/
def equals : Value → Value → Bool
  | int a, float b => Number.ofInt64 a == b
  | float a, int b => Number.ofInt64 b == a
  | a, b           => same a b

/-- The order that `less` gives to two values it can tell apart. -/
def orderBy (less equal : Bool) : Ordering :=
  if less then .lt else if equal then .eq else .gt

/-- Order of two texts, by code points. -/
def textOrder (a b : String) : Ordering :=
  orderBy (a < b) (a = b)

/-- The order used for sorting. -/
def order : Value → Value → Ordering
  | null, null       => .eq
  | null, _          => .lt
  | _, null          => .gt
  | int a, int b     => orderBy (a < b) (a = b)
  | int a, float b   => Number.order (Number.ofInt64 a) b
  | float a, int b   => Number.order a (Number.ofInt64 b)
  | float a, float b => Number.order a b
  | bool a, bool b   => orderBy (!a && b) (a = b)
  | str a, str b     => textOrder a b
  | date a, date b   => a.order b
  | a, b             => textOrder a.text b.text

end IssueSearch.Value
