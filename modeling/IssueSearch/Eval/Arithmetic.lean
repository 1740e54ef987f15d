import IssueSearch.Eval.Standard
import IssueSearch.Expr.Basic

/-! # Operators on values

    What the operators of a tree compute, and what a conversion does.

    * Texts absorb anything they are added to; a date moves by whole days.
    * Whole numbers never wrap: a result that does not fit is a failure.
    * A comparison with the absent value is false, and a comparison of two
      kinds that have no common order is a failure. -/

namespace IssueSearch

open Calendar (DateTime)

/-- The result of a whole-number operation, which fails if it does not fit. -/
def checkedInt (op : BinaryOp) (n : Int) : Except EvalError Value :=
  match Number.int64? n with
  | some n => .ok (.int n)
  | none   => .error (.typeMismatch op.name "integer overflow")

/-- Arithmetic on whole numbers; division and remainder cut toward zero.  The
    least number has no remainder by `-1`, since the division it belongs to
    does not fit. -/
def intArithmetic (op : BinaryOp) (a b : Int64) : Except EvalError Value :=
  match op with
  | .add      => checkedInt op (a.toInt + b.toInt)
  | .subtract => checkedInt op (a.toInt - b.toInt)
  | .multiply => checkedInt op (a.toInt * b.toInt)
  | .divide   =>
    if b = 0 then .error .divisionByZero else checkedInt op (a.toInt.tdiv b.toInt)
  | .modulo   =>
    if b = 0 then .error .divisionByZero
    else if Number.fits (a.toInt.tdiv b.toInt) then checkedInt op (a.toInt.tmod b.toInt)
    else .error (.typeMismatch op.name "integer overflow")
  | other     => .error (.typeMismatch other.name "not an arithmetic operator")

/-- Arithmetic on floating-point numbers, which knows no failure. -/
def floatArithmetic (op : BinaryOp) (a b : Float) : Except EvalError Value :=
  match op with
  | .add      => .ok (.float (a + b))
  | .subtract => .ok (.float (a - b))
  | .multiply => .ok (.float (a * b))
  | .divide   => .ok (.float (a / b))
  | .modulo   => .ok (.float (Number.remainder a b))
  | other     => .error (.typeMismatch other.name "not an arithmetic operator")

/-- Moves a date back by a number of days; the least number has no opposite. -/
def subtractDays (d : DateTime) (days : Int64) : Except EvalError Value :=
  match Number.int64? (-days.toInt) with
  | some days => Standard.addDays d days.toInt
  | none      => .error (.function "add_days" "date out of range")

/-- Arithmetic on values. -/
def arithmetic (op : BinaryOp) (l r : Value) : Except EvalError Value :=
  match op, l, r with
  | .add, .str a, b                => .ok (.str (a ++ b.text))
  | .add, a, .str b                => .ok (.str (a.text ++ b))
  | .add, .date d, .int days       => Standard.addDays d days.toInt
  | .subtract, .date d, .int days  => subtractDays d days
  | op, .int a, .int b             => intArithmetic op a b
  | op, .int a, .float b           => floatArithmetic op (Number.ofInt64 a) b
  | op, .float a, .int b           => floatArithmetic op a (Number.ofInt64 b)
  | op, .float a, .float b         => floatArithmetic op a b
  | op, a, b =>
    .error (.typeMismatch op.name ("cannot apply to " ++ a.kind ++ " and " ++ b.kind))

/-- Do the two values have a common order? -/
def comparable : Value → Value → Bool
  | .int _, .int _ | .int _, .float _ | .float _, .int _ | .float _, .float _ => true
  | .str _, .str _   => true
  | .date _, .date _ => true
  | _, _             => false

/-- Does the outcome of a comparison satisfy the operator? -/
def accepts (op : BinaryOp) (o : Ordering) : Bool :=
  match op with
  | .lessThan        => o == .lt
  | .lessThanOrEqual => o != .gt
  | .greaterThan     => o == .gt
  | _                => o != .lt

/-- Comparison of values. -/
def relational (op : BinaryOp) (l r : Value) : Except EvalError Value :=
  if l.isNull || r.isNull then .ok (.bool false)
  else if comparable l r then .ok (.bool (accepts op (l.order r)))
  else .error (.typeMismatch op.name ("cannot compare " ++ l.kind ++ " with " ++ r.kind))

/-- An operator that always looks at both operands. -/
def applyStrict (op : BinaryOp) (l r : Value) : Except EvalError Value :=
  match op with
  | .equal    => .ok (.bool (l.equals r))
  | .notEqual => .ok (.bool (!l.equals r))
  | .lessThan | .lessThanOrEqual | .greaterThan | .greaterThanOrEqual => relational op l r
  | op => arithmetic op l r

/-! ## Conversion -/

/-- The range of a narrow whole-number type. -/
def narrowRange? : DataType → Option (Int × Int)
  | .int16 => some (-32768, 32767)
  | .int32 => some (-2147483648, 2147483647)
  | _      => none

/-- The name of a narrow whole-number type in messages, which tells whether the
    value may be absent. -/
def narrowName : DataType → String
  | .int16           => "Int16"
  | .int32           => "Int32"
  | .nullable .int16 => "Nullable \x7b inner: Int16 \x7d"
  | .nullable .int32 => "Nullable \x7b inner: Int32 \x7d"
  | _                => ""

/-- A whole number as a value of the given type: it must fit a narrow type, and
    it becomes a floating-point number or a text if the type asks for one. -/
def convertInt (type : DataType) (n : Int64) : Except EvalError Value :=
  match type.underlying with
  | .float  => .ok (.float (Number.ofInt64 n))
  | .string => .ok (.str (Value.int n).text)
  | narrow =>
    match narrowRange? narrow with
    | some (low, high) =>
      if low ≤ n.toInt ∧ n.toInt ≤ high then .ok (.int n)
      else
        .error (.typeMismatch "convert"
          (Number.intText n.toInt ++ " does not fit " ++ narrowName type))
    | none => .ok (.int n)

/-- Converts a value to a declared type.  The absent value stays absent, a
    floating-point number is cut to a whole one, anything has a text, and a
    value that the type says nothing about is left as it is. -/
def convertTo (type : DataType) (value : Value) : Except EvalError Value :=
  match value with
  | .null  => .ok .null
  | .int n => convertInt type n
  | .float x =>
    if type.isInteger then .ok (.int (Number.truncate x))
    else if type.isString then .ok (.str (Value.float x).text)
    else .ok (.float x)
  | other => if type.isString then .ok (.str other.text) else .ok other

end IssueSearch
