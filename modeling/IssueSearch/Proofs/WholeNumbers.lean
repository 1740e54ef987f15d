import IssueSearch.Eval.Meaning
import Mathlib.Tactic.ByContra

/-! # Whole numbers never wrap

    A term of whole numbers has a value among all integers, and the steps that lead
    to it.  Here every step is carried out on numbers of 64 bits: a result that
    does not fit, and a division by zero, end the evaluation.

    * `Number.int64?_eq_some_iff`: a number is kept exactly if it fits.
    * `IntTerm.value`, `IntTerm.steps`: the value of a term over all integers, and
      the operations in the order in which they are carried out.
    * `IntStep.IsSafe`: what a step needs for its result to exist and to fit.
    * `IntStep.intArithmetic_of_isSafe`, `IntStep.intArithmetic_of_not_isSafe`: one
      step.
    * `IntTerm.evalIn_outcome`: a whole term.
    * `IntTerm.eval_never_wraps`: a term has a value here exactly if all its steps
      are safe, and that value is the exact one; otherwise the first step that is
      not safe tells the failure. -/

namespace IssueSearch

/-! ## Numbers that fit -/

namespace Number

theorem fits_iff (n : Int) :
    fits n = true ↔ Int64.minValue.toInt ≤ n ∧ n ≤ Int64.maxValue.toInt := by
  rw [fits, Bool.and_eq_true, decide_eq_true_eq, decide_eq_true_eq]

theorem fits_toInt (n : Int64) : fits n.toInt = true :=
  (fits_iff _).mpr ⟨n.minValue_le_toInt, n.toInt_le⟩

/-- A number is kept as it is. -/
theorem int64?_eq_some_iff {m : Int} {n : Int64} : int64? m = some n ↔ n.toInt = m := by
  unfold int64?
  constructor
  · intro h
    by_cases hfits : fits m = true
    · rw [if_pos hfits] at h
      obtain ⟨hge, hle⟩ := (fits_iff m).mp hfits
      rw [← Option.some.inj h]
      exact Int64.toInt_ofInt_of_le hge (Int.lt_of_le_sub_one hle)
    · rw [if_neg hfits] at h
      cases h
  · rintro rfl
    rw [if_pos (fits_toInt n), Int64.ofInt_toInt]

theorem int64?_eq_none_iff {m : Int} : int64? m = none ↔ fits m = false := by
  unfold int64?
  split <;> simp_all

/-- A quotient is no larger than what is divided, so only the opposite of the least
    number does not fit. -/
theorem fits_tdiv_iff {a b : Int} (ha : fits a = true) (hb : b ≠ 0) :
    fits (a.tdiv b) = true ↔ ¬ (a = Int64.minValue.toInt ∧ b = -1) := by
  rw [fits_iff] at *
  rw [Int64.toInt_minValue, Int64.toInt_maxValue] at *
  by_cases hopposite : b = -1
  · have hquotient : a.tdiv b = -a := by rw [hopposite, Int.tdiv_neg, Int.tdiv_one]
    rw [hquotient]
    omega
  · by_cases hone : b = 1
    · rw [hone, Int.tdiv_one]
      omega
    · -- any other divisor halves the size at least
      have hsize : (a.tdiv b).natAbs ≤ a.natAbs / 2 := by
        rw [Int.natAbs_tdiv]
        exact Nat.div_le_div_left (by omega) (by decide)
      omega

/-- A remainder is smaller than what divides. -/
theorem fits_tmod (a : Int) {b : Int} (hb : fits b = true) (hzero : b ≠ 0) :
    fits (a.tmod b) = true := by
  have hsize : (a.tmod b).natAbs < b.natAbs := by
    rw [Int.natAbs_tmod]
    exact Nat.mod_lt _ (by omega)
  rw [fits_iff] at *
  rw [Int64.toInt_minValue, Int64.toInt_maxValue] at *
  omega

end Number

/-! ## Operations -/

/-- An operation on whole numbers. -/
inductive IntOp where
  | add
  | subtract
  | multiply
  | divide
  | modulo
deriving DecidableEq

namespace IntOp

/-- The operator that asks for it. -/
def operator : IntOp → BinaryOp
  | add      => .add
  | subtract => .subtract
  | multiply => .multiply
  | divide   => .divide
  | modulo   => .modulo

/-- Its result among all integers; division and remainder cut toward zero. -/
def exact : IntOp → Int → Int → Int
  | add,      a, b => a + b
  | subtract, a, b => a - b
  | multiply, a, b => a * b
  | divide,   a, b => a.tdiv b
  | modulo,   a, b => a.tmod b

/-- Does it divide by its right operand? -/
def divides : IntOp → Bool
  | divide | modulo => true
  | _               => false

end IntOp

/-- An operation with the operands that it is given. -/
structure IntStep where
  op    : IntOp
  left  : Int
  right : Int
deriving DecidableEq

namespace IntStep

/-- The exact result. -/
def result (s : IntStep) : Int :=
  s.op.exact s.left s.right

/-- Does the step divide by zero? -/
def DividesByZero (s : IntStep) : Prop :=
  s.op.divides = true ∧ s.right = 0

instance (s : IntStep) : Decidable s.DividesByZero :=
  inferInstanceAs (Decidable (_ ∧ _))

/-- `s.IsSafe`: the step does not divide by zero, its result fits, and it does not
    ask for the remainder of the least number by `-1`. -/
structure IsSafe (s : IntStep) : Prop where
  divisor   : ¬ s.DividesByZero
  range     : Int64.minValue.toInt ≤ s.result ∧ s.result ≤ Int64.maxValue.toInt
  remainder : ¬ (s.op = .modulo ∧ s.left = Int64.minValue.toInt ∧ s.right = -1)

/-- The failure of a step that is not safe. -/
def failure (s : IntStep) : EvalError :=
  if s.DividesByZero then .divisionByZero
  else .typeMismatch s.op.operator.name "integer overflow"

theorem isSafe_iff (s : IntStep) :
    s.IsSafe ↔ ¬ s.DividesByZero ∧ Number.fits s.result = true ∧
      ¬ (s.op = .modulo ∧ s.left = Int64.minValue.toInt ∧ s.right = -1) := by
  rw [Number.fits_iff]
  exact ⟨fun h => ⟨h.divisor, h.range, h.remainder⟩, fun h => ⟨h.1, h.2.1, h.2.2⟩⟩

/-- Every step but a remainder checks its result. -/
theorem intArithmetic_eq {op : IntOp} {a b : Int64}
    (h : ¬ DividesByZero ⟨op, a.toInt, b.toInt⟩) (hop : op ≠ .modulo) :
    intArithmetic op.operator a b = checkedInt op.operator (op.exact a.toInt b.toInt) := by
  cases op with
  | add | subtract | multiply => rfl
  | divide =>
    have hb : b ≠ 0 := by
      rintro rfl
      exact h ⟨rfl, rfl⟩
    exact if_neg hb
  | modulo => exact absurd rfl hop

/-- A remainder checks the quotient that it belongs to, and its result always fits. -/
theorem intArithmetic_modulo {a b : Int64} (h : ¬ DividesByZero ⟨.modulo, a.toInt, b.toInt⟩) :
    Number.fits (a.toInt.tmod b.toInt) = true ∧
      intArithmetic .modulo a b =
        if a.toInt = Int64.minValue.toInt ∧ b.toInt = -1 then
          .error (.typeMismatch BinaryOp.modulo.name "integer overflow")
        else checkedInt .modulo (a.toInt.tmod b.toInt) := by
  have hzero : b.toInt ≠ 0 := fun hb => h ⟨rfl, hb⟩
  have hb : b ≠ 0 := by
    rintro rfl
    exact hzero rfl
  have hquotient := Number.fits_tdiv_iff (Number.fits_toInt a) hzero
  refine ⟨Number.fits_tmod _ (Number.fits_toInt b) hzero, ?_⟩
  show (if b = 0 then Except.error EvalError.divisionByZero
    else if Number.fits (a.toInt.tdiv b.toInt) then checkedInt .modulo (a.toInt.tmod b.toInt)
    else .error (.typeMismatch BinaryOp.modulo.name "integer overflow")) = _
  rw [if_neg hb]
  by_cases hleast : a.toInt = Int64.minValue.toInt ∧ b.toInt = -1
  · rw [if_pos hleast, if_neg fun hfits => hquotient.mp hfits hleast]
  · rw [if_neg hleast, if_pos (hquotient.mpr hleast)]

theorem checkedInt_of_fits {m : Int} (h : Number.fits m = true) (op : BinaryOp) :
    ∃ n : Int64, n.toInt = m ∧ checkedInt op m = .ok (.int n) := by
  unfold checkedInt
  cases hkept : Number.int64? m with
  | some n => exact ⟨n, Number.int64?_eq_some_iff.mp hkept, rfl⟩
  | none =>
    rw [Number.int64?_eq_none_iff, h] at hkept
    cases hkept

theorem checkedInt_of_not_fits {m : Int} (h : Number.fits m = false) (op : BinaryOp) :
    checkedInt op m = .error (.typeMismatch op.name "integer overflow") := by
  unfold checkedInt
  rw [Number.int64?_eq_none_iff.mpr h]

/-- **A safe step** gives its exact result. -/
theorem intArithmetic_of_isSafe {op : IntOp} {a b : Int64}
    (h : IsSafe ⟨op, a.toInt, b.toInt⟩) :
    ∃ n : Int64, n.toInt = op.exact a.toInt b.toInt ∧
      intArithmetic op.operator a b = .ok (.int n) := by
  obtain ⟨hzero, hfits, hleast⟩ := (isSafe_iff _).mp h
  have hchecked := checkedInt_of_fits hfits op.operator
  by_cases hop : op = .modulo
  · subst hop
    rw [show intArithmetic IntOp.modulo.operator a b = _ from (intArithmetic_modulo hzero).2,
      if_neg fun hboth => hleast ⟨rfl, hboth⟩]
    exact hchecked
  · rw [intArithmetic_eq hzero hop]
    exact hchecked

/-- **Any other step** fails, and tells whether it divided by zero. -/
theorem intArithmetic_of_not_isSafe {op : IntOp} {a b : Int64}
    (h : ¬ IsSafe ⟨op, a.toInt, b.toInt⟩) :
    intArithmetic op.operator a b = .error (failure ⟨op, a.toInt, b.toInt⟩) := by
  rw [failure]
  by_cases hzero : DividesByZero ⟨op, a.toInt, b.toInt⟩
  · rw [if_pos hzero]
    obtain ⟨hdivides, hright⟩ := hzero
    obtain rfl : b = 0 := Int64.toInt_inj.mp hright
    cases op with
    | divide | modulo => rfl
    | add | subtract | multiply => cases hdivides
  · rw [if_neg hzero]
    rw [isSafe_iff] at h
    by_cases hop : op = .modulo
    · -- the result fits, so it is the quotient that does not
      subst hop
      obtain ⟨hfits, hmodulo⟩ := intArithmetic_modulo hzero
      have hleast : a.toInt = Int64.minValue.toInt ∧ b.toInt = -1 := by
        by_contra hnot
        exact h ⟨hzero, hfits, fun hboth => hnot hboth.2⟩
      rw [show intArithmetic IntOp.modulo.operator a b = _ from hmodulo, if_pos hleast]
      rfl
    · have hfits : Number.fits (op.exact a.toInt b.toInt) = false := by
        rw [← Bool.not_eq_true]
        intro hfits
        exact h ⟨hzero, hfits, fun hboth => hop hboth.1⟩
      rw [intArithmetic_eq hzero hop, checkedInt_of_not_fits hfits]

end IntStep

/-! ## Terms -/

/-- A term of whole numbers.  The type that is declared for a number does not
    matter. -/
inductive IntTerm where
  | number (n : Int64) (type : DataType)
  | apply (op : IntOp) (left right : IntTerm)

namespace IntTerm

/-- The tree of a term. -/
def toExpr : IntTerm → Expr
  | number n type       => .constant (.int n) type
  | apply op left right => .binary op.operator left.toExpr right.toExpr

/-- The value of a term over all integers. -/
def value : IntTerm → Int
  | number n _          => n.toInt
  | apply op left right => op.exact left.value right.value

/-- The steps of a term: those of the left operand, those of the right one, and
    then the operation itself on their exact values. -/
def steps : IntTerm → List IntStep
  | number ..           => []
  | apply op left right =>
    left.steps ++ right.steps ++ [{ op := op, left := left.value, right := right.value }]

/-- `t.Outcome r`: the result `r` is the exact value of the term if all steps are
    safe, and otherwise the failure of the first step that is not. -/
inductive Outcome (t : IntTerm) : Except EvalError Value → Prop
  | value (n : Int64) (hsafe : ∀ s ∈ t.steps, s.IsSafe) (hvalue : n.toInt = t.value) :
      Outcome t (.ok (.int n))
  | failure (before : List IntStep) (s : IntStep) (after : List IntStep)
      (hsteps : t.steps = before ++ s :: after) (hbefore : ∀ b ∈ before, b.IsSafe)
      (hfails : ¬ s.IsSafe) : Outcome t (.error s.failure)

variable {lib : Library} {scope : Scope}

/-- An operation looks at its left operand first. -/
theorem evalIn_apply (op : IntOp) (left right : IntTerm) :
    (apply op left right).toExpr.evalIn lib scope = (do
      let l ← left.toExpr.evalIn lib scope
      let r ← right.toExpr.evalIn lib scope
      arithmetic op.operator l r) := by
  cases op <;> rfl

theorem arithmetic_int (op : IntOp) (a b : Int64) :
    arithmetic op.operator (.int a) (.int b) = intArithmetic op.operator a b := by
  cases op <;> rfl

/-- **A whole term**, by its steps. -/
theorem evalIn_outcome (lib : Library) (scope : Scope) (t : IntTerm) :
    t.Outcome (t.toExpr.evalIn lib scope) := by
  induction t with
  | number n type => exact .value n (by simp [steps]) rfl
  | apply op left right ihleft ihright =>
    obtain ⟨last, hlast⟩ : ∃ last, (apply op left right).steps =
        left.steps ++ right.steps ++ [last] := ⟨_, rfl⟩
    rw [evalIn_apply]
    generalize left.toExpr.evalIn lib scope = l at ihleft
    generalize right.toExpr.evalIn lib scope = r at ihright
    rcases ihleft with ⟨a, hleft, ha⟩ | ⟨before, s, after, hsteps, hbefore, hfails⟩
    · rcases ihright with ⟨b, hright, hb⟩ | ⟨before, s, after, hsteps, hbefore, hfails⟩
      · -- both operands have their exact values, and the operation decides
        have hoperands : ∀ s ∈ left.steps ++ right.steps, s.IsSafe := by
          intro s hs
          rcases List.mem_append.mp hs with hs | hs
          · exact hleft s hs
          · exact hright s hs
        show (apply op left right).Outcome (arithmetic op.operator (.int a) (.int b))
        rw [arithmetic_int]
        by_cases hsafe : IntStep.IsSafe ⟨op, a.toInt, b.toInt⟩
        · obtain ⟨n, hn, heq⟩ := IntStep.intArithmetic_of_isSafe hsafe
          rw [heq]
          refine .value n ?_ (by rw [hn, ha, hb, value])
          intro s hs
          rcases List.mem_append.mp hs with hs | hs
          · exact hoperands s hs
          · rw [List.mem_singleton.mp hs, ← ha, ← hb]
            exact hsafe
        · rw [IntStep.intArithmetic_of_not_isSafe hsafe]
          refine .failure (left.steps ++ right.steps) _ [] ?_ hoperands hsafe
          rw [steps, ha, hb]
      · -- the right operand fails after all of the left one
        refine .failure (left.steps ++ before) s (after ++ [last]) ?_ ?_ hfails
        · rw [hlast, hsteps]
          simp
        · intro b hb
          rcases List.mem_append.mp hb with hb | hb
          · exact hleft b hb
          · exact hbefore b hb
    · refine .failure before s (after ++ right.steps ++ [last]) ?_ hbefore hfails
      rw [hlast, hsteps]
      simp

/-- **Whole numbers never wrap**: a term evaluates to a whole number exactly if none
    of its steps divides by zero, leaves the range, or asks for the remainder of the
    least number by `-1`, and then the number is its exact value.  Otherwise the
    failure is that of the first step that is not safe. -/
theorem eval_never_wraps (lib : Library) (scope : Scope) (t : IntTerm) :
    ((∃ n, t.toExpr.evalIn lib scope = .ok (.int n)) ↔ ∀ s ∈ t.steps, s.IsSafe) ∧
    (∀ n, t.toExpr.evalIn lib scope = .ok (.int n) → n.toInt = t.value) ∧
    ((∃ s ∈ t.steps, ¬ s.IsSafe) → ∃ before s after,
      t.steps = before ++ s :: after ∧ (∀ b ∈ before, b.IsSafe) ∧ ¬ s.IsSafe ∧
        (s.DividesByZero → t.toExpr.evalIn lib scope = .error .divisionByZero) ∧
        (¬ s.DividesByZero → t.toExpr.evalIn lib scope =
          .error (.typeMismatch s.op.operator.name "integer overflow"))) := by
  have houtcome := evalIn_outcome lib scope t
  generalize t.toExpr.evalIn lib scope = r at houtcome
  rcases houtcome with ⟨n, hsafe, hvalue⟩ | ⟨before, s, after, hsteps, hbefore, hfails⟩
  · refine ⟨⟨fun _ => hsafe, fun _ => ⟨n, rfl⟩⟩, ?_, ?_⟩
    · rintro m ⟨⟩
      exact hvalue
    · rintro ⟨s, hs, hfails⟩
      exact absurd (hsafe s hs) hfails
  · have hmem : s ∈ t.steps := by
      rw [hsteps]
      exact List.mem_append_right _ List.mem_cons_self
    refine ⟨⟨?_, fun hsafe => absurd (hsafe s hmem) hfails⟩, ?_, ?_⟩
    · rintro ⟨n, hn⟩
      cases hn
    · rintro n ⟨⟩
    · intro _
      refine ⟨before, s, after, hsteps, hbefore, hfails, ?_, ?_⟩
      · intro hzero
        rw [IntStep.failure, if_pos hzero]
      · intro hzero
        rw [IntStep.failure, if_neg hzero]

-- the sum on the left is carried out before the quotient on the right
example :
    let number := fun n => IntTerm.number n .int64
    let sum := IntTerm.apply .add (number Int64.maxValue) (number 1)
    let quotient := IntTerm.apply .divide (number 1) (number 0)
    (IntTerm.apply .add sum quotient).toExpr.eval .empty =
        .error (.typeMismatch "Add" "integer overflow") ∧
      (IntTerm.apply .add quotient sum).toExpr.eval .empty = .error .divisionByZero ∧
      (IntTerm.apply .modulo (number Int64.minValue) (number (-1))).toExpr.eval .empty =
        .error (.typeMismatch "Modulo" "integer overflow") :=
  ⟨rfl, rfl, rfl⟩

end IntTerm

end IssueSearch
