import IssueSearch.Proofs.Sequences
import IssueSearch.Eval.Meaning

/-! # Conversions to narrow whole numbers

    A type of sixteen or thirty-two bits holds some of the whole numbers only.  A
    whole number is converted to such a type if it is one of them, and is refused
    if it is not.  A floating-point number is cut to a whole one, and that one is
    not asked whether it fits.

    * `NarrowInt`: the narrow types and their ranges.
    * `NarrowInt.contains_truncate_iff`: which floating-point numbers are cut to a
      number of the range.
    * `NarrowInt.convertTo_int`, `NarrowInt.convertTo_float`,
      `NarrowInt.convertTo_other`: one conversion, by the kind of value.
    * `Expr.evalIn_convert_eq_int_iff`: which operands are converted to a given
      whole number.
    * `Expr.convert_keeps_range_iff`: for which operands the result is in the range
      and can be converted again. -/

namespace IssueSearch

/-! ## Narrow types -/

/-- A narrow whole-number type. -/
inductive NarrowInt where
  | int16
  | int32
deriving DecidableEq

namespace NarrowInt

/-- The type as it is declared. -/
def type : NarrowInt → DataType
  | int16 => .int16
  | int32 => .int32

/-- The least number of the type. -/
def least : NarrowInt → Int
  | int16 => Int16.minValue.toInt
  | int32 => Int32.minValue.toInt

/-- The greatest number of the type. -/
def greatest : NarrowInt → Int
  | int16 => Int16.maxValue.toInt
  | int32 => Int32.maxValue.toInt

/-- `w.Contains n`: the number is one of the type. -/
def Contains (w : NarrowInt) (n : Int) : Prop :=
  w.least ≤ n ∧ n ≤ w.greatest

instance (w : NarrowInt) (n : Int) : Decidable (w.Contains n) :=
  inferInstanceAs (Decidable (_ ∧ _))

/-- The numbers of a narrow type lie well inside 64 bits. -/
theorem least_greatest (w : NarrowInt) :
    Int64.minValue.toInt < w.least ∧ w.least ≤ 0 ∧ 0 ≤ w.greatest ∧
      w.greatest < Int64.maxValue.toInt := by
  cases w <;> decide

end NarrowInt

/-! ## Whole parts -/

namespace Number

/-- The whole part of a finite number, cut toward zero. -/
def wholePart (x : Float) : Int :=
  let whole : Int := (magnitude x / Nat.pow 2 1074 : Nat)
  if isNegative x then -whole else whole

theorem isNaN_of_isFinite {x : Float} (h : isFinite x = true) : isNaN x = false := by
  have hexponent : exponentField x < 2047 := of_decide_eq_true h
  have hbelow : (exponentField x == 2047) = false :=
    beq_eq_false_iff_ne.mpr (Nat.ne_of_lt hexponent)
  rw [isNaN, hbelow, Bool.false_and]

theorem truncate_of_isNaN {x : Float} (h : isNaN x = true) : truncate x = 0 :=
  if_pos h

/-- A finite number is cut, and clamped to 64 bits. -/
theorem truncate_of_isFinite {x : Float} (h : isFinite x = true) :
    truncate x =
      if wholePart x < Int64.minValue.toInt then Int64.minValue
      else if Int64.maxValue.toInt < wholePart x then Int64.maxValue
      else Int64.ofInt (wholePart x) := by
  unfold truncate
  rw [isNaN_of_isFinite h, h]
  rfl

/-- An infinite number is clamped. -/
theorem truncate_of_infinite {x : Float} (hnan : isNaN x = false) (hfinite : isFinite x = false) :
    truncate x = if isNegative x then Int64.minValue else Int64.maxValue := by
  unfold truncate
  rw [hnan, hfinite]
  rfl

end Number

namespace NarrowInt

/-- Clamping to 64 bits brings no number into a narrow range: what a floating-point
    number is cut to is in the range exactly if its whole part is.  NaN counts as
    zero, and an infinite number is in no range. -/
theorem contains_truncate_iff (w : NarrowInt) (x : Float) :
    w.Contains (Number.truncate x).toInt ↔
      Number.isNaN x = true ∨ (Number.isFinite x = true ∧ w.Contains (Number.wholePart x)) := by
  obtain ⟨hleast, hnegative, hpositive, hgreatest⟩ := w.least_greatest
  by_cases hnan : Number.isNaN x = true
  · have hzero : (0 : Int64).toInt = 0 := rfl
    rw [Number.truncate_of_isNaN hnan, hzero]
    exact iff_of_true ⟨hnegative, hpositive⟩ (Or.inl hnan)
  · by_cases hfinite : Number.isFinite x = true
    · have hclamped : w.Contains (Number.truncate x).toInt ↔ w.Contains (Number.wholePart x) := by
        rw [Number.truncate_of_isFinite hfinite]
        unfold Contains
        -- a number that is clamped is outside before and after
        split
        · omega
        · split
          · omega
          · have hlow : Int64.minValue.toInt ≤ Number.wholePart x := by omega
            have hhigh : Number.wholePart x ≤ Int64.maxValue.toInt := by omega
            rw [Int64.toInt_ofInt_of_le hlow (Int.lt_of_le_sub_one hhigh)]
      rw [hclamped]
      simp [hnan, hfinite]
    · have houtside : ¬ w.Contains (Number.truncate x).toInt := by
        rw [Number.truncate_of_infinite (by simpa using hnan) (by simpa using hfinite)]
        unfold Contains
        split <;> omega
      exact iff_of_false houtside (by simp [hnan, hfinite])

/-! ## One conversion -/

section Conversion

-- the type is the narrow one, or says that the value may be absent as well
variable {w : NarrowInt} {type : DataType} (htype : type.underlying = w.type)

include htype

/-- A whole number is asked whether it fits. -/
theorem convertTo_int (n : Int64) :
    convertTo type (.int n) =
      if w.Contains n.toInt then .ok (.int n)
      else .error (.typeMismatch "convert"
        (Number.intText n.toInt ++ " does not fit " ++ narrowName type)) := by
  show convertInt type n = _
  unfold convertInt
  rw [htype]
  cases w with
  | int16 => rfl
  | int32 => rfl

/-- A floating-point number is cut to its whole part, which is not asked. -/
theorem convertTo_float (x : Float) :
    convertTo type (.float x) = .ok (.int (Number.truncate x)) := by
  have hinteger : type.isInteger = true := by
    rw [DataType.isInteger, htype]
    cases w <;> rfl
  exact if_pos hinteger

/-- Any other value stays as it is, and so does the absent one. -/
theorem convertTo_other {v : Value} (hint : ∀ n, v ≠ .int n) (hfloat : ∀ x, v ≠ .float x) :
    convertTo type v = .ok v := by
  have hstring : ¬ type.isString = true := by
    rw [DataType.isString, htype]
    cases w <;> decide
  cases v with
  | null => rfl
  | int n => exact absurd rfl (hint n)
  | float x => exact absurd rfl (hfloat x)
  | _ => exact if_neg hstring

/-- What is converted to a whole number is that number, if it fits, or any
    floating-point number of that whole part. -/
theorem convertTo_eq_int_iff {v : Value} {n : Int64} :
    convertTo type v = .ok (.int n) ↔
      (v = .int n ∧ w.Contains n.toInt) ∨ ∃ x, v = .float x ∧ Number.truncate x = n := by
  constructor
  · intro h
    cases v with
    | int m =>
      rw [convertTo_int htype] at h
      by_cases hrange : w.Contains m.toInt
      · rw [if_pos hrange] at h
        cases h
        exact Or.inl ⟨rfl, hrange⟩
      · rw [if_neg hrange] at h
        cases h
    | float x =>
      rw [convertTo_float htype] at h
      cases h
      exact Or.inr ⟨x, rfl, rfl⟩
    | _ =>
      rw [convertTo_other htype (by simp) (by simp)] at h
      cases h
  · rintro (⟨rfl, hrange⟩ | ⟨x, rfl, rfl⟩)
    · rw [convertTo_int htype, if_pos hrange]
    · exact convertTo_float htype x

end Conversion

end NarrowInt

/-! ## Conversions in trees -/

namespace Expr

section Narrow

variable {lib : Library} {scope : Scope} {e : Expr} {w : NarrowInt} {type : DataType}

/-- The same of a conversion node and its operand. -/
theorem evalIn_convert_eq_int_iff (htype : type.underlying = w.type) {n : Int64} :
    (convert e type).evalIn lib scope = .ok (.int n) ↔
      (e.evalIn lib scope = .ok (.int n) ∧ w.Contains n.toInt) ∨
        ∃ x, e.evalIn lib scope = .ok (.float x) ∧ Number.truncate x = n := by
  have hconvert : (convert e type).evalIn lib scope = e.evalIn lib scope >>= convertTo type := rfl
  rw [hconvert, bind_eq_ok]
  constructor
  · rintro ⟨v, hv, hn⟩
    rcases (NarrowInt.convertTo_eq_int_iff htype).mp hn with ⟨rfl, hrange⟩ | ⟨x, rfl, hx⟩
    · exact Or.inl ⟨hv, hrange⟩
    · exact Or.inr ⟨x, hv, hx⟩
  · rintro (⟨hv, hrange⟩ | ⟨x, hv, hx⟩)
    · exact ⟨_, hv, (NarrowInt.convertTo_eq_int_iff htype).mpr (Or.inl ⟨rfl, hrange⟩)⟩
    · exact ⟨_, hv, (NarrowInt.convertTo_eq_int_iff htype).mpr (Or.inr ⟨x, rfl, hx⟩)⟩

end Narrow

/-- **Narrow conversions and their range**: a conversion to a narrow type, or to one
    that may be absent, yields whole numbers of its range only, which are the same
    when they are converted again, exactly if its operand is no infinite number and
    no floating-point number with a whole part outside the range. -/
theorem convert_keeps_range_iff (lib : Library) (scope : Scope) (e : Expr) {w : NarrowInt}
    {type : DataType} (htype : type.underlying = w.type) :
    (∀ n, (convert e type).evalIn lib scope = .ok (.int n) →
      w.Contains n.toInt ∧
        (convert (convert e type) type).evalIn lib scope = .ok (.int n)) ↔
      ∀ x, e.evalIn lib scope = .ok (.float x) →
        Number.isNaN x = true ∨ (Number.isFinite x = true ∧ w.Contains (Number.wholePart x)) := by
  constructor
  · intro h x hx
    have hcut : (convert e type).evalIn lib scope = .ok (.int (Number.truncate x)) :=
      (evalIn_convert_eq_int_iff htype).mpr (Or.inr ⟨x, hx, rfl⟩)
    exact (w.contains_truncate_iff x).mp (h _ hcut).1
  · intro h n hn
    have hrange : w.Contains n.toInt := by
      rcases (evalIn_convert_eq_int_iff htype).mp hn with ⟨-, hrange⟩ | ⟨x, hx, rfl⟩
      · exact hrange
      · exact (w.contains_truncate_iff x).mpr (h x hx)
    exact ⟨hrange, (evalIn_convert_eq_int_iff htype).mpr (Or.inl ⟨hn, hrange⟩)⟩

/-- Half of a parameter. -/
def halfShare : Expr :=
  binary .divide (parameter { name := "share", type := .float }) (constant (.int 2) .int64)

theorem convert_keeps_range_halfShare :
    let scope : Scope := [("share", .float 65535)]
    let narrowed := convert halfShare (.nullable .int16)
    (DataType.nullable .int16).underlying = NarrowInt.int16.type ∧
    narrowed.evalIn .empty scope = .ok (.int 32767) ∧
    NarrowInt.int16.Contains 32767 ∧
    (convert narrowed (.nullable .int16)).evalIn .empty scope = .ok (.int 32767) := by
  intro scope narrowed
  have hshare : halfShare.evalIn .empty scope = .ok (.float (65535 / Number.ofInt64 2)) := rfl
  -- the whole part is the greatest number of the type
  have hcut : Number.truncate (65535 / Number.ofInt64 2) = 32767 := by decide +kernel
  have hnarrowed : narrowed.evalIn .empty scope = .ok (.int 32767) :=
    (evalIn_convert_eq_int_iff (w := .int16) rfl).mpr (Or.inr ⟨_, hshare, hcut⟩)
  have hwhole : ∀ x, halfShare.evalIn .empty scope = .ok (.float x) → Number.isNaN x = true ∨
      (Number.isFinite x = true ∧ NarrowInt.int16.Contains (Number.wholePart x)) := by
    intro x hx
    rw [hshare] at hx
    cases hx
    rw [← NarrowInt.contains_truncate_iff, hcut]
    decide
  obtain ⟨hrange, hagain⟩ :=
    (convert_keeps_range_iff .empty scope halfShare (w := .int16) rfl).mpr hwhole _ hnarrowed
  exact ⟨rfl, hnarrowed, hrange, hagain⟩

/-- **Floating-point numbers are not narrowed**: one with a whole part outside the
    range is converted without a failure, and what it is converted to is refused. -/
theorem float_is_not_narrowed :
    let cut := convert (constant (.float 70000.5) .float) .int16
    cut.eval .empty = .ok (.int 70000) ∧
      ¬ NarrowInt.int16.Contains 70000 ∧
      (convert cut .int16).eval .empty =
        .error (.typeMismatch "convert" "70000 does not fit Int16") := by
  intro cut
  have hcut : Number.truncate 70000.5 = 70000 := by decide +kernel
  have heval : cut.eval .empty = .ok (.int 70000) :=
    (evalIn_convert_eq_int_iff (w := .int16) rfl).mpr (Or.inr ⟨_, rfl, hcut⟩)
  have hagain : (convert cut .int16).eval .empty = cut.eval .empty >>= convertTo .int16 := rfl
  refine ⟨heval, by decide, ?_⟩
  rw [hagain, heval]
  rfl

end Expr

end IssueSearch
