import IssueSearch.Proofs.Folding

/-! # Folded forms

    What a tree looks like once it is folded.

    * `Expr.FoldForm`: a tree stays as a constant, becomes its value, or stays in
      place over the folded forms of the nodes below it.
    * `Expr.FoldsTo.part`: every part of a folded tree is the folded form of a
      part.
    * `Expr.asConstant?_of_foldsTo`: a conversion that stays in place is of a
      constant only if it was so before. -/

namespace IssueSearch.Expr

variable {lib : Library}

/-- Folding the tree yields the other one. -/
def FoldsTo (lib : Library) (e e' : Expr) : Prop :=
  ∃ r, e.fold lib = .ok r ∧ r.tree = e'

/-- Folding replaces the tree by the value: it is no constant yet, it is closed,
    and it evaluates. -/
structure ComputesTo (lib : Library) (e : Expr) (v : Value) : Prop where
  isNew    : ¬ e.IsConstant
  isClosed : e.isClosed = true
  value    : e.eval lib = .ok v

/-- What a tree becomes when it is folded. -/
inductive FoldForm (lib : Library) (e : Expr) : Expr → Prop
  | constant : e.IsConstant → FoldForm lib e e
  | value (v : Value) : e.ComputesTo lib v → FoldForm lib e (e.foldedConstant v)
  | below (cs : List Expr) : ¬ e.IsConstant → (e.isClosed = true → e.IsUnsupported lib) →
      List.Forall₂ (FoldsTo lib) e.children cs → FoldForm lib e (e.withChildren cs)

theorem FoldsTo.form {e e' : Expr} (h : e.FoldsTo lib e') : FoldForm lib e e' := by
  obtain ⟨r, hr, rfl⟩ := h
  cases foldStep_of_fold hr with
  | constant he => exact .constant he
  | value v he hclosed hv => exact .value v ⟨he, hclosed, hv⟩
  | below rs he hstays hrs =>
    refine .below _ he hstays ?_
    rw [List.forall₂_map_right_iff]
    exact hrs.imp fun c r hfold => ⟨r, hfold, rfl⟩

/-- What is beyond local evaluation is not computed. -/
theorem not_computesTo {e : Expr} (h : e.isClosed = true → e.IsUnsupported lib) (v : Value) :
    ¬ e.ComputesTo lib v := by
  intro hv
  obtain ⟨what, hwhat⟩ := h hv.isClosed
  rw [hv.value] at hwhat
  cases hwhat

/-- **Every part of a folded tree is the folded form of a part of the tree.** -/
theorem FoldsTo.part (e : Expr) :
    ∀ e' t' : Expr, e.FoldsTo lib e' → t'.Within e' →
      ∃ t : Expr, t.Within e ∧ t.FoldsTo lib t' := by
  induction e using induction_on_children with
  | step e ih =>
    intro e' t' he ht
    rcases within_iff.mp ht with rfl | ⟨c', hc', ht'⟩
    · exact ⟨e, .self, he⟩
    · cases he.form with
      | constant hconstant =>
        obtain ⟨value, type, rfl⟩ := hconstant
        cases hc'
      | value v _ => cases hc'
      | below cs _ _ hcs =>
        rw [children_withChildren hcs.length_eq] at hc'
        obtain ⟨c, hc, hfolds⟩ := exists_of_mem_of_forall₂ hcs.flip hc'
        obtain ⟨t, htc, htt'⟩ := ih c hc c' t' hfolds ht'
        exact ⟨t, .child hc htc, htt'⟩

/-- The tree has every value that its folded form has. -/
theorem FoldsTo.eval_eq {e e' : Expr} (h : e.FoldsTo lib e') {v : Value}
    (hv : e'.eval lib = .ok v) : e.eval lib = .ok v := by
  obtain ⟨r, hr, rfl⟩ := h
  exact (fold_refines e hr).value [] v hv

/-- A property that is not computed stays the same property. -/
theorem FoldsTo.of_member {target e' : Expr} {p : Property} {type : DataType}
    (h : (member target p type).FoldsTo lib e') :
    e'.IsConstant ∨ ∃ target', e' = member target' p type := by
  cases h.form with
  | constant he => exact Or.inl he
  | value v _ => exact Or.inl ⟨_, _, rfl⟩
  | below cs _ _ hcs =>
    obtain ⟨target', _, rfl⟩ := forall₂_singleton hcs
    exact Or.inr ⟨target', rfl⟩

/-! ## Conversions -/

/-- A conversion succeeds or reports a mismatch. -/
theorem convertTo_ne_unsupported (type : DataType) (v : Value) (what : String) :
    convertTo type v ≠ .error (.unsupported what) := by
  unfold convertTo convertInt
  repeat' split
  all_goals simp

/-- A conversion that yields a whole number from one yields the same. -/
theorem convertInt_eq_int {type : DataType} {n m : Int64}
    (h : convertInt type n = .ok (.int m)) : m = n := by
  unfold convertInt at h
  repeat' split at h
  all_goals simp_all

/-- A conversion that stays in place is of a constant only if it was so before:
    else it would have been carried out. -/
theorem asConstant?_of_foldsTo {operand operand' : Expr} {type : DataType}
    (h : operand.FoldsTo lib operand')
    (hstays : (convert operand type).isClosed = true → (convert operand type).IsUnsupported lib) :
    (convert operand' type).asConstant? = (convert operand type).asConstant? := by
  cases h.form with
  | constant _ => rfl
  | value v hv =>
    obtain ⟨what, hwhat⟩ := hstays hv.isClosed
    have heval : (convert operand type).eval lib = operand.eval lib >>= convertTo type := rfl
    rw [heval, hv.value] at hwhat
    exact absurd hwhat (convertTo_ne_unsupported type v what)
  | below cs hoperand _ _ =>
    rw [asConstant?_convert hoperand,
      asConstant?_convert fun hconstant => hoperand (isConstant_withChildren hconstant)]

end IssueSearch.Expr
