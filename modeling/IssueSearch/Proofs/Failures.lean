import IssueSearch.Proofs.Folding
import IssueSearch.Proofs.SessionRuns

/-! # Where folding fails

    Folding tries a closed part, and if that is beyond local evaluation it goes
    on with the parts below.  So a failure may come from far below the part
    that was tried first, through any number of parts that were left in place.

    * `Expr.FailsAt`: the way from a tree down to the part that fails.
    * `Expr.fold_eq_error_iff`: folding fails exactly if there is such a way.
    * `Expr.fold_fails_only_genuinely`: hence every failure of folding is the
      failure of a closed part, and never that of a remote call. -/

namespace IssueSearch.Expr

variable {lib : Library} {failure : EvalError}

/-! ## The operands of a node -/

/-- Operands fail to fold as the first of them that fails. -/
theorem foldArgs_eq_error_iff {es : List Expr} :
    foldArgs lib es = .error failure ↔
      ∃ before c after, es = before ++ c :: after ∧
        (∀ b ∈ before, ∃ r, b.fold lib = .ok r) ∧ c.fold lib = .error failure := by
  induction es with
  | nil => simp [foldArgs]
  | cons e rest ih =>
    rw [foldArgs]
    cases he : e.fold lib with
    | error failure' =>
      constructor
      · intro h
        cases h
        exact ⟨[], e, rest, rfl, by simp, he⟩
      · rintro ⟨before, c, after, hsplit, hbefore, hc⟩
        cases before with
        | nil =>
          obtain ⟨rfl, rfl⟩ := List.cons.inj hsplit
          rw [he] at hc
          cases hc
          rfl
        | cons b before =>
          -- nothing before the first failure fails
          obtain ⟨rfl, rfl⟩ := List.cons.inj hsplit
          obtain ⟨r, hr⟩ := hbefore e List.mem_cons_self
          rw [he] at hr
          cases hr
    | ok r =>
      have hrest : (do
          let rest ← foldArgs lib rest
          .ok (.map₂ List.cons r rest) : Except EvalError (Folded (List Expr))) = .error failure ↔
            foldArgs lib rest = .error failure := by
        cases foldArgs lib rest <;> simp [bind, Except.bind]
      refine hrest.trans (ih.trans ⟨?_, ?_⟩)
      · rintro ⟨before, c, after, rfl, hbefore, hc⟩
        refine ⟨e :: before, c, after, rfl, ?_, hc⟩
        intro b hb
        rcases List.mem_cons.mp hb with rfl | hb
        · exact ⟨r, he⟩
        · exact hbefore b hb
      · rintro ⟨before, c, after, hsplit, hbefore, hc⟩
        cases before with
        | nil =>
          obtain ⟨rfl, rfl⟩ := List.cons.inj hsplit
          rw [he] at hc
          cases hc
        | cons b before =>
          obtain ⟨rfl, rfl⟩ := List.cons.inj hsplit
          exact ⟨before, c, after, rfl, fun b' hb' => hbefore b' (List.mem_cons_of_mem _ hb'), hc⟩

/-! ## The way to a failure -/

/-- Folding leaves the node in place: it is open, or beyond local evaluation. -/
def StaysInPlace (lib : Library) (e : Expr) : Prop :=
  e.isClosed = true → e.IsUnsupported lib

/-- The node is tried, and it fails for good. -/
structure FailsItself (lib : Library) (failure : EvalError) (e : Expr) : Prop where
  closed  : e.isClosed = true
  isLocal : e.isRemoteCall = false
  eval_eq : e.eval lib = .error failure
  genuine : failure.isUnsupported = false

section Node

variable {e : Expr} {below : Unit → Except EvalError (Folded Expr)}

theorem foldNode_of_failsItself (h : e.FailsItself lib failure) :
    foldNode lib e below = .error failure := by
  have hgenuine := h.genuine
  unfold foldNode
  rw [if_pos (by simp [h.closed, h.isLocal]), h.eval_eq]
  cases failure with
  | unsupported what => cases hgenuine
  | _ => rfl

theorem foldNode_of_staysInPlace (h : e.StaysInPlace lib) : foldNode lib e below = below () := by
  unfold foldNode
  by_cases htried : (e.isClosed && !e.isRemoteCall) = true
  · rw [if_pos htried]
    rw [Bool.and_eq_true] at htried
    obtain ⟨what, hwhat⟩ := h htried.1
    rw [hwhat]
  · rw [if_neg htried]

/-- A node that does not stay in place evaluates, or fails itself. -/
theorem eval_of_not_staysInPlace (h : ¬ e.StaysInPlace lib) :
    (∃ v, foldNode lib e below = .ok { tree := e.foldedConstant v, changed := true }) ∨
      ∃ found, e.FailsItself lib found := by
  obtain ⟨hclosed, hsupported⟩ := Classical.not_imp.mp h
  -- a remote call would stay in place
  have hlocal : e.isRemoteCall = false := by
    by_contra hremote
    exact hsupported (isUnsupported_of_isRemoteCall (by simpa using hremote))
  cases heval : e.eval lib with
  | ok v =>
    refine Or.inl ⟨v, ?_⟩
    unfold foldNode
    rw [if_pos (by simp [hclosed, hlocal]), heval]
  | error found =>
    refine Or.inr ⟨found, hclosed, hlocal, heval, ?_⟩
    cases found with
    | unsupported what => exact absurd ⟨what, heval⟩ hsupported
    | _ => rfl

/-- A node that is tried fails as itself, and one that is left in place as what
    stands below it. -/
theorem foldNode_eq_error_iff :
    foldNode lib e below = .error failure ↔
      e.FailsItself lib failure ∨ e.StaysInPlace lib ∧ below () = .error failure := by
  constructor
  · intro h
    by_cases hstays : e.StaysInPlace lib
    · rw [foldNode_of_staysInPlace hstays] at h
      exact Or.inr ⟨hstays, h⟩
    · rcases eval_of_not_staysInPlace hstays with ⟨v, hv⟩ | ⟨found, hfound⟩
      · cases hv.symm.trans h
      · rw [foldNode_of_failsItself hfound] at h
        cases h
        exact Or.inl hfound
  · rintro (h | ⟨hstays, h⟩)
    · exact foldNode_of_failsItself h
    · exact (foldNode_of_staysInPlace hstays).trans h

end Node

/-- **One step**: folding fails at a node if the node is tried and fails for
    good, or if it is left in place and an operand fails. -/
theorem fold_eq_error_iff_step {e : Expr} :
    e.fold lib = .error failure ↔
      e.FailsItself lib failure ∨
        e.StaysInPlace lib ∧ foldArgs lib e.children = .error failure := by
  by_cases he : e.IsConstant
  · -- a constant is never tried, and it would not fail if it were
    obtain ⟨value, type, rfl⟩ := he
    constructor
    · intro h
      cases h
    · rintro (⟨hclosed, _, heval, _⟩ | ⟨_, hargs⟩)
      · cases value with
        | source entity => cases hclosed
        | _ => cases heval
      · cases hargs
  · have hbelow : foldBelow lib e = .error failure ↔ foldArgs lib e.children = .error failure := by
      unfold foldBelow
      cases foldArgs lib e.children <;> simp [bind, Except.bind]
    rw [fold_eq e he, foldNode_eq_error_iff, hbelow]

/-- The way from a tree down to the part whose failure makes folding fail. -/
inductive FailsAt (lib : Library) (failure : EvalError) : Expr → Prop
  /-- A closed part is tried, and fails for good. -/
  | here {e : Expr} : e.FailsItself lib failure → FailsAt lib failure e
  /-- A part is left in place, and of what lies below it this is the first that
      fails. -/
  | deeper {e c : Expr} {before after : List Expr} : e.StaysInPlace lib →
      e.children = before ++ c :: after → (∀ b ∈ before, ∃ r, b.fold lib = .ok r) →
      FailsAt lib failure c → FailsAt lib failure e

/-- **Whole trees**: folding fails exactly if there is a way to a part that
    fails. -/
theorem fold_eq_error_iff (e : Expr) : e.fold lib = .error failure ↔ FailsAt lib failure e := by
  induction e using induction_on_children with
  | step e ih =>
    rw [fold_eq_error_iff_step]
    constructor
    · rintro (h | ⟨hstays, hargs⟩)
      · exact .here h
      · obtain ⟨before, c, after, hsplit, hbefore, hc⟩ := foldArgs_eq_error_iff.mp hargs
        have hmem : c ∈ e.children := by simp [hsplit]
        exact .deeper hstays hsplit hbefore ((ih c hmem).mp hc)
    · intro h
      cases h with
      | here h => exact Or.inl h
      | @deeper _ c before after hstays hsplit hbefore hc =>
        have hmem : c ∈ e.children := by simp [hsplit]
        refine Or.inr ⟨hstays, foldArgs_eq_error_iff.mpr ?_⟩
        exact ⟨before, c, after, hsplit, hbefore, (ih c hmem).mpr hc⟩

/-- At the end of the way is a part that fails itself. -/
theorem FailsAt.exists_part {e : Expr} (h : FailsAt lib failure e) :
    ∃ part : Expr, part.Within e ∧ part.FailsItself lib failure := by
  induction h with
  | here h => exact ⟨_, .self, h⟩
  | deeper _ hsplit _ _ ih =>
    obtain ⟨part, hpart, hfails⟩ := ih
    exact ⟨part, .child (by simp [hsplit]) hpart, hfails⟩

/-! ## Failures of folding -/

/-- **Folding fails only for genuine failures.**  A failure of folding, which a
    session reports as a failed evaluation, is not merely beyond local
    evaluation.  It is what some part without a parameter and without a remote
    collection evaluates to.  Where all these parts have a value or are beyond
    local evaluation, folding succeeds.  And a remote call fails to fold only
    as one of its operands does. -/
theorem fold_fails_only_genuinely (lib : Library) (e : Expr) :
    (∀ failure, e.fold lib = .error failure →
      failure.isUnsupported = false ∧
      (∃ part : Expr, part.Within e ∧ part.IsSelfContained ∧ part.isRemoteCall = false ∧
        part.eval lib = .error failure) ∧
      ∀ (setup : SessionSetup) (s : Session), setup.library = lib →
        s.prepare setup e = (.error (.search (.evaluation failure)), s)) ∧
    ((∀ part : Expr, part.Within e → part.IsSelfContained →
        (∃ v, part.eval lib = .ok v) ∨ part.IsUnsupported lib) →
      ∃ r, e.fold lib = .ok r) ∧
    (e.isRemoteCall = true → ∀ failure, e.fold lib = .error failure →
      ∃ c ∈ e.children, c.fold lib = .error failure) := by
  refine ⟨fun failure h => ?_, fun hparts => ?_, fun hremote failure h => ?_⟩
  · obtain ⟨part, hpart, hfails⟩ := ((fold_eq_error_iff e).mp h).exists_part
    refine ⟨hfails.genuine, ⟨part, hpart, (isClosed_iff part).mp hfails.closed, hfails.isLocal,
      hfails.eval_eq⟩, ?_⟩
    rintro setup s rfl
    exact Session.prepare_of_fold_error h s
  · cases hfold : e.fold lib with
    | ok r => exact ⟨r, rfl⟩
    | error failure =>
      obtain ⟨part, hpart, hfails⟩ := ((fold_eq_error_iff e).mp hfold).exists_part
      have heval := hfails.eval_eq
      rcases hparts part hpart ((isClosed_iff part).mp hfails.closed) with ⟨v, hv⟩ | ⟨what, hwhat⟩
      · cases hv.symm.trans heval
      · obtain rfl : .unsupported what = failure := Except.error.inj (hwhat.symm.trans heval)
        cases hfails.genuine
  · rcases fold_eq_error_iff_step.mp h with hfails | ⟨_, hargs⟩
    · -- a remote call is never tried
      cases hremote.symm.trans hfails.isLocal
    · obtain ⟨before, c, after, hsplit, _, hc⟩ := foldArgs_eq_error_iff.mp hargs
      exact ⟨c, by simp [hsplit], hc⟩

/-- The members of a group whose number is off by a division by zero. -/
def membersOfQuotient : Expr :=
  call none { name := "members_of", remote := true }
    [binary .add (parameter { name := "n", type := .int64 })
      (binary .divide (ofValue (.int 1)) (ofValue (.int 0)))]

/-- Neither the remote call nor the open sum is tried; the quotient below them
    is, and fails. -/
theorem fold_fails_only_genuinely_membersOfQuotient :
    membersOfQuotient.fold .standard = .error .divisionByZero ∧
      (∃ part : Expr, part.Within membersOfQuotient ∧ part.IsSelfContained ∧
        part.isRemoteCall = false ∧ part.eval .standard = .error .divisionByZero) ∧
      ∃ c ∈ membersOfQuotient.children, c.fold .standard = .error .divisionByZero := by
  have hfails := fold_fails_only_genuinely .standard membersOfQuotient
  exact ⟨rfl, (hfails.1 _ rfl).2.1, hfails.2.2 rfl _ rfl⟩

end IssueSearch.Expr
