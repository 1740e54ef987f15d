import IssueSearch.Proofs.Chains

/-! # What a failure is about

    Failures are raised in many places, and each place words its own.  Whatever
    the place, a failure is about a part of the tree: either it names that part,
    or it is what computing that part came to.

    * `Writer.Composed.raises_of_error`: a writer fails only as its powers
      allow.
    * `Expr.exists_explains_of_error`: hence a tree fails only with what one of
      its parts explains.
    * `Expr.compile_names_cause`: the two kinds of failure that are about a
      part, and which part that is. -/

namespace IssueSearch

namespace Writer

variable {α : Type} {powers : Powers}

/-- **A writer fails only as its powers allow.** -/
theorem Composed.raises_of_error {w : Writer α} (h : w.Composed powers) {d f : Draft}
    {failure : SearchError} (hw : w d = .error failure f) : powers.raises failure := by
  induction h generalizing d f with
  | throw hraises =>
    cases hw
    exact hraises
  | bind _ _ ihw ihk =>
    rcases error_of_bind hw with hfirst | ⟨a, g, _, hsecond⟩
    · exact ihw hfirst
    · exact ihk a hsecond
  | node _ _ ih => exact ih (error_of_node hw)
  | capture _ _ ih => exact ih (error_of_capture hw)
  | setCount _ _ _ hraises =>
    -- only the second count of a kind is refused
    obtain ⟨rfl, _⟩ := error_of_setCount hw
    exact hraises
  | pure | push | setSeparator | nextSeparator | addFilter | addOrder => cases hw

end Writer

namespace Expr

/-- A tree fails only with what one of its parts explains. -/
theorem exists_explains_of_error {ctx : Context} {e : Expr} {failure : SearchError}
    (h : e.compile ctx = .error failure) :
    ∃ t : Expr, t.Within e ∧ t.Explains ctx failure := by
  have hparts : e.AllParts (Powers.Suffice { Powers.all with
      raises := fun failure => ∃ t : Expr, t.Within e ∧ t.Explains ctx failure } ctx) := by
    intro t ht
    exact ⟨fun _ hexplains => ⟨t, ht, hexplains⟩, fun _ => trivial, fun _ => trivial⟩
  cases hvisit : (e.operand ctx).visit .blank with
  | ok _ d =>
    rw [compile_of_visit_ok ctx hvisit] at h
    cases h
  | error failure' d =>
    rw [compile_of_visit_error ctx hvisit] at h
    cases h
    exact (e.operand_composed hparts).visit.raises_of_error hvisit

/-- **A failure names its cause.** What the search language has no words for is
    the method of a call, an operator, a constructor or a parameter that stands
    in the tree.  And a computation that failed is that of a property that is no
    searchable field, or of a constructor whose arguments are constants; it did
    not merely back off. -/
theorem compile_names_cause (ctx : Context) (e : Expr) :
    (∀ symbol reason, e.compile ctx = .error (.unsupported symbol reason) →
      (∃ target method args, (call target method args).Within e ∧ method.name = symbol) ∨
      (∃ op left right, (binary op left right).Within e ∧ op.name = symbol) ∨
      (∃ args, (construct symbol args).Within e) ∨
      (∃ param, (parameter param).Within e ∧ param.name = symbol)) ∧
    (∀ failure, e.compile ctx = .error (.evaluation failure) →
      failure.isUnsupported = false ∧
      ((∃ target p type, (member target p type).Within e ∧ ctx.fields.get? p = none ∧
          (member target p type).eval ctx.library = .error failure) ∨
        (∃ name args values, (construct name args).Within e ∧
          args.map (fun arg => arg.asConstant?.map Prod.fst) = values.map some ∧
          ctx.library.construct name values = .error failure))) := by
  constructor
  · intro symbol reason h
    obtain ⟨t, ht, hsymbol⟩ := exists_explains_of_error h
    cases t with
    | call target method args =>
      exact Or.inl ⟨target, method, args, ht, Option.some.inj hsymbol⟩
    | binary op left right =>
      exact Or.inr (Or.inl ⟨op, left, right, ht, Option.some.inj hsymbol⟩)
    | construct name args =>
      obtain rfl : name = symbol := Option.some.inj hsymbol
      exact Or.inr (Or.inr (Or.inl ⟨args, ht⟩))
    | parameter param =>
      exact Or.inr (Or.inr (Or.inr ⟨param, ht, Option.some.inj hsymbol⟩))
    | member | constant | convert | lambda | quote => cases hsymbol
  · intro failure h
    obtain ⟨t, ht, hgenuine, hcomputes⟩ := exists_explains_of_error h
    refine ⟨hgenuine, ?_⟩
    cases t with
    | member target p type =>
      exact Or.inl ⟨target, p, type, ht, hcomputes⟩
    | construct name args =>
      obtain ⟨values, hargs, hconstruct⟩ := hcomputes
      exact Or.inr ⟨name, args, values, ht, hargs, hconstruct⟩
    | call | binary | parameter | constant | convert | lambda | quote => cases hcomputes

/-- A filter by a method that the search language does not know. -/
def soundsLike : Expr :=
  Chain.toExpr
    { entity := "Issue"
      steps := [.filter (.call (some (Chain.votedItem.field "Status"))
        { name := "sounds_like", remote := false } [.ofValue (.str "open")])] }

/-- A filter by a property of a number that there is not. -/
def wholeShare : Expr :=
  Chain.toExpr
    { entity := "Issue"
      steps := [.filter (.binary .greaterThan (Chain.votedItem.field "Votes")
        (.member (.binary .divide (.ofValue (.int 1)) (.ofValue (.int 0)))
          { owner := "Share", name := "Whole" } .any))] }

theorem compile_names_cause_soundsLike_wholeShare :
    soundsLike.compile Chain.votingContext =
      .error (.unsupported "sounds_like" "method has no query-language translation") ∧
    ((∃ target method args, (call target method args).Within soundsLike ∧
        method.name = "sounds_like") ∨
      (∃ op left right, (binary op left right).Within soundsLike ∧
        BinaryOp.name op = "sounds_like") ∨
      (∃ args, (construct "sounds_like" args).Within soundsLike) ∨
      (∃ param, (parameter param).Within soundsLike ∧ param.name = "sounds_like")) ∧
    wholeShare.compile Chain.votingContext = .error (.evaluation .divisionByZero) ∧
    ((∃ target p type, (member target p type).Within wholeShare ∧
        Chain.votingContext.fields.get? p = none ∧
        (member target p type).eval Chain.votingContext.library = .error .divisionByZero) ∨
      (∃ name args values, (construct name args).Within wholeShare ∧
        args.map (fun arg => arg.asConstant?.map Prod.fst) = values.map some ∧
        Chain.votingContext.library.construct name values = .error .divisionByZero)) := by
  have hword : soundsLike.compile Chain.votingContext =
      .error (.unsupported "sounds_like" "method has no query-language translation") := rfl
  have hshare : wholeShare.compile Chain.votingContext = .error (.evaluation .divisionByZero) := rfl
  have hnamed := (compile_names_cause Chain.votingContext soundsLike).1 _ _ hword
  have hcomputed := (compile_names_cause Chain.votingContext wholeShare).2 _ hshare
  exact ⟨hword, hnamed, hshare, hcomputed.2⟩

end Expr

end IssueSearch
