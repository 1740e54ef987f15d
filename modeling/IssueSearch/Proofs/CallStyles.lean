import IssueSearch.Proofs.Chains
import IssueSearch.Proofs.Congruence
import IssueSearch.Proofs.Folding

/-! # The style of a call does not matter

    A call may name its first operand apart, as the target it is called on, or
    list it with the others.  `Expr.toStatic` writes every call of a tree the
    second way.

    * `Expr.meaning_toStatic`: the tree means the same.
    * `Expr.fold_toStatic`: folding it is folding the tree.
    * `Expr.related_toStatic`: it is written by the same writers.  Only a
      restriction counts its operands to tell whether the first of them is the
      predicate it applies to, so one with a target has to have all its bounds.
    * `Expr.toStatic_interchangeable`: all three together. -/

namespace IssueSearch

/-! ## Trees without targets -/

namespace Expr

mutual

/-- The tree with the target of every call as its first operand. -/
def toStatic : Expr → Expr
  | binary op left right => binary op left.toStatic right.toStatic
  | call target method args => call none method (targetToStatic target ++ argsToStatic args)
  | member target p type => member target.toStatic p type
  | constant value type => constant value type
  | convert operand type => convert operand.toStatic type
  | construct name args => construct name (argsToStatic args)
  | lambda params body => lambda params body.toStatic
  | parameter param => parameter param
  | quote operand => quote operand.toStatic

/-- The same of the target of a call, if it has one. -/
def targetToStatic : Option Expr → List Expr
  | none        => []
  | some target => [target.toStatic]

/-- The same of all operands. -/
def argsToStatic : List Expr → List Expr
  | []          => []
  | arg :: rest => arg.toStatic :: argsToStatic rest

end

theorem argsToStatic_eq (args : List Expr) : argsToStatic args = args.map toStatic := by
  induction args with
  | nil => rfl
  | cons arg rest ih => rw [argsToStatic, ih, List.map_cons]

/-- The operands of a call are the operands it had before, in the same order. -/
theorem toStatic_call (target : Option Expr) (method : Method) (args : List Expr) :
    (call target method args).toStatic =
      call none method ((operands target args).map toStatic) := by
  cases target with
  | none => simp only [toStatic, targetToStatic, argsToStatic_eq, operands, Option.toList,
      List.nil_append]
  | some t => simp only [toStatic, targetToStatic, argsToStatic_eq, operands, Option.toList,
      List.singleton_append, List.map_cons]

theorem toStatic_construct (name : String) (args : List Expr) :
    (construct name args).toStatic = construct name (args.map toStatic) := by
  rw [toStatic, argsToStatic_eq]

/-- What lies below a node is what lay below it before. -/
theorem children_toStatic (e : Expr) : e.toStatic.children = e.children.map toStatic := by
  cases e with
  | call target method args =>
    rw [toStatic_call]
    rfl
  | construct name args =>
    rw [toStatic_construct]
    rfl
  | _ => rfl

/-- A node with other nodes below it, written without targets. -/
theorem toStatic_withChildren {e : Expr} {cs : List Expr} (h : e.children.length = cs.length) :
    (e.withChildren cs).toStatic = e.toStatic.withChildren (cs.map toStatic) := by
  cases e with
  | call target method args =>
    -- the new nodes are shared out between target and operands as before
    obtain ⟨target', args', hcall, hcs, _⟩ := withChildren_call method h
    rw [hcall, toStatic_call, toStatic_call, hcs]
    rfl
  | construct name args =>
    rw [toStatic_construct]
    exact toStatic_construct name cs
  | binary op left right =>
    obtain ⟨l, r, rfl⟩ := List.length_eq_two.mp h.symm
    rfl
  | constant value type => rfl
  | parameter param => rfl
  | member _ _ _ | convert _ _ | lambda _ _ | quote _ =>
    obtain ⟨c, rfl⟩ := List.length_eq_one_iff.mp h.symm
    rfl

/-! ## What is seen of a node -/

theorem isConstant_toStatic {e : Expr} (h : e.toStatic.IsConstant) : e.IsConstant := by
  obtain ⟨value, type, heq⟩ := h
  cases e with
  | constant value' type' => exact ⟨value', type', rfl⟩
  | _ => cases heq

theorem asConstant?_toStatic (e : Expr) : e.toStatic.asConstant? = e.asConstant? := by
  cases e with
  | convert operand type => cases operand <;> rfl
  | _ => rfl

theorem staticType_toStatic (e : Expr) : e.toStatic.staticType = e.staticType := by
  induction e using induction_on_children with
  | step e ih =>
    cases e with
    | quote operand => exact ih operand (by simp [children])
    | _ => rfl

theorem isClosed_toStatic (e : Expr) : e.toStatic.isClosed = e.isClosed := by
  induction e using induction_on_children with
  | step e ih =>
    -- closed is what is neither a parameter nor a source, over closed nodes
    have hself : ((∀ param, e.toStatic ≠ parameter param) ∧
        ∀ entity type, e.toStatic ≠ constant (.source entity) type) ↔
        ((∀ param, e ≠ parameter param) ∧ ∀ entity type, e ≠ constant (.source entity) type) := by
      cases e with
      | constant value type => exact Iff.rfl
      | parameter param => exact Iff.rfl
      | _ => simp [toStatic]
    have hbelow : (∀ c ∈ e.toStatic.children, c.isClosed = true) ↔
        ∀ c ∈ e.children, c.isClosed = true := by
      rw [children_toStatic, List.forall_mem_map]
      exact forall₂_congr fun c hc => by rw [ih c hc]
    rw [Bool.eq_iff_iff, isClosed_iff_children, isClosed_iff_children, hself, hbelow]

theorem isRemoteCall_toStatic (e : Expr) : e.toStatic.isRemoteCall = e.isRemoteCall := by
  cases e <;> rfl

/-! ## Evaluation and folding -/

/-- **A tree means the same without targets.** -/
theorem meaning_toStatic (lib : Library) (e : Expr) : e.toStatic.meaning lib = e.meaning lib := by
  induction e using induction_on_children with
  | step e ih =>
    have hall : ∀ es : List Expr, (∀ c ∈ es, c.toStatic.meaning lib = c.meaning lib) →
        (es.map toStatic).map (meaning lib) = es.map (meaning lib) := by
      intro es hes
      rw [List.map_map]
      exact List.map_congr_left hes
    cases e with
    | binary op left right =>
      simp only [toStatic, meaning, ih left (by simp [children]), ih right (by simp [children])]
    | call target method args =>
      rw [toStatic_call]
      simp only [meaning, operandsMeaning_eq]
      -- the operands of a call are the nodes below it, in either style
      exact congrArg (Meaning.call lib method) (hall (operands target args) ih)
    | construct name args =>
      rw [toStatic_construct]
      simp only [meaning, argsMeaning_eq, hall args ih]
    | member c _ _ | convert c _ | lambda _ c | quote c =>
      simp only [toStatic, meaning, ih c (by simp [children])]
    | constant value type => rfl
    | parameter param => rfl

theorem eval_toStatic (lib : Library) (e : Expr) : e.toStatic.eval lib = e.eval lib := by
  unfold eval evalIn
  rw [meaning_toStatic]

theorem foldArgs_toStatic {lib : Library} {es : List Expr}
    (h : ∀ e ∈ es, e.toStatic.fold lib = (e.fold lib).map (Folded.map toStatic)) :
    foldArgs lib (es.map toStatic) =
      (foldArgs lib es).map (Folded.map (List.map toStatic)) := by
  induction es with
  | nil => rfl
  | cons e rest ih =>
    have hrest := ih fun c hc => h c (List.mem_cons_of_mem e hc)
    simp only [List.map_cons, foldArgs, h e List.mem_cons_self, hrest]
    cases e.fold lib with
    | error failure => rfl
    | ok r => cases foldArgs lib rest <;> rfl

/-- **Folding a tree without targets** is folding the tree. -/
theorem fold_toStatic (lib : Library) (e : Expr) :
    e.toStatic.fold lib = (e.fold lib).map (Folded.map toStatic) := by
  induction e using induction_on_children with
  | step e ih =>
    by_cases he : e.IsConstant
    · obtain ⟨value, type, rfl⟩ := he
      rfl
    · -- what is folded below the node, and what the node itself is folded to
      have hbelow : foldBelow lib e.toStatic = (foldBelow lib e).map (Folded.map toStatic) := by
        unfold foldBelow
        rw [children_toStatic, foldArgs_toStatic ih]
        cases hargs : foldArgs lib e.children with
        | error failure => rfl
        | ok r =>
          obtain ⟨rs, hrs, rfl⟩ := foldArgs_ok hargs
          have hnode := toStatic_withChildren (length_folded hrs)
          simp only [Except.map, bind, Except.bind, Folded.map, hnode]
      have hconstant : ∀ v, e.toStatic.foldedConstant v = e.foldedConstant v := by
        intro v
        unfold foldedConstant
        rw [staticType_toStatic]
      rw [fold_eq e he, fold_eq e.toStatic fun h => he (isConstant_toStatic h)]
      unfold foldNode
      rw [isClosed_toStatic, isRemoteCall_toStatic, eval_toStatic, hbelow]
      split
      · split
        · simp only [Except.map, Folded.map, hconstant]
          rfl
        · rfl
        · rfl
      · rfl

end Expr

/-! ## Writing -/

/-- The writers of one node are equal if those of its operands are. -/
theorem Writer.eq_congruence : Writer.Congruence fun {α} (w w' : Writer α) => w = w' where
  pure _ := rfl
  throw _ := rfl
  bind := by
    rintro α β w w' k k' rfl hk
    rw [funext hk]
  push _ := rfl
  setSeparator _ := rfl
  nextSeparator := rfl
  node _ := by
    rintro w w' rfl
    rfl
  capture := by
    rintro w w' rfl
    rfl
  addFilter _ := rfl
  addOrder _ _ _ := rfl

namespace Expr

/-- A restriction that is called on the predicate it applies to has all its
    bounds. -/
def HasBounds : Expr → Prop
  | call (some _) method args =>
    ∀ q : Qualifier, method = { name := q.name, remote := false } → q.arity ≤ args.length
  | _ => True

/-- So do all restrictions in the tree. -/
def HasAllBounds (e : Expr) : Prop :=
  e.AllParts HasBounds

section Operands

variable (ctx : Context)

theorem value?_toStatic (e : Expr) : (e.toStatic.operand ctx).value? = (e.operand ctx).value? := by
  simp only [Operand.value?, operand_expr, asConstant?_toStatic]

theorem title?_toStatic (es : List Expr) : title? (es.map toStatic) = title? es := by
  unfold title?
  rw [List.findSome?_map]
  congr 1
  funext e
  simp only [Function.comp_apply, asConstant?_toStatic]

theorem resolve_toStatic (fields : FieldTable) (e : Expr) :
    fields.resolve e.toStatic = fields.resolve e := by
  cases e with
  | convert operand type =>
    cases operand with
    | call target method args => rfl
    | _ => rfl
  | call target method args =>
    have htitle : title? (operands none ((operands target args).map toStatic)) =
        title? (operands target args) := title?_toStatic _
    rw [toStatic_call]
    simp only [FieldTable.resolve, htitle]
    rfl
  | _ => rfl

theorem constants?_toStatic (es : List Expr) :
    Writer.constants? ((es.map toStatic).map (operand ctx)) =
      Writer.constants? (es.map (operand ctx)) := by
  induction es with
  | nil => rfl
  | cons e rest ih => simp only [List.map_cons, Writer.constants?, value?_toStatic, ih]

/-- Paging sees what it is applied to, and its count. -/
theorem pagingStep_toStatic (name : String) (slot : PageSlot) {es : List Expr}
    (h : ∀ e ∈ es, (e.operand ctx).visit = (e.toStatic.operand ctx).visit) :
    Writer.pagingStep name slot (es.map (operand ctx)) =
      Writer.pagingStep name slot ((es.map toStatic).map (operand ctx)) := by
  cases es with
  | nil => rfl
  | cons source rest =>
    have hsource := h source List.mem_cons_self
    have hcount : Writer.pageCount name ((rest.map toStatic).map (operand ctx)) =
        Writer.pageCount name (rest.map (operand ctx)) := by
      cases rest with
      | nil => rfl
      | cons count more =>
        simp only [Writer.pageCount, List.map_cons, List.head?_cons, Option.bind_some,
          Writer.count?, value?_toStatic]
    simp only [Writer.pagingStep, Writer.receiver, List.map_cons, pure_bind, hsource, hcount]

/-- Where a restriction has all its bounds, its first operand is what it
    applies to, whether it is called on it or not. -/
theorem call_hasTarget {method : Method} {target : Option Expr} {args : List Expr}
    (h : (call target method args).HasBounds) :
    Writer.call method target.isSome ((operands target args).map (operand ctx)) =
      Writer.call method false ((operands target args).map (operand ctx)) := by
  cases target with
  | none => rfl
  | some t =>
    unfold Writer.call
    by_cases hremote : method.remote = true
    · rw [if_pos hremote, if_pos hremote]
    · rw [if_neg hremote, if_neg hremote]
      split
      -- only a restriction looks at the style
      case h_5 q hrole =>
        have hname : q.name = method.name := Role.eq_of_name? (by rw [hrole]; rfl)
        have hmethod : method = { name := q.name, remote := false } := by
          rw [hname, ← Bool.eq_false_iff.mpr hremote]
        have harity : q.arity ≤ (args.map (operand ctx)).length := by
          rw [List.length_map]
          exact h q hmethod
        simp only [Writer.qualifier, Writer.splitSubject, operands, Option.toList,
          List.singleton_append, List.map_cons, Option.isSome_some, if_true,
          harity, decide_true, Bool.or_true]
      all_goals rfl

/-- A call sees the same in operands that are written without targets. -/
theorem call_toStatic (method : Method) (es : List Expr)
    (h : ∀ e ∈ es, (e.operand ctx).Related (fun {α} (w w' : Writer α) => w = w')
      (e.toStatic.operand ctx)) :
    Writer.call method false (es.map (operand ctx)) =
      Writer.call method false ((es.map toStatic).map (operand ctx)) := by
  have hR := Writer.eq_congruence
  have hpaired : ∀ cs : List Expr, (∀ c ∈ cs, c ∈ es) →
      List.Forall₂ (Operand.Related fun {α} (w w' : Writer α) => w = w')
        (cs.map (operand ctx)) ((cs.map toStatic).map (operand ctx)) := by
    intro cs hcs
    rw [List.map_map, List.forall₂_map_left_iff, List.forall₂_map_right_iff]
    exact List.forall₂_same.mpr fun c hc => h c (hcs c hc)
  have hoperands := hpaired es fun _ hc => hc
  -- what a call reads of its operands besides writing them: the title of a
  -- field, the count of a paging step, the items of a list, a past value
  refine hR.call method false (method.forall₂_written hoperands) ?_ ?_ ?_ ?_
  · intro _ _
    have hexprs : ∀ cs : List Expr, (cs.map (operand ctx)).map Operand.expr = cs := by
      intro cs
      simp only [List.map_map, Function.comp_def, operand_expr, List.map_id']
    rw [hexprs, hexprs, title?_toStatic]
  · intro _ op _ _ slot
    exact pagingStep_toStatic ctx method.name slot fun c hc => (h c hc).visit
  · intro _ m _
    refine hR.membership m hoperands ?_ ?_
    · -- an item is a literal in either style
      rw [← List.map_tail, ← List.map_tail, ← List.map_tail]
      refine forall₂_and_of_map_eq (hpaired _ fun c hc => List.mem_of_mem_tail hc) ?_
      simp only [List.map_map, Function.comp_def, value?_toStatic]
    · simp only [← List.map_tail, List.all_map, Function.comp_def, Operand.isEmptyList,
        value?_toStatic]
  · intro _ past _
    refine hR.history past hoperands fun _ value hvalue value' hvalue' => ?_
    rw [← List.map_tail, List.head?_map] at hvalue hvalue'
    obtain ⟨c, hc, rfl⟩ := Option.map_eq_some_iff.mp hvalue
    rw [← List.map_tail, List.head?_map, hc] at hvalue'
    cases hvalue'
    rw [value?_toStatic]

/-- **A tree is written by the same writers without targets**, if its
    restrictions have all their bounds. -/
theorem related_toStatic (e : Expr) (h : e.HasAllBounds) :
    (e.operand ctx).Related (fun {α} (w w' : Writer α) => w = w') (e.toStatic.operand ctx) := by
  have hR := Writer.eq_congruence
  induction e using induction_on_children with
  | step e ih =>
    obtain ⟨hself, hall⟩ := (allParts_iff e).mp h
    have hbelow := fun c hc => ih c hc (hall c hc)
    cases e with
    | binary op left right =>
      have hleft := hbelow left (by simp [children])
      have hright := hbelow right (by simp [children])
      refine hR.ofNode ctx (hR.binary ctx op hleft hright fun negated _ => ?_) rfl rfl
      refine hR.equality _ _ _ hleft hright ?_ ?_ ?_ ?_
      · rw [operand_expr, operand_expr, resolve_toStatic]
      · rw [operand_expr, operand_expr, staticType_toStatic]
      · simp only [Writer.isList, value?_toStatic]
      · intro field _
        rw [operand_expr, operand_expr, operand_expr, asConstant?_toStatic]
    | call target method args =>
      rw [toStatic_call]
      refine hR.ofNode ctx ?_ rfl rfl
      rw [callOperands_eq, callOperands_eq, call_hasTarget ctx hself]
      exact call_toStatic ctx method (operands target args) hbelow
    | construct name args =>
      rw [toStatic_construct]
      refine hR.ofNode ctx (hR.construct ctx name ?_) rfl rfl
      rw [argOperands_eq, argOperands_eq, constants?_toStatic]
    | member target p type =>
      refine hR.ofNode ctx ?_ rfl rfl
      unfold Writer.member
      rw [show member target.toStatic p type = (member target p type).toStatic from rfl,
        eval_toStatic]
      rfl
    | convert operand type =>
      refine hR.ofNode ctx (hbelow operand (by simp [children])).visit rfl ?_
      exact asConstant?_toStatic (convert operand type)
    | lambda params body =>
      have hbody := hbelow body (by simp [children])
      exact ⟨(hR.ofNode ctx hbody.visit rfl rfl).visit, hbody.visit⟩
    | quote operand =>
      have hoperand := hbelow operand (by simp [children])
      exact ⟨(hR.ofNode ctx hoperand.visit rfl rfl).visit, hoperand.visitBody⟩
    | constant value type => exact ⟨rfl, rfl⟩
    | parameter param => exact ⟨rfl, rfl⟩

end Operands

/-- **The style of a call does not matter**: if restrictions have all their
    bounds, a tree has the same search, value and folded tree, or the same
    failures, when its calls are written without targets. -/
theorem toStatic_interchangeable (ctx : Context) (e : Expr) (h : e.HasAllBounds) :
    e.toStatic.compile ctx = e.compile ctx ∧
      e.toStatic.eval ctx.library = e.eval ctx.library ∧
      e.toStatic.fold ctx.library = (e.fold ctx.library).map (Folded.map toStatic) := by
  have hvisit := (related_toStatic ctx e h).visit
  refine ⟨?_, eval_toStatic ctx.library e, fold_toStatic ctx.library e⟩
  unfold compile compileTraced write
  rw [hvisit]

/-- The issues whose status changed in January, and of those the first five,
    with every call on a target. -/
def movedIssues : Expr :=
  let moved := ((Chain.votedItem.field "Status").history .changed []).qualify .during
    [ofValue (.str "2024/01/01"), ofValue (.str "2024/01/31")]
  ((source "Issue").invoke "where" [itemLambda "Issue" moved]).invoke "take" [ofValue (.int 5)]

theorem toStatic_interchangeable_movedIssues :
    movedIssues.HasAllBounds ∧
      movedIssues.toStatic ≠ movedIssues ∧
      movedIssues.toStatic.compile Chain.votingContext = .ok
        { text       := "status changed during (\"2024/01/01\", \"2024/01/31\")"
          startAt    := none
          maxResults := some 5 } := by
  have hbounds : movedIssues.HasAllBounds := by
    simp only [HasAllBounds, HasBounds, movedIssues, invoke, qualify, history, field, typedField,
      ofValue, source, Chain.votedItem, itemLambda, operands, allParts_call, allParts_member,
      allParts_constant, allParts_parameter, allParts_lambda, allParts_quote, Option.toList,
      List.singleton_append, List.mem_cons, List.not_mem_nil, or_false, forall_eq_or_imp, forall_eq,
      and_true, true_and]
    -- four calls have a target, and only `during` is a restriction
    refine ⟨?_, ?_, ?_, ?_⟩
    all_goals
      intro q
      cases q <;> decide
  refine ⟨hbounds, by simp [movedIssues, invoke, toStatic], ?_⟩
  rw [(toStatic_interchangeable Chain.votingContext movedIssues hbounds).1]
  rfl

/-- Without its bound, the predicate of a restriction is taken for the bound
    once it is listed with the operands. -/
example :
    let e := (Chain.votedItem.field "Status").qualify .after []
    e.compile Chain.votingContext = .error (.unsupported "after" "expected 1 argument(s), got 0") ∧
      e.toStatic.compile Chain.votingContext =
        .ok { text := "after status", startAt := none, maxResults := none } :=
  ⟨rfl, rfl⟩

end Expr

end IssueSearch
