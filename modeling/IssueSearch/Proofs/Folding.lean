import IssueSearch.Proofs.LocalValues

/-! # Folding keeps the meaning of a tree

    Folding replaces closed parts by their values, from the top down, and
    leaves a part in place when it is beyond local evaluation.

    * `Expr.FoldStep` says once what a pass does at a node; everything below is
      derived from it.
    * `Expr.fold_agree`: the folded tree agrees with the tree, wherever folding
      puts no remote collection in place of a part.
    * `Expr.fold_refines`: without that proviso, the tree still has every value
      that the folded tree has.
    * `Expr.fold_preserves_evaluation`: so evaluation is preserved in every
      scope, for trees and libraries that hide no remote collection.
    * `Expr.fold_reaches_normal_form`: a folded tree has nothing left to
      compute, folding it again changes nothing, and a change is reported
      exactly when there is one. -/

namespace IssueSearch.Expr

variable {lib : Library}

/-- Nothing here can evaluate the tree. -/
def IsUnsupported (lib : Library) (e : Expr) : Prop :=
  ∃ what, e.eval lib = .error (.unsupported what)

/-! ## One pass over a node -/

/-- The nodes below a node that was given others are those. -/
theorem children_withChildren {e : Expr} {cs : List Expr} (h : e.children.length = cs.length) :
    (e.withChildren cs).children = cs := by
  cases e with
  | call target method args =>
    cases target with
    | none => rfl
    | some t =>
      cases cs with
      | nil => simp [children, operands] at h
      | cons c rest => rfl
  | construct name args => rfl
  | binary op left right =>
    obtain ⟨l, r, rfl⟩ := List.length_eq_two.mp h.symm
    rfl
  | constant value type => exact (List.length_eq_zero_iff.mp h.symm).symm
  | parameter param => exact (List.length_eq_zero_iff.mp h.symm).symm
  | _ =>
    obtain ⟨c, rfl⟩ := List.length_eq_one_iff.mp h.symm
    rfl

/-- A node with other nodes below it is a parameter or a remote collection only
    if it was one before. -/
theorem withChildren_isOpen {e : Expr} {cs : List Expr} (h : e.children.length = cs.length)
    (he : (∀ param, e.withChildren cs ≠ parameter param) ∧
      ∀ entity type, e.withChildren cs ≠ constant (.source entity) type) :
    (∀ param, e ≠ parameter param) ∧ ∀ entity type, e ≠ constant (.source entity) type := by
  constructor
  · rintro param rfl
    exact he.1 param rfl
  · rintro entity type rfl
    exact he.2 entity type rfl

/-- Operands that were folded one by one. -/
theorem foldArgs_ok {es : List Expr} {r : Folded (List Expr)} (h : foldArgs lib es = .ok r) :
    ∃ rs : List (Folded Expr), List.Forall₂ (fun e r => e.fold lib = .ok r) es rs ∧
      r = { tree := rs.map Folded.tree, changed := rs.any Folded.changed } := by
  induction es generalizing r with
  | nil =>
    cases h
    exact ⟨[], .nil, rfl⟩
  | cons e rest ih =>
    obtain ⟨first, hfirst, h⟩ := bind_eq_ok.mp h
    obtain ⟨others, hothers, h⟩ := bind_eq_ok.mp h
    cases h
    obtain ⟨rs, hrs, rfl⟩ := ih hothers
    exact ⟨first :: rs, .cons hfirst hrs, rfl⟩

/-- Folding yields as many trees as it is given. -/
theorem length_folded {es : List Expr} {rs : List (Folded Expr)}
    (h : List.Forall₂ (fun e r => e.fold lib = .ok r) es rs) :
    es.length = (rs.map Folded.tree).length := by
  rw [List.length_map, h.length_eq]

/-- Folds the nodes below a node. -/
def foldBelow (lib : Library) (e : Expr) : Except EvalError (Folded Expr) := do
  .ok (.map e.withChildren (← foldArgs lib e.children))

/-- A node other than a constant is folded at once or through the nodes below
    it, whatever kind of node it is. -/
theorem fold_eq (e : Expr) (he : ¬ e.IsConstant) :
    e.fold lib = foldNode lib e fun _ => foldBelow lib e := by
  cases e with
  | constant value type => exact absurd ⟨value, type, rfl⟩ he
  | parameter param => rfl
  | binary op left right =>
    rw [fold]
    congr 1
    funext _
    simp only [foldBelow, children, foldArgs]
    cases left.fold lib with
    | error e => rfl
    | ok l =>
      cases right.fold lib <;> simp [bind, Except.bind, Folded.map, Folded.map₂, Folded.kept,
        withChildren]
  | call target method args =>
    rw [fold]
    congr 1
    funext _
    cases target with
    | none =>
      simp only [foldBelow, children, operands, Option.toList, List.nil_append, foldTarget]
      cases foldArgs lib args <;> simp [bind, Except.bind, Folded.map, Folded.map₂, Folded.kept,
        withChildren]
    | some t =>
      simp only [foldBelow, children, operands, Option.toList, List.singleton_append, foldTarget,
        foldArgs]
      cases t.fold lib with
      | error e => rfl
      | ok t => cases foldArgs lib args <;> simp [bind, Except.bind, Folded.map, Folded.map₂,
          withChildren]
  | construct name args =>
    rw [fold]
    rfl
  | member c _ _ | convert c _ | lambda _ c | quote c =>
    -- a node with one node below it
    rw [fold]
    congr 1
    funext _
    simp only [foldBelow, children, foldArgs]
    cases c.fold lib <;> simp [bind, Except.bind, Folded.map, Folded.map₂, Folded.kept,
      withChildren]

/-- What a successful pass does at a node. -/
inductive FoldStep (lib : Library) (e : Expr) : Folded Expr → Prop
  /-- A constant stays. -/
  | constant : e.IsConstant → FoldStep lib e (.kept e)
  /-- A closed node that evaluates becomes its value. -/
  | value (v : Value) : ¬ e.IsConstant → e.isClosed = true → e.eval lib = .ok v →
      FoldStep lib e { tree := e.foldedConstant v, changed := true }
  /-- Of any other node the nodes below are folded. -/
  | below (rs : List (Folded Expr)) : ¬ e.IsConstant →
      (e.isClosed = true → e.IsUnsupported lib) →
      List.Forall₂ (fun c r => c.fold lib = .ok r) e.children rs →
      FoldStep lib e
        { tree := e.withChildren (rs.map Folded.tree), changed := rs.any Folded.changed }

/-- A call of a remote method is beyond local evaluation. -/
theorem isUnsupported_of_isRemoteCall {e : Expr} (h : e.isRemoteCall = true) :
    e.IsUnsupported lib := by
  cases e with
  | call target method args =>
    have hremote : method.remote = true := h
    refine ⟨"remote function '" ++ method.name ++ "'", ?_⟩
    simp [eval, evalIn, meaning, Meaning.call, Meaning.plain, Meaning.callValue, hremote]
  | _ => cases h

/-- **Every successful pass does one of three things at a node.** -/
theorem foldStep_of_fold {e : Expr} {r : Folded Expr} (h : e.fold lib = .ok r) :
    FoldStep lib e r := by
  by_cases he : e.IsConstant
  · obtain ⟨value, type, rfl⟩ := he
    cases h
    exact .constant ⟨value, type, rfl⟩
  · -- folding the nodes below, once it is known why the node itself stays
    have hbelow : (e.isClosed = true → e.IsUnsupported lib) →
        foldBelow lib e = .ok r → FoldStep lib e r := by
      intro hstays h
      obtain ⟨cs, hcs, h⟩ := bind_eq_ok.mp h
      obtain ⟨rs, hrs, rfl⟩ := foldArgs_ok hcs
      cases h
      exact .below rs he hstays hrs
    rw [fold_eq e he] at h
    unfold foldNode at h
    split at h
    · rename_i hclosed
      simp only [Bool.and_eq_true] at hclosed
      split at h
      · rename_i v hv
        cases h
        exact .value v he hclosed.1 hv
      · rename_i what hwhat
        exact hbelow (fun _ => ⟨what, hwhat⟩) h
      · cases h
    · -- a closed node that is not even tried calls a remote method
      rename_i hopen
      refine hbelow (fun hclosed => ?_) h
      exact isUnsupported_of_isRemoteCall (by simpa [hclosed] using hopen)

/-! ## Agreement -/

section Comparison

variable {R : ∀ {α : Type}, Except EvalError α → Except EvalError α → Prop} (hR : Comparison R)

include hR

/-- Nodes of one kind compare if the nodes below them do. -/
theorem withChildren_related {e : Expr} {cs : List Expr}
    (h : List.Forall₂ (fun c c' => Meaning.Related R (c.meaning lib) (c'.meaning lib))
      e.children cs) :
    Meaning.Related R (e.meaning lib) ((e.withChildren cs).meaning lib) := by
  cases e with
  | binary op left right =>
    obtain ⟨l, rest, hl, hrest, rfl⟩ := List.forall₂_cons_left_iff.mp h
    obtain ⟨r, others, hr, hothers, rfl⟩ := List.forall₂_cons_left_iff.mp hrest
    cases hothers
    exact Meaning.plain_related hR fun scope =>
      Meaning.binary_related hR op (hl.value scope) (hr.value scope)
  | call target method args =>
    have hops : ∀ target' args', operands target' args' = cs →
        Meaning.Related R ((call target method args).meaning lib)
          ((call target' method args').meaning lib) := by
      rintro target' args' rfl
      simp only [meaning, operandsMeaning_eq]
      refine Meaning.call_related hR lib method ?_
      rw [List.forall₂_map_left_iff, List.forall₂_map_right_iff]
      exact h
    cases target with
    | none => exact hops none cs rfl
    | some t =>
      obtain ⟨c, rest, _, _, rfl⟩ := List.forall₂_cons_left_iff.mp h
      exact hops (some c) rest rfl
  | member target p type =>
    obtain ⟨c, hc, rfl⟩ := forall₂_singleton h
    exact Meaning.plain_related hR fun scope => hR.next (hc.value scope) _
  | convert operand type =>
    obtain ⟨c, hc, rfl⟩ := forall₂_singleton h
    exact Meaning.plain_related hR fun scope => hR.next (hc.value scope) _
  | construct name args =>
    refine Meaning.plain_related hR fun scope => ?_
    rw [argsMeaning_eq, argsMeaning_eq]
    refine hR.next (Meaning.values_related hR ?_) _
    rw [List.forall₂_map_left_iff, List.forall₂_map_right_iff]
    exact h
  | lambda params body =>
    obtain ⟨c, hc, rfl⟩ := forall₂_singleton h
    exact Meaning.lambda_related hR params hc
  | quote operand =>
    obtain ⟨c, hc, rfl⟩ := forall₂_singleton h
    exact Meaning.quote_related hR hc
  | constant value type => exact Meaning.related_refl hR _
  | parameter param => exact Meaning.related_refl hR _

omit hR in
/-- The value of an ordering step was found by sorting. -/
theorem sortThrough_of_eval {target : Option Expr} {method : Method} {args : List Expr}
    {step : SortStep} (hstep : Operator.ofName? method.name = some (.sort step)) {v : Value}
    (hv : (call target method args).eval lib = .ok v) :
    Meaning.sortThrough ((call target method args).meaning lib).ordering [] [] = .ok v := by
  simp only [eval, evalIn, meaning, Meaning.call, Meaning.plain, Meaning.callValue, hstep,
    Meaning.operator] at hv ⊢
  split at hv
  · -- a remote method has no value
    cases hv
  · rwa [Meaning.sorted_eq] at hv

omit hR in
/-- A call that is no ordering step has no keys for the steps on top of it. -/
theorem ordering_of_not_sort {target : Option Expr} {method : Method} {args : List Expr}
    (h : ¬ ∃ step, Operator.ofName? method.name = some (.sort step)) :
    ((call target method args).meaning lib).ordering =
      .ok ([], ((call target method args).meaning lib).value) := by
  simp only [meaning, Meaning.call]
  split
  · rename_i step hstep
    exact absurd ⟨step, hstep⟩ h
  · rfl

/-- A closed tree compares with the constant of its value, unless that is a
    remote collection. -/
theorem foldedConstant_related {e : Expr} (hclosed : e.isClosed = true) {v : Value}
    (hv : e.eval lib = .ok v) (hsource : v.isSource = false) :
    Meaning.Related R (e.meaning lib) ((e.foldedConstant v).meaning lib) := by
  have hconstant : (e.foldedConstant v).meaning lib = .plain "constant" fun _ => .ok v := by
    cases v with
    | source entity => cases hsource
    | _ => rfl
  have hvalue : ∀ scope, (e.meaning lib).value scope = .ok v := by
    intro scope
    rw [value_of_isClosed lib hclosed scope []]
    exact hv
  rw [hconstant]
  -- a node that is no ordering step, and no lambda either
  have hplain : ∀ kind, Meaning.Related R (.plain kind (e.meaning lib).value)
      (.plain "constant" fun _ => .ok v) := by
    intro kind
    refine Meaning.plain_related hR fun scope => ?_
    rw [hvalue scope]
    exact hR.refl _
  cases e with
  | call target method args =>
    by_cases hsort : ∃ step, Operator.ofName? method.name = some (.sort step)
    · -- the keys of the step are the same for all items, so they decide nothing
      obtain ⟨step, hstep⟩ := hsort
      refine ⟨(hplain "call").value, fun _ _ => hR.mismatch _ _ _, ?_⟩
      intro more more' scope hmore
      have hsteady := meaning_steady lib _ hclosed
      rw [hsteady.sortThrough_eq (sortThrough_of_eval hstep hv)]
      exact Meaning.sortThrough_related hR .nil hmore (hR.refl _)
    · have hrelated := hplain "call"
      refine ⟨hrelated.value, hrelated.apply, ?_⟩
      rw [ordering_of_not_sort hsort]
      exact hrelated.sorting
  | lambda params body => cases hv
  | quote operand => cases hv
  | binary op left right => exact hplain "binary"
  | member target p type => exact hplain "member"
  | constant value type => exact hplain "constant"
  | convert operand type => exact hplain "convert"
  | construct name args => exact hplain "new"
  | parameter param => exact hplain "parameter"

/-- **Folding compares with the tree**, wherever the values it puts in place of
    parts do.  The guard says where: it passes from a node to the nodes below
    it. -/
theorem fold_related (guard : Expr → Expr → Prop)
    (hvalue : ∀ e v, e.isClosed = true → e.eval lib = .ok v → guard e (e.foldedConstant v) →
      Meaning.Related R (e.meaning lib) ((e.foldedConstant v).meaning lib))
    (hbelow : ∀ e cs, e.children.length = cs.length → guard e (e.withChildren cs) →
      List.Forall₂ guard e.children cs) (e : Expr) :
    ∀ r, e.fold lib = .ok r → guard e r.tree →
      Meaning.Related R (e.meaning lib) (r.tree.meaning lib) := by
  induction e using induction_on_children with
  | step e ih =>
    intro r h hguard
    cases foldStep_of_fold h with
    | constant he => exact Meaning.related_refl hR _
    | value v he hclosed hv => exact hvalue e v hclosed hv hguard
    | below rs he hstays hrs =>
      -- the guard reaches each node below, so the induction applies to them pairwise
      have hlen := length_folded hrs
      have hguards := hbelow e _ hlen hguard
      refine withChildren_related hR ?_
      rw [List.forall₂_map_right_iff] at hguards ⊢
      rw [List.forall₂_iff_zip] at hguards hrs ⊢
      refine ⟨hrs.1, fun {c r'} hmem => ?_⟩
      exact ih c (List.of_mem_zip hmem).1 r' (hrs.2 hmem) (hguards.2 hmem)

end Comparison

/-- **Folding agrees with the tree**, wherever it puts no remote collection in
    place of a part. -/
theorem fold_agree (guard : Expr → Expr → Prop)
    (hvalue : ∀ e v, e.isClosed = true → e.eval lib = .ok v → guard e (e.foldedConstant v) →
      v.isSource = false)
    (hbelow : ∀ e cs, e.children.length = cs.length → guard e (e.withChildren cs) →
      List.Forall₂ guard e.children cs) (e : Expr) :
    ∀ r, e.fold lib = .ok r → guard e r.tree → (e.meaning lib).Agree (r.tree.meaning lib) :=
  fold_related agree_comparison guard
    (fun e v hclosed hv hguard =>
      foldedConstant_related agree_comparison hclosed hv (hvalue e v hclosed hv hguard))
    hbelow e

/-- A remote collection refines nothing away: it has no value of its own, and no
    items to sort. -/
theorem related_source (m : Meaning) (entity : String) (type : DataType) :
    Meaning.Related Refines m ((constant (.source entity) type).meaning lib) where
  value := fun _ _ hv => by cases hv
  apply := fun _ _ _ hv => by cases hv
  sorting := fun _ _ _ _ _ hv => by cases hv

/-- **The tree has every value that the folded tree has**, whatever folding put
    in place of its parts. -/
theorem fold_refines (e : Expr) {r : Folded Expr} (h : e.fold lib = .ok r) :
    Meaning.Related Refines (e.meaning lib) (r.tree.meaning lib) := by
  refine fold_related refines_comparison (fun _ _ => True) ?_ ?_ e r h trivial
  · intro e v hclosed hv _
    by_cases hsource : v.isSource = true
    · cases v with
      | source entity => exact related_source _ entity _
      | _ => cases hsource
    · exact foldedConstant_related refines_comparison hclosed hv (by simpa using hsource)
  · intro e cs hlen _
    exact List.forall₂_iff_zip.mpr ⟨hlen, fun _ => trivial⟩

/-- **Folding preserves evaluation.** In every scope the folded tree has the
    value of the tree, and if they fail they fail for the same reason: only the
    detail of a type mismatch may differ. -/
theorem fold_preserves_evaluation (hlib : lib.IsLocal) (e : Expr) (he : e.HidesNoSource)
    {r : Folded Expr} (h : e.fold lib = .ok r) (scope : Scope) :
    (∀ v, r.tree.evalIn lib scope = .ok v ↔ e.evalIn lib scope = .ok v) ∧
      ∀ failure failure', e.evalIn lib scope = .error failure →
        r.tree.evalIn lib scope = .error failure' → failure.Alike failure' := by
  -- the guard looks at the tree that was given: what it hides no part of it hides
  have hagree := fold_agree (fun e _ => e.HidesNoSource)
    (fun e v hclosed hv he =>
      Value.isSource_of_isLocal ((meaning_isLocal hlib e hclosed he).value [] v hv))
    (fun e cs hlen he => List.forall₂_iff_zip.mpr ⟨hlen, fun hmem =>
      ((hidesNoSource_iff e).mp he).2 _ (List.of_mem_zip hmem).1⟩)
    e r h he
  exact ⟨(hagree.value scope).ok_iff, fun failure failure' => (hagree.value scope).alike⟩

/-- Items sorted by a key that is the same for all of them, and then by a
    parameter from outside. -/
def refinedSort : Expr :=
  call none { name := "then_by", remote := false }
    [call none { name := "order_by", remote := false }
        [constant (.array [.int 3, .int 1]) .any,
         lambda [{ name := "x", type := .any }]
           (binary .add (constant (.int 1) .int64) (constant (.int 1) .int64))],
     lambda [{ name := "x", type := .any }] (parameter { name := "y", type := .any })]

/-- The same with the first sort carried out. -/
def refinedSortFolded : Expr :=
  call none { name := "then_by", remote := false }
    [constant (.array [.int 3, .int 1]) (.array .int64),
     lambda [{ name := "x", type := .any }] (parameter { name := "y", type := .any })]

/-- The first sort is folded away, and the second one still finds the items in
    place. -/
theorem fold_preserves_refinedSort :
    Library.standard.IsLocal ∧ refinedSort.HidesNoSource ∧
      refinedSort.fold .standard = .ok { tree := refinedSortFolded, changed := true } ∧
      refinedSortFolded.evalIn .standard [("y", .int 7)] = .ok (.array [.int 3, .int 1]) := by
  have hitems : (Value.array [.int 3, .int 1]).IsLocal := by simp [Value.isLocal_array]
  have hone : (Value.int 1).IsLocal := Value.isLocal_int 1
  have hsort : refinedSort.HidesNoSource := by
    simp [refinedSort, operands, hitems.hidesNoSource, hone.hidesNoSource]
  refine ⟨Library.standard_isLocal, hsort, rfl, ?_⟩
  exact ((fold_preserves_evaluation Library.standard_isLocal refinedSort hsort rfl _).1 _).mpr rfl

/-! ## Normal forms -/

/-- Folding closes nothing: a part that mentions a parameter or a remote
    collection still does so once it is folded. -/
theorem isClosed_of_fold (e : Expr) :
    ∀ r, e.fold lib = .ok r → r.tree.isClosed = true → e.isClosed = true := by
  induction e using induction_on_children with
  | step e ih =>
    intro r h hclosed
    cases foldStep_of_fold h with
    | constant he => exact hclosed
    | value v he hclosed' hv => exact hclosed'
    | below rs he hstays hrs =>
      have hlen := length_folded hrs
      obtain ⟨hopen, hchildren⟩ := (isClosed_iff_children _).mp hclosed
      rw [children_withChildren hlen] at hchildren
      refine (isClosed_iff_children e).mpr ⟨withChildren_isOpen hlen hopen, fun c hc => ?_⟩
      obtain ⟨r', hr', hfold⟩ := exists_of_mem_of_forall₂ hrs hc
      exact ih c hc r' hfold (hchildren _ (List.mem_map_of_mem hr'))

/-- A tree has nothing left to compute: each of its parts that is closed is a
    constant already or beyond local evaluation. -/
def IsNormal (lib : Library) (e : Expr) : Prop :=
  ∀ t : Expr, t.Within e → t.isClosed = true → t.IsConstant ∨ t.IsUnsupported lib

/-- A part that was left in place stays beyond local evaluation while the parts
    below it are folded. -/
theorem isUnsupported_of_fold {e : Expr} {r : Folded Expr} (h : e.fold lib = .ok r)
    (hclosed : r.tree.isClosed = true) (he : e.IsUnsupported lib) : r.tree.IsUnsupported lib := by
  -- here the guard looks at the result: a closed tree has no remote collection in it
  have hagree := fold_agree (fun _ e' => e'.isClosed = true)
    (fun e v _ _ hguard => by simpa [foldedConstant, isClosed] using hguard)
    (fun e cs hlen hguard => List.forall₂_iff_zip.mpr ⟨hlen, fun hmem =>
      isClosed_of_mem_children hguard (by
        rw [children_withChildren hlen]
        exact (List.of_mem_zip hmem).2)⟩)
    e r h hclosed
  obtain ⟨what, hwhat⟩ := he
  exact ⟨what, (hagree.value []).unsupported hwhat⟩

/-- A constant is a normal form. -/
theorem isNormal_of_isConstant {e : Expr} (h : e.IsConstant) : e.IsNormal lib := by
  obtain ⟨value, type, rfl⟩ := h
  intro t ht _
  rcases within_iff.mp ht with rfl | ⟨c, hc, _⟩
  · exact Or.inl ⟨value, type, rfl⟩
  · cases hc

/-- What folding returns is a normal form. -/
theorem isNormal_of_fold (e : Expr) : ∀ r, e.fold lib = .ok r → r.tree.IsNormal lib := by
  induction e using induction_on_children with
  | step e ih =>
    intro r h
    cases foldStep_of_fold h with
    | constant he => exact isNormal_of_isConstant he
    | value v he hclosed hv => exact isNormal_of_isConstant ⟨_, _, rfl⟩
    | below rs he hstays hrs =>
      have hlen := length_folded hrs
      intro t ht hclosed
      rcases within_iff.mp ht with rfl | ⟨c', hc', ht'⟩
      · -- the node itself stayed because it was beyond local evaluation
        exact Or.inr (isUnsupported_of_fold h hclosed (hstays (isClosed_of_fold e _ h hclosed)))
      · rw [children_withChildren hlen] at hc'
        obtain ⟨r', hr', rfl⟩ := List.mem_map.mp hc'
        obtain ⟨c, hc, hfold⟩ := exists_of_mem_of_forall₂ hrs.flip hr'
        exact ih c hc r' hfold t ht' hclosed

/-- Operands that folding leaves alone. -/
theorem foldArgs_kept {es : List Expr} (h : ∀ e ∈ es, e.fold lib = .ok (.kept e)) :
    foldArgs lib es = .ok (.kept es) := by
  induction es with
  | nil => rfl
  | cons e rest ih =>
    rw [foldArgs, h e (by simp), ih fun e' he' => h e' (List.mem_cons_of_mem e he')]
    rfl

/-- Folding leaves a normal form alone. -/
theorem fold_of_isNormal (e : Expr) (h : e.IsNormal lib) : e.fold lib = .ok (.kept e) := by
  induction e using induction_on_children with
  | step e ih =>
    by_cases he : e.IsConstant
    · obtain ⟨value, type, rfl⟩ := he
      rfl
    · have hbelow : foldBelow lib e = .ok (.kept e) := by
        have hchildren := foldArgs_kept fun c hc =>
          ih c hc fun t ht hclosed => h t (.child hc ht) hclosed
        rw [foldBelow, hchildren]
        show Except.ok (Folded.kept (e.withChildren e.children)) = _
        rw [withChildren_children]
      rw [fold_eq e he]
      unfold foldNode
      split
      · -- evaluation is tried and backs off
        rename_i hclosed
        rw [Bool.and_eq_true] at hclosed
        obtain ⟨what, hwhat⟩ := (h e .self hclosed.1).resolve_left he
        rw [hwhat]
        exact hbelow
      · exact hbelow

/-- Trees are unchanged together exactly when each of them is. -/
theorem any_changed_iff {es : List Expr} {rs : List (Folded Expr)}
    (h : List.Forall₂ (fun e r => r.changed = false ↔ r.tree = e) es rs) :
    rs.any Folded.changed = false ↔ rs.map Folded.tree = es := by
  induction h with
  | nil => simp
  | cons hfirst _ ih =>
    rw [List.any_cons, Bool.or_eq_false_iff, hfirst, ih, List.map_cons, List.cons.injEq]

/-- A pass reports a change exactly when it makes one. -/
theorem changed_iff (e : Expr) :
    ∀ r, e.fold lib = .ok r → (r.changed = false ↔ r.tree = e) := by
  induction e using induction_on_children with
  | step e ih =>
    intro r h
    cases foldStep_of_fold h with
    | constant he => simp [Folded.kept]
    | value v he hclosed hv =>
      have hne : e.foldedConstant v ≠ e := fun heq => he ⟨_, _, heq.symm⟩
      simp [hne]
    | below rs he hstays hrs =>
      have hlen := length_folded hrs
      -- the node is as before exactly when the nodes below are
      have htree : e.withChildren (rs.map Folded.tree) = e ↔ rs.map Folded.tree = e.children := by
        constructor
        · intro heq
          rw [← children_withChildren hlen, heq]
        · intro heq
          rw [heq, withChildren_children]
      rw [htree]
      exact any_changed_iff (forall₂_imp_of_mem hrs fun c hc r' => ih c hc r')

/-- **Folding reaches a normal form.** Every part of the folded tree without a
    parameter and without a remote collection is a constant or beyond local
    evaluation; folding again changes nothing; and the tree is reported as
    unchanged exactly when it is the tree that was given. -/
theorem fold_reaches_normal_form (e : Expr) {r : Folded Expr} (h : e.fold lib = .ok r) :
    (∀ t : Expr, t.Within r.tree → t.IsSelfContained → t.IsConstant ∨ t.IsUnsupported lib) ∧
      r.tree.fold lib = .ok (.kept r.tree) ∧ (r.changed = false ↔ r.tree = e) := by
  have hnormal := isNormal_of_fold e r h
  refine ⟨?_, fold_of_isNormal r.tree hnormal, changed_iff e r h⟩
  intro t ht hself
  exact hnormal t ht ((isClosed_iff t).mpr hself)

/-- Once the first sort is folded away, folding again changes nothing. -/
theorem fold_reaches_normal_form_refinedSort :
    refinedSort.fold .standard = .ok { tree := refinedSortFolded, changed := true } ∧
      refinedSortFolded.fold .standard = .ok (.kept refinedSortFolded) ∧
      refinedSortFolded ≠ refinedSort := by
  have hnormal := fold_reaches_normal_form refinedSort
    (show refinedSort.fold .standard = .ok { tree := refinedSortFolded, changed := true } from rfl)
  refine ⟨rfl, hnormal.2.1, fun heq => ?_⟩
  have hunchanged := hnormal.2.2.mpr heq
  cases hunchanged

end IssueSearch.Expr
