import IssueSearch.Proofs.Chains
import IssueSearch.Proofs.Concurrence
import IssueSearch.Proofs.FoldedForms
import IssueSearch.Proofs.Readable

/-! # The search of a folded query

    A query may be written as it was given, or folded first.  The writer has its
    own way with what folding would compute: a constant under a conversion is
    written with the type of the conversion, a captured property is evaluated
    on the spot, and a constructor is applied to the constants it is given.  Where
    that comes to the text of the value, and where no node reads anything else
    off such an operand, the search is the same.

    * `Expr.FoldsAlike`: this proviso, part by part.
    * `Expr.resolve_foldsTo`, `Expr.count?_foldsTo`: what a node reads off an
      operand that is folded, if it can still be read.
    * `Expr.operand_concur`: writing a tree concurs with writing its folded form.
    * `Expr.compile_fold_eq`: so both have the same search, if both have one.
    * `Expr.folding_changes_captured_values`: without the proviso they need
      not. -/

namespace IssueSearch.Expr

/-! ## What is written of a tree -/

/-- The nodes below a node that are written with it.  A property and a
    constructor are written by name or by value. -/
def writtenBelow : Expr → List Expr
  | call target method args        => method.written (operands target args)
  | member _ _ _ | construct _ _   => []
  | e                              => e.children

/-- The part is reached when the tree is written, without passing through a part
    that folding computes. -/
inductive IsWritten (lib : Library) (t : Expr) : Expr → Prop
  | self : IsWritten lib t t
  | inside {c e : Expr} : (∀ v, ¬ e.ComputesTo lib v) → c ∈ e.writtenBelow →
      IsWritten lib t c → IsWritten lib t e

/-- What a node reads off its operands besides their texts. -/
inductive Cue where
  /-- Nothing. -/
  | nothing
  /-- An equality: the words that replace a comparison with nothing. -/
  | absence (words : Option Presence)
  /-- A list: which of its items are constants. -/
  | constants (items : List Bool)
  /-- A past value: whether it is the absent value. -/
  | pastNull (isNull : Bool)
  /-- A titled field: its title. -/
  | title (title : Option String)
  /-- A constructor: the values of its arguments. -/
  | arguments (values : Option (List Value))

/-- Is the operand the absent value? -/
def isNull (e : Expr) : Bool :=
  match e.asConstant?.map Prod.fst with
  | some .null => true
  | _          => false

/-- Is what the node names compared as a date? -/
def namesDate (fields : FieldTable) (e : Expr) : Bool :=
  (match fields.resolve e with
    | .ok field => field.type.isDate
    | .error _  => false) || e.staticType.isDate

/-- What a node reads off its operands. -/
def cue (ctx : Context) : Expr → Cue
  | binary op left right =>
    match op.negates? with
    | some negated =>
      .absence (Writer.absence? (left.namesDate ctx.fields) negated right.asConstant?)
    | none => .nothing
  | call target method args =>
    if method.name = Remote.customField then
      .title (title? (operands target args))
    else if method.remote then
      .nothing
    else
      match Role.ofName method.name with
      | .membership _ => .constants ((operands target args).tail.map (·.asConstant?.isSome))
      | .history .was | .history .wasNot =>
        .pastNull ((operands target args).tail.head?.any isNull)
      | _ => .nothing
  | construct _ args => .arguments (Writer.constants? (argOperands ctx args))
  | _ => .nothing

/-- **The tree is written as its folded form is.** A part that folding computes
    is written as a literal, and its text is that of the value; and what the
    other parts read off their operands stays the same. -/
structure FoldsAlike (ctx : Context) (e : Expr) : Prop where
  literals : ∀ t v, IsWritten ctx.library t e → t.ComputesTo ctx.library v →
    t.literal? ctx =
      some (Literal.written? ctx.options.escaping (t.staticType.orElse v.typeOf) v)
  cues : ∀ t t', IsWritten ctx.library t e → (∀ v, ¬ t.ComputesTo ctx.library v) →
    t.FoldsTo ctx.library t' → t'.cue ctx = t.cue ctx

section FoldsAlike

variable {ctx : Context} {e : Expr}

theorem FoldsAlike.below {c : Expr} (h : e.FoldsAlike ctx)
    (he : ∀ v, ¬ e.ComputesTo ctx.library v) (hc : c ∈ e.writtenBelow) : c.FoldsAlike ctx where
  literals := fun t v ht => h.literals t v (.inside he hc ht)
  cues := fun t t' ht => h.cues t t' (.inside he hc ht)

/-- A part that is computed is all that is looked at. -/
theorem foldsAlike_of_computesTo {v : Value} (h : e.ComputesTo ctx.library v)
    (hliteral : e.literal? ctx =
      some (Literal.written? ctx.options.escaping (e.staticType.orElse v.typeOf) v)) :
    e.FoldsAlike ctx := by
  have hself : ∀ t, IsWritten ctx.library t e → t = e := by
    intro t ht
    cases ht with
    | self => rfl
    | inside he _ _ => exact absurd h (he v)
  refine ⟨fun t w ht hw => ?_, fun t t' ht ht' _ => ?_⟩
  · obtain rfl := hself t ht
    have hsame := h.value.symm.trans hw.value
    cases hsame
    exact hliteral
  · obtain rfl := hself t ht
    exact absurd h (ht' v)

/-- Of a part that stays in place, what it reads off its operands is looked at,
    and then what is written below it. -/
theorem foldsAlike_of_open (hopen : e.isClosed = false) {r : Folded Expr}
    (hfold : e.fold ctx.library = .ok r) (hcue : r.tree.cue ctx = e.cue ctx)
    (hbelow : ∀ c ∈ e.writtenBelow, c.FoldsAlike ctx) : e.FoldsAlike ctx := by
  have hnot : ∀ v, ¬ e.ComputesTo ctx.library v := by
    intro v hv
    have hclosed := hv.isClosed
    rw [hopen] at hclosed
    cases hclosed
  refine ⟨fun t v ht hv => ?_, fun t t' ht hstays ht' => ?_⟩
  · cases ht with
    | self => exact absurd hv (hnot v)
    | inside _ hc ht => exact (hbelow _ hc).literals t v ht hv
  · cases ht with
    | self =>
      obtain ⟨r', hr', rfl⟩ := ht'
      rw [hfold] at hr'
      cases hr'
      exact hcue
    | inside _ hc ht => exact (hbelow _ hc).cues t t' ht hstays ht'

end FoldsAlike

/-! ## Nodes that concur -/

/-- The two trees are written alike, as nodes and as bodies of lambdas. -/
abbrev Concurs (ctx : Context) (e e' : Expr) : Prop :=
  (e.operand ctx).Related Writer.Concur (e'.operand ctx)

section Nodes

variable {ctx : Context}

/-- What has a value is no lambda, so it is its own body. -/
theorem visitBody_eq_visit {e : Expr} {v : Value} (h : e.eval ctx.library = .ok v) :
    (e.operand ctx).visitBody = (e.operand ctx).visit := by
  cases e with
  | lambda params body => cases h
  | quote operand => cases h
  | _ => rfl

/-- A part that is computed. -/
theorem ComputesTo.concur {e : Expr} {v : Value} (h : e.ComputesTo ctx.library v)
    (hliteral : e.literal? ctx =
      some (Literal.written? ctx.options.escaping (e.staticType.orElse v.typeOf) v)) :
    e.Concurs ctx (e.foldedConstant v) := by
  obtain ⟨m, hm⟩ := Writer.literal_emits
    (Literal.written? ctx.options.escaping (e.staticType.orElse v.typeOf) v)
  have hvisit : Writer.Concur (e.operand ctx).visit ((e.foldedConstant v).operand ctx).visit :=
    Writer.concur_of_emits (fun s => emits_literal ctx e _ hliteral (hm s))
      (fun s => emits_literal ctx _ _ rfl (hm s))
  refine ⟨hvisit, ?_⟩
  rw [visitBody_eq_visit h.value]
  exact hvisit

/-- Calls with the same title name the same field. -/
theorem resolve_call_eq {method : Method} {target target' : Option Expr} {args args' : List Expr}
    (hcue : (call target' method args').cue ctx = (call target method args).cue ctx) :
    ctx.fields.resolve (call target' method args') =
      ctx.fields.resolve (call target method args) := by
  by_cases hname : method.name = Remote.customField
  · simp only [cue, if_pos hname, Cue.title.injEq] at hcue
    simp only [FieldTable.resolve, if_pos hname, hcue]
  · simp only [FieldTable.resolve, if_neg hname]
    rfl

/-- The field that a node names is the same once it is folded, if it still names
    one. -/
theorem resolve_foldsTo {e e' : Expr} (h : e.FoldsTo ctx.library e')
    (hcue : (∀ v, ¬ e.ComputesTo ctx.library v) → e'.cue ctx = e.cue ctx) {field field' : Field}
    (hfield : ctx.fields.resolve e = .ok field) (hfield' : ctx.fields.resolve e' = .ok field') :
    field' = field ∧ e'.staticType = e.staticType := by
  -- it is enough that both trees name a field in the same way
  have hdone : ctx.fields.resolve e' = ctx.fields.resolve e → e'.staticType = e.staticType →
      field' = field ∧ e'.staticType = e.staticType := by
    intro hresolve htype
    rw [hresolve, hfield] at hfield'
    cases hfield'
    exact ⟨rfl, htype⟩
  cases h.form with
  | constant he => exact hdone rfl rfl
  | value v _ => cases hfield'
  | below cs _ hstays hcs =>
    cases e with
    | member target p type =>
      obtain ⟨target', _, rfl⟩ := forall₂_singleton hcs
      exact hdone rfl rfl
    | convert operand type =>
      obtain ⟨operand', hoperand, rfl⟩ := forall₂_singleton hcs
      cases operand with
      | member target p _ =>
        rcases hoperand.of_member with ⟨_, _, rfl⟩ | ⟨target', rfl⟩
        · cases hfield'
        · exact hdone rfl rfl
      | _ => cases hfield
    | call target method args =>
      obtain ⟨target', args', heq, _, _⟩ := withChildren_call method hcs.length_eq
      rw [heq] at hcue hdone ⊢
      exact hdone (resolve_call_eq (hcue (not_computesTo hstays))) rfl
    | _ => cases hfield

/-- An equality fails unless its left operand names a field. -/
theorem equality_fails_of_resolve {fields : FieldTable} {op : BinaryOp} {negated : Bool}
    {left right : Operand} {failure : SearchError}
    (h : fields.resolve left.expr = .error failure) :
    (Writer.equality fields op negated left right).Fails := by
  unfold Writer.equality
  rw [h]
  exact (Writer.fails_throw failure).bind _

/-- An equality fails if its right operand is a list. -/
theorem equality_fails_of_isList {fields : FieldTable} {op : BinaryOp} {negated : Bool}
    {left right : Operand} (h : Writer.isList right = true) :
    (Writer.equality fields op negated left right).Fails := by
  intro d a f hf
  obtain ⟨field, g, _, hf⟩ := Writer.ok_of_bind hf
  rw [if_pos h] at hf
  cases hf

theorem namesDate_of_resolve {fields : FieldTable} {e : Expr} {field : Field}
    (h : fields.resolve e = .ok field) :
    e.namesDate fields = (field.type.isDate || e.staticType.isDate) := by
  simp only [namesDate, h]

theorem equality_concur {op : BinaryOp} {negated : Bool} {left left' right right' : Expr}
    (hfolds : left.FoldsTo ctx.library left')
    (hleft : left.Concurs ctx left')
    (hright : right.Concurs ctx right')
    (hcue : (∀ v, ¬ left.ComputesTo ctx.library v) → left'.cue ctx = left.cue ctx)
    (habsence : Writer.absence? (left'.namesDate ctx.fields) negated right'.asConstant? =
      Writer.absence? (left.namesDate ctx.fields) negated right.asConstant?) :
    Writer.Concur (Writer.equality ctx.fields op negated (left.operand ctx) (right.operand ctx))
      (Writer.equality ctx.fields op negated (left'.operand ctx) (right'.operand ctx)) := by
  -- an equality that is not written at all concurs with any other
  cases hfield : ctx.fields.resolve left with
  | error failure => exact (equality_fails_of_resolve (by rw [operand_expr, hfield])).concur
  | ok field =>
    cases hfield' : ctx.fields.resolve left' with
    | error failure =>
      exact (equality_fails_of_resolve (by rw [operand_expr, hfield'])).concur_right
    | ok field' =>
      by_cases hlist : Writer.isList (right.operand ctx) = true
      · exact (equality_fails_of_isList hlist).concur
      by_cases hlist' : Writer.isList (right'.operand ctx) = true
      · exact (equality_fails_of_isList hlist').concur_right
      obtain ⟨rfl, htype⟩ := resolve_foldsTo hfolds hcue hfield hfield'
      rw [namesDate_of_resolve hfield, namesDate_of_resolve hfield', htype] at habsence
      refine Writer.concur_congruence.equality _ _ _ hleft hright ?_ ?_ ?_ ?_
      · rw [operand_expr, operand_expr, hfield, hfield']
      · rw [operand_expr, operand_expr, htype]
      · rw [Bool.eq_false_iff.mpr hlist, Bool.eq_false_iff.mpr hlist']
      · intro other hother
        rw [operand_expr, hfield] at hother
        cases hother
        simp only [operand_expr]
        exact habsence

theorem binary_concur {op : BinaryOp} {left left' right right' : Expr}
    (hfolds : left.FoldsTo ctx.library left') (hleft : left.Concurs ctx left')
    (hright : right.Concurs ctx right')
    (hcueLeft : (∀ v, ¬ left.ComputesTo ctx.library v) → left'.cue ctx = left.cue ctx)
    (hcue : (binary op left' right').cue ctx = (binary op left right).cue ctx) :
    Writer.Concur (Writer.binary ctx op (left.operand ctx) (right.operand ctx))
      (Writer.binary ctx op (left'.operand ctx) (right'.operand ctx)) := by
  refine Writer.concur_congruence.binary ctx op hleft hright fun negated hop => ?_
  refine equality_concur hfolds hleft hright hcueLeft ?_
  cases negated <;> subst hop <;> simpa [cue, BinaryOp.negates?] using hcue

/-- A count is a constant whole number. -/
theorem count?_eq_some {e : Expr} {n : UInt32} (h : Writer.count? (e.operand ctx) = some n) :
    ∃ m type, e.asConstant? = some (.int m, type) ∧ Number.count? m.toInt = some n := by
  unfold Writer.count? at h
  rw [value?_operand] at h
  split at h
  · rename_i m hm
    obtain ⟨⟨v, type⟩, hconstant, rfl⟩ := Option.map_eq_some_iff.mp hm
    exact ⟨m, type, hconstant, h⟩
  · cases h

/-- A count is the same once it is folded, if it still is one. -/
theorem count?_foldsTo {e e' : Expr} (h : e.FoldsTo ctx.library e') {n n' : UInt32}
    (hn : Writer.count? (e.operand ctx) = some n)
    (hn' : Writer.count? (e'.operand ctx) = some n') : n' = n := by
  obtain ⟨m, type, hconstant, hm⟩ := count?_eq_some hn
  obtain ⟨m', type', hconstant', hm'⟩ := count?_eq_some hn'
  have hsame : m' = m := by
    cases h.form with
    | constant _ =>
      rw [hconstant] at hconstant'
      cases hconstant'
      rfl
    | value v hv =>
      obtain ⟨inner, outer, rfl⟩ := eq_convert_of_asConstant? hconstant hv.isNew
      cases hconstant'
      exact convertInt_eq_int hv.value
    | below cs he hstays hcs =>
      obtain ⟨inner, outer, rfl⟩ := eq_convert_of_asConstant? hconstant he
      obtain ⟨c, hc, rfl⟩ := forall₂_singleton hcs
      have hkept := (asConstant?_of_foldsTo hc hstays).symm.trans hconstant'
      cases hkept
      rfl
  rw [hsame, hm] at hm'
  cases hm'
  rfl

theorem pageCount_concur (name : String) {rest rest' : List Expr}
    (h : List.Forall₂ (FoldsTo ctx.library) rest rest') :
    Writer.Concur (Writer.pageCount name (rest.map (operand ctx)))
      (Writer.pageCount name (rest'.map (operand ctx))) := by
  -- without a count on either side the step fails
  cases hn : (rest.map (operand ctx)).head?.bind Writer.count? with
  | none =>
    unfold Writer.pageCount
    rw [hn]
    exact (Writer.fails_throw _).concur
  | some n =>
    cases hn' : (rest'.map (operand ctx)).head?.bind Writer.count? with
    | none =>
      unfold Writer.pageCount
      rw [hn']
      exact (Writer.fails_throw _).concur_right
    | some n' =>
      have hsame : n' = n := by
        cases h with
        | nil => cases hn
        | cons he _ => exact count?_foldsTo he hn hn'
      unfold Writer.pageCount
      rw [hn, hn', hsame]
      exact Writer.concur_congruence.pure n

/-- A paging step: what it is applied to, and its count. -/
theorem pagingStep_concur (name : String) (slot : PageSlot) {os os' : List Expr}
    (hfolds : List.Forall₂ (FoldsTo ctx.library) os os')
    (h : List.Forall₂ (Operand.Related Writer.Concur) ((os.map (operand ctx)).take 1)
      ((os'.map (operand ctx)).take 1)) :
    Writer.Concur (Writer.pagingStep name slot (os.map (operand ctx)))
      (Writer.pagingStep name slot (os'.map (operand ctx))) := by
  have hR := Writer.concur_congruence
  refine hR.receiver name h fun source source' rest rest' heq heq' hsource => ?_
  cases hfolds with
  | nil => cases heq
  | cons _ hrest =>
    cases heq
    cases heq'
    exact hR.bind hsource.visit fun _ => hR.bind (pageCount_concur name hrest) fun n =>
      Writer.concur_setCount name slot n

/-- A list without any items is not written. -/
theorem membership_fails {m : Membership} {operands : List Operand}
    (h : operands.tail.all Operand.isEmptyList = true) : (Writer.membership m operands).Fails := by
  intro d a f hf
  obtain ⟨⟨field, items⟩, g, hreceiver, hf⟩ := Writer.ok_of_bind hf
  cases operands with
  | nil => cases hreceiver
  | cons first rest =>
    cases hreceiver
    simp only [List.tail_cons] at h
    simp only [h, if_true] at hf
    cases hf

theorem membership_concur (m : Membership) {os os' : List Expr}
    (h : List.Forall₂ (Operand.Related Writer.Concur) (os.map (operand ctx))
      (os'.map (operand ctx)))
    (hconstants : os'.tail.map (·.asConstant?.isSome) = os.tail.map (·.asConstant?.isSome)) :
    Writer.Concur (Writer.membership m (os.map (operand ctx)))
      (Writer.membership m (os'.map (operand ctx))) := by
  by_cases hempty : (os.map (operand ctx)).tail.all Operand.isEmptyList = true
  · exact (membership_fails hempty).concur
  by_cases hempty' : (os'.map (operand ctx)).tail.all Operand.isEmptyList = true
  · exact (membership_fails hempty').concur_right
  have hbare : ∀ e : Expr, (e.operand ctx).value?.isNone = !e.asConstant?.isSome := by
    intro e
    rw [value?_operand]
    cases e.asConstant? <;> rfl
  refine Writer.concur_congruence.membership m h ?_ ?_
  · refine forall₂_and_of_map_eq (by simpa using List.forall₂_drop 1 h) ?_
    rw [← List.map_tail, ← List.map_tail, List.map_map, List.map_map]
    have hnone : (fun o : Operand => o.value?.isNone) ∘ operand ctx =
        Bool.not ∘ fun e : Expr => e.asConstant?.isSome := funext hbare
    rw [hnone, ← List.map_map, ← List.map_map, hconstants]
  · rw [Bool.eq_false_iff.mpr hempty, Bool.eq_false_iff.mpr hempty']

theorem isNull_iff (e : Expr) : e.isNull = true ↔ (e.operand ctx).value? = some .null := by
  rw [value?_operand]
  unfold isNull
  split <;> simp_all

theorem history_concur (past : History) {os os' : List Expr}
    (h : List.Forall₂ (Operand.Related Writer.Concur) (os.map (operand ctx))
      (os'.map (operand ctx)))
    (hnull : past ≠ .changed → os'.tail.head?.any isNull = os.tail.head?.any isNull) :
    Writer.Concur (Writer.history past (os.map (operand ctx)))
      (Writer.history past (os'.map (operand ctx))) := by
  refine Writer.concur_congruence.history past h fun hpast value hvalue value' hvalue' => ?_
  have hnull := hnull hpast
  rw [← List.map_tail, List.head?_map] at hvalue hvalue'
  obtain ⟨e, he, rfl⟩ := Option.map_eq_some_iff.mp hvalue
  obtain ⟨e', he', rfl⟩ := Option.map_eq_some_iff.mp hvalue'
  rw [he, he', Option.any_some, Option.any_some] at hnull
  rw [← isNull_iff, ← isNull_iff, hnull]

theorem call_concur {method : Method} {target target' : Option Expr} {args args' : List Expr}
    (hfolds : List.Forall₂ (FoldsTo ctx.library) (operands target args) (operands target' args'))
    (htarget : target'.isSome = target.isSome)
    (hwritten : ∀ c ∈ method.written (operands target args), ∀ c', c.FoldsTo ctx.library c' →
      c.Concurs ctx c')
    (hcue : (call target' method args').cue ctx = (call target method args).cue ctx) :
    Writer.Concur
      (Writer.call method target.isSome (targetOperand ctx target ++ argOperands ctx args))
      (Writer.call method target'.isSome (targetOperand ctx target' ++ argOperands ctx args')) := by
  rw [callOperands_eq, callOperands_eq, htarget]
  have hrelated : List.Forall₂ (Operand.Related Writer.Concur)
      (method.written ((operands target args).map (operand ctx)))
      (method.written ((operands target' args').map (operand ctx))) := by
    rw [Method.written_map, Method.written_map, List.forall₂_map_left_iff,
      List.forall₂_map_right_iff]
    exact forall₂_imp_of_mem (method.forall₂_written hfolds) hwritten
  -- a titled field has no other role
  have hname : ∀ role, Role.ofName method.name = role → role ≠ .other →
      method.name ≠ Remote.customField := by
    intro role hrole hother hname
    rw [hname] at hrole
    exact hother hrole.symm
  refine Writer.concur_congruence.call method _ hrelated ?_ ?_ ?_ ?_
  · -- the title of a field
    intro hremote hname
    simp only [cue, if_pos hname, Cue.title.injEq] at hcue
    simpa [operand_expr, Function.comp_def] using hcue
  · -- paging
    intro hremote op hrole hop slot
    refine pagingStep_concur method.name slot hfolds ?_
    rcases hop with rfl | rfl <;> simpa [Method.written, hremote, hrole] using hrelated
  · -- a list
    intro hremote m hrole
    refine membership_concur m (by simpa [Method.written, hremote, hrole] using hrelated) ?_
    simpa [cue, hname _ hrole, hremote, hrole] using hcue
  · -- a past value
    intro hremote past hrole
    refine history_concur past (by simpa [Method.written, hremote, hrole] using hrelated) ?_
    intro hpast
    cases past with
    | changed => exact absurd rfl hpast
    | was | wasNot => simpa [cue, hname _ hrole, hremote, hrole] using hcue

/-- A property that is evaluated when it is written has the value of its folded
    form, if that has one. -/
theorem member_concur {target target' : Expr} {p : Property} {type : DataType}
    (h : (member target p type).FoldsTo ctx.library (member target' p type)) :
    Writer.Concur (Writer.member ctx (member target p type) p)
      (Writer.member ctx (member target' p type) p) := by
  unfold Writer.member
  cases ctx.fields.get? p with
  | some field => exact Writer.concur_congruence.push _
  | none =>
    cases hv : (member target' p type).eval ctx.library with
    | ok v =>
      rw [h.eval_eq hv]
      exact Writer.concur_congruence.constant _ _ _
    | error failure =>
      refine Writer.Fails.concur_right ?_
      cases failure <;> exact Writer.fails_throw _

end Nodes

/-- What is written with a node stands below it. -/
theorem mem_children_of_mem_writtenBelow {e c : Expr} (h : c ∈ e.writtenBelow) :
    c ∈ e.children := by
  cases e with
  | call target method args => exact Method.mem_of_mem_written h
  | member target p type => cases h
  | construct name args => cases h
  | _ => exact h

/-- **A tree and its folded form are written alike.** -/
theorem operand_concur (ctx : Context) (e : Expr) :
    ∀ e', e.FoldsAlike ctx → e.FoldsTo ctx.library e' → e.Concurs ctx e' := by
  have hR := Writer.concur_congruence
  induction e using induction_on_children with
  | step e ih =>
    intro e' h hfolds
    cases hfolds.form with
    | constant he =>
      obtain ⟨value, type, rfl⟩ := he
      exact hR.ofNode ctx (hR.constant _ value type) rfl rfl
    | value v hv => exact hv.concur (h.literals e v .self hv)
    | below cs he hstays hcs =>
      have hstays' := not_computesTo hstays
      have hcue := h.cues e _ .self hstays' hfolds
      -- only of the nodes that are written is it known that they fold alike
      have hbelow : ∀ c ∈ e.writtenBelow, ∀ c', c.FoldsTo ctx.library c' → c.Concurs ctx c' :=
        fun c hc c' hc' => ih c (mem_children_of_mem_writtenBelow hc) c' (h.below hstays' hc) hc'
      cases e with
      | constant value type => exact absurd ⟨value, type, rfl⟩ he
      | binary op left right =>
        obtain ⟨left', rest, hl, hrest, rfl⟩ := List.forall₂_cons_left_iff.mp hcs
        obtain ⟨right', hr, rfl⟩ := forall₂_singleton hrest
        have hleft := hbelow left (by simp [writtenBelow, children]) left' hl
        have hright := hbelow right (by simp [writtenBelow, children]) right' hr
        have hwritten : IsWritten ctx.library left (binary op left right) :=
          .inside hstays' (by simp [writtenBelow, children]) .self
        have hcueLeft := fun hl' => h.cues left left' hwritten hl' hl
        exact hR.ofNode ctx (binary_concur hl hleft hright hcueLeft hcue) rfl rfl
      | call target method args =>
        obtain ⟨target', args', heq, rfl, htarget⟩ := withChildren_call method hcs.length_eq
        rw [heq] at hcue ⊢
        exact hR.ofNode ctx (call_concur hcs htarget hbelow hcue) rfl rfl
      | member target p type =>
        obtain ⟨target', _, rfl⟩ := forall₂_singleton hcs
        exact hR.ofNode ctx (member_concur hfolds) rfl rfl
      | convert operand type =>
        obtain ⟨operand', ho, rfl⟩ := forall₂_singleton hcs
        have hoperand := hbelow operand (by simp [writtenBelow, children]) operand' ho
        exact hR.ofNode ctx hoperand.visit rfl (asConstant?_of_foldsTo ho hstays)
      | construct name args =>
        exact hR.ofNode ctx (hR.construct ctx name (Cue.arguments.inj hcue)) rfl rfl
      | parameter param =>
        cases hcs
        exact hR.ofNode ctx (hR.unsupported _ _) rfl rfl
      | lambda params body =>
        obtain ⟨body', hb, rfl⟩ := forall₂_singleton hcs
        have hbody := hbelow body (by simp [writtenBelow, children]) body' hb
        exact ⟨(hR.ofNode ctx hbody.visit rfl rfl).visit, hbody.visit⟩
      | quote operand =>
        obtain ⟨operand', ho, rfl⟩ := forall₂_singleton hcs
        have hoperand := hbelow operand (by simp [writtenBelow, children]) operand' ho
        exact ⟨(hR.ofNode ctx hoperand.visit rfl rfl).visit, hoperand.visitBody⟩

/-- **Folding does not change the search.** If a query and its folded form both
    have a search, it is the same one: the same text, and the same paging. -/
theorem compile_fold_eq (ctx : Context) (e : Expr) (halike : e.FoldsAlike ctx) {r : Folded Expr}
    (hfold : e.fold ctx.library = .ok r) {search search' : Search}
    (hcompile : e.compile ctx = .ok search) (hcompile' : r.tree.compile ctx = .ok search') :
    search' = search := by
  obtain ⟨d, hd, rfl⟩ := visit_of_compile ctx hcompile
  obtain ⟨d', hd', rfl⟩ := visit_of_compile ctx hcompile'
  have hconcur := operand_concur ctx e r.tree halike ⟨r, hfold, rfl⟩
  have hblank : Draft.blank.Alike .blank := ⟨rfl, rfl, rfl, rfl, rfl, rfl⟩
  obtain ⟨_, hsame⟩ := hconcur.visit .blank .blank () () d d' hd hd' hblank
  exact hsame.search

/-- Ten issues in a captured state with more than five votes. -/
def capturedState : Chain :=
  { entity := "Issue"
    steps :=
      [.filter (.binary .andAlso
        (.binary .equal (Chain.votedItem.field "Status") (.ofLocal "state" (.str "Open")))
        (.binary .greaterThan (Chain.votedItem.field "Votes")
          (.convert (.ofValue (.int 5)) .int32))),
       .take 10] }

/-- The same with the captured values in place. -/
def capturedStateFolded : Chain :=
  { entity := "Issue"
    steps :=
      [.filter (.binary .andAlso
        (.binary .equal (Chain.votedItem.field "Status") (.ofValue (.str "Open")))
        (.binary .greaterThan (Chain.votedItem.field "Votes") (.constant (.int 5) .int32))),
       .take 10] }

theorem capturedState_foldsAlike : capturedState.toExpr.FoldsAlike Chain.votingContext := by
  have hpair : ∀ {a b : Expr}, a.FoldsAlike Chain.votingContext → b.FoldsAlike Chain.votingContext →
      ∀ c ∈ [a, b], c.FoldsAlike Chain.votingContext :=
    fun ha hb => List.forall_mem_cons.mpr ⟨ha, List.forall_mem_singleton.mpr hb⟩
  have hitem : ∀ name : String, (Chain.votedItem.field name).FoldsAlike Chain.votingContext :=
    fun name => foldsAlike_of_open rfl rfl rfl (List.forall_mem_nil _)
  -- the two parts that are computed
  have hstate : (ofLocal "state" (.str "Open")).FoldsAlike Chain.votingContext :=
    foldsAlike_of_computesTo ⟨fun ⟨_, _, h⟩ => (by cases h), rfl, rfl⟩ rfl
  have hvotes : (convert (ofValue (.int 5)) .int32).FoldsAlike Chain.votingContext :=
    foldsAlike_of_computesTo ⟨fun ⟨_, _, h⟩ => (by cases h), rfl, rfl⟩ rfl
  have hpredicate : (binary .andAlso
      (binary .equal (Chain.votedItem.field "Status") (ofLocal "state" (.str "Open")))
      (binary .greaterThan (Chain.votedItem.field "Votes")
        (convert (ofValue (.int 5)) .int32))).FoldsAlike Chain.votingContext := by
    refine foldsAlike_of_open rfl rfl rfl (hpair ?_ ?_)
    · exact foldsAlike_of_open rfl rfl rfl (hpair (hitem _) hstate)
    · exact foldsAlike_of_open rfl rfl rfl (hpair (hitem _) hvotes)
  -- the steps, the last one first
  refine foldsAlike_of_open rfl rfl rfl (List.forall_mem_singleton.mpr ?_)
  refine foldsAlike_of_open rfl rfl rfl (hpair ?_ ?_)
  · exact foldsAlike_of_open rfl rfl rfl (List.forall_mem_nil _)
  · refine foldsAlike_of_open rfl rfl rfl (List.forall_mem_singleton.mpr ?_)
    exact foldsAlike_of_open rfl rfl rfl (List.forall_mem_singleton.mpr hpredicate)

theorem compile_fold_eq_capturedState :
    capturedState.toExpr.FoldsAlike Chain.votingContext ∧
      capturedState.toExpr.fold .standard =
        .ok { tree := capturedStateFolded.toExpr, changed := true } ∧
      ∃ search, search.text = "(status = \"Open\" AND votes > 5)" ∧ search.maxResults = some 10 ∧
        capturedState.toExpr.compile Chain.votingContext = .ok search ∧
        capturedStateFolded.toExpr.compile Chain.votingContext = .ok search := by
  have hfold : capturedState.toExpr.fold .standard =
      .ok { tree := capturedStateFolded.toExpr, changed := true } := rfl
  have hcompile : ∃ search, capturedStateFolded.toExpr.compile Chain.votingContext = .ok search :=
    ⟨_, rfl⟩
  obtain ⟨search, hsearch⟩ := hcompile
  have hsame := compile_fold_eq Chain.votingContext _ capturedState_foldsAlike hfold rfl hsearch
  exact ⟨capturedState_foldsAlike, hfold, _, rfl, rfl, rfl, hsame ▸ hsearch⟩

/-- The text of the search of a tree as it was given, and of its folded form, if
    both have a search. -/
def bothTexts (ctx : Context) (e : Expr) : Option (String × String) := do
  let search ← (e.compile ctx).toOption
  let r ← (e.fold ctx.library).toOption
  let folded ← (r.tree.compile ctx).toOption
  some (search.text, folded.text)

/-- **What is captured is not always written as its value.** In a list a
    captured value gets a comma before its own; in an equality and as a past
    value a captured absent value leaves nothing behind; a captured title is
    passed over.  And a predicate that is closed is written as a predicate,
    but once it is folded as a truth value. -/
theorem folding_changes_captured_values :
    let issues (p : Expr) : Expr := ({ entity := "Issue", steps := [.filter p] } : Chain).toExpr
    let texts (p : Expr) := (issues p).bothTexts Chain.votingContext
    let status := Chain.votedItem.field "Status"
    texts (status.membership .isIn (ofLocal "state" (.str "Open"))) =
        some ("status in (, \"Open\")", "status in (\"Open\")") ∧
      texts (binary .equal status (ofLocal "state" .null)) =
        some ("status = ", "status is null") ∧
      texts (status.history .was [ofLocal "state" .null]) =
        some ("status was ", "status was empty") ∧
      texts (binary .equal
          (call (some Chain.votedItem) { name := Remote.customField, remote := true }
            [ofLocal "title" (.str "Team"), ofValue (.str "Squad")])
          (ofValue (.str "Blue"))) =
        some ("\"Squad\" ~ \"Blue\"", "\"Team\" ~ \"Blue\"") ∧
      texts (binary .lessThan (ofValue (.int 1)) (ofValue (.int 2))) =
        some ("1 < 2", "\"true\"") :=
  ⟨rfl, rfl, rfl, rfl, rfl⟩

end IssueSearch.Expr
