import IssueSearch.Eval.Fold

/-! # The parts of a tree

    Everything below a node is reached through `Expr.children`, so that a
    statement about all nodes of a tree needs one induction and no case for
    the targets and the operands of calls.

    * `Expr.induction_on_children`: what holds of a node whenever it holds of
      the nodes directly below it holds of every tree.
    * `Expr.Within`: one tree is a part of another.
    * `Expr.AllParts`: something holds of every part, with a rule for each kind
      of node.
    * `Expr.withChildren`: a node with other nodes below it.
    * `Expr.isClosed_iff`: a tree is closed exactly when it has no parameter
      and no remote collection among its parts. -/

namespace IssueSearch.Expr

/-! ## Induction -/

/-- A node is larger than what lies directly below it. -/
theorem sizeOf_lt_of_mem_children {c e : Expr} (h : c ∈ e.children) :
    sizeOf c < sizeOf e := by
  cases e with
  | binary op left right =>
    simp only [children, List.mem_cons, List.not_mem_nil, or_false] at h
    rw [binary.sizeOf_spec]
    rcases h with rfl | rfl
    · omega
    · omega
  | call target method args =>
    simp only [children, operands, List.mem_append, Option.mem_toList] at h
    rw [call.sizeOf_spec]
    rcases h with h | h
    · rw [Option.mem_def.mp h, Option.some.sizeOf_spec]
      omega
    · have hlt := List.sizeOf_lt_of_mem h
      omega
  | construct name args =>
    have hlt := List.sizeOf_lt_of_mem (show c ∈ args from h)
    rw [construct.sizeOf_spec]
    omega
  | member target p type =>
    rw [List.mem_singleton.mp (show c ∈ [target] from h), member.sizeOf_spec]
    omega
  | convert operand type =>
    rw [List.mem_singleton.mp (show c ∈ [operand] from h), convert.sizeOf_spec]
    omega
  | lambda params body =>
    rw [List.mem_singleton.mp (show c ∈ [body] from h), lambda.sizeOf_spec]
    omega
  | quote operand =>
    rw [List.mem_singleton.mp (show c ∈ [operand] from h), quote.sizeOf_spec]
    omega
  | constant value type => simp [children] at h
  | parameter param => simp [children] at h

/-- **Induction over the nodes below**: what passes from the nodes directly
    below a node to the node itself holds of every tree. -/
theorem induction_on_children {P : Expr → Prop}
    (step : ∀ e : Expr, (∀ c ∈ e.children, P c) → P e) (e : Expr) : P e :=
  step e fun c hc =>
    have : sizeOf c < sizeOf e := sizeOf_lt_of_mem_children hc
    induction_on_children step c
termination_by sizeOf e

/-! ## Parts -/

/-- `t.Within e`: the tree `t` is `e` itself, or a part of a node directly
    below `e`. -/
inductive Within (t : Expr) : Expr → Prop
  | self : Within t t
  | child {c e : Expr} : c ∈ e.children → Within t c → Within t e

/-- A part is the whole tree, or a part of something directly below it. -/
theorem within_iff {t e : Expr} : t.Within e ↔ t = e ∨ ∃ c ∈ e.children, t.Within c := by
  constructor
  · intro h
    cases h with
    | self => exact Or.inl rfl
    | child hc ht => exact Or.inr ⟨_, hc, ht⟩
  · rintro (rfl | ⟨c, hc, ht⟩)
    · exact .self
    · exact .child hc ht

/-- What holds of all parts holds of the node, and of all parts of what lies
    below it. -/
theorem forall_within_iff {P : Expr → Prop} (e : Expr) :
    (∀ t : Expr, t.Within e → P t) ↔ P e ∧ ∀ c ∈ e.children, ∀ t : Expr, t.Within c → P t := by
  constructor
  · intro h
    exact ⟨h e .self, fun c hc t ht => h t (.child hc ht)⟩
  · rintro ⟨hself, hbelow⟩ t ht
    rcases within_iff.mp ht with rfl | ⟨c, hc, htc⟩
    · exact hself
    · exact hbelow c hc t htc

/-- A part of a part is a part. -/
theorem Within.trans {t u e : Expr} (htu : t.Within u) (hue : u.Within e) : t.Within e := by
  induction hue with
  | self => exact htu
  | child hc _ ih => exact .child hc ih

/-- The property holds of every part of the tree. -/
def AllParts (P : Expr → Prop) (e : Expr) : Prop :=
  ∀ t : Expr, t.Within e → P t

section AllParts

variable {P : Expr → Prop}

theorem allParts_iff (e : Expr) : e.AllParts P ↔ P e ∧ ∀ c ∈ e.children, c.AllParts P :=
  forall_within_iff e

@[simp] theorem allParts_binary (op : BinaryOp) (left right : Expr) :
    (binary op left right).AllParts P ↔
      P (binary op left right) ∧ left.AllParts P ∧ right.AllParts P := by
  rw [allParts_iff]
  simp [children]

@[simp] theorem allParts_call (target : Option Expr) (method : Method) (args : List Expr) :
    (call target method args).AllParts P ↔
      P (call target method args) ∧ ∀ c ∈ operands target args, c.AllParts P :=
  allParts_iff _

@[simp] theorem allParts_member (target : Expr) (p : Property) (type : DataType) :
    (member target p type).AllParts P ↔ P (member target p type) ∧ target.AllParts P := by
  rw [allParts_iff]
  simp [children]

@[simp] theorem allParts_constant (value : Value) (type : DataType) :
    (constant value type).AllParts P ↔ P (constant value type) := by
  rw [allParts_iff]
  simp [children]

@[simp] theorem allParts_parameter (param : Param) :
    (parameter param).AllParts P ↔ P (parameter param) := by
  rw [allParts_iff]
  simp [children]

@[simp] theorem allParts_lambda (params : List Param) (body : Expr) :
    (lambda params body).AllParts P ↔ P (lambda params body) ∧ body.AllParts P := by
  rw [allParts_iff]
  simp [children]

@[simp] theorem allParts_quote (operand : Expr) :
    (quote operand).AllParts P ↔ P (quote operand) ∧ operand.AllParts P := by
  rw [allParts_iff]
  simp [children]

end AllParts

/-- Is the tree a constant? -/
def IsConstant (e : Expr) : Prop :=
  ∃ value type, e = constant value type

/-- Neither a parameter nor a remote collection is a part of the tree. -/
def IsSelfContained (e : Expr) : Prop :=
  ∀ t : Expr, t.Within e →
    (∀ param, t ≠ parameter param) ∧ ∀ entity type, t ≠ constant (.source entity) type

/-- A node is self-contained if what lies below it is, and it is neither a
    parameter nor a remote collection itself. -/
theorem isSelfContained_iff (e : Expr) :
    e.IsSelfContained ↔
      ((∀ param, e ≠ parameter param) ∧ ∀ entity type, e ≠ constant (.source entity) type) ∧
        ∀ c ∈ e.children, c.IsSelfContained :=
  forall_within_iff e

/-! ## Closed trees -/

theorem argsClosed_iff (args : List Expr) :
    argsClosed args = true ↔ ∀ a ∈ args, a.isClosed = true := by
  induction args with
  | nil => simp [argsClosed]
  | cons a rest ih => simp [argsClosed, ih]

theorem targetClosed_iff (target : Option Expr) :
    targetClosed target = true ↔ ∀ t ∈ target.toList, t.isClosed = true := by
  cases target <;> simp [targetClosed]

/-- Whether a tree is closed is decided at the node and at the nodes below. -/
theorem isClosed_iff_children (e : Expr) :
    e.isClosed = true ↔
      ((∀ param, e ≠ parameter param) ∧ ∀ entity type, e ≠ constant (.source entity) type) ∧
        ∀ c ∈ e.children, c.isClosed = true := by
  cases e with
  | call target method args =>
    simp [isClosed, children, operands, targetClosed_iff, argsClosed_iff, or_imp, forall_and]
  | constant value type => cases value <;> simp [isClosed, children, Value.isSource]
  | construct name args => simp [isClosed, children, argsClosed_iff]
  | _ => simp [isClosed, children]

/-- A tree is closed exactly when no parameter and no remote collection is a
    part of it. -/
theorem isClosed_iff (e : Expr) : e.isClosed = true ↔ e.IsSelfContained := by
  induction e using induction_on_children with
  | step e ih =>
    rw [isClosed_iff_children, isSelfContained_iff]
    exact and_congr_right fun _ => forall₂_congr ih

/-! ## Nodes with other nodes below -/

/-- The node with the given nodes below it, as many as it has. -/
def withChildren : Expr → List Expr → Expr
  | binary op _ _, [left, right]             => binary op left right
  | call none method _, args                 => call none method args
  | call (some _) method _, target :: args   => call (some target) method args
  | member _ p type, [target]                => member target p type
  | convert _ type, [operand]                => convert operand type
  | construct name _, args                   => construct name args
  | lambda params _, [body]                  => lambda params body
  | quote _, [operand]                       => quote operand
  | e, _                                     => e

/-- A node with its own nodes below it is that node. -/
theorem withChildren_children (e : Expr) : e.withChildren e.children = e := by
  cases e with
  | call target method args => cases target <;> rfl
  | _ => rfl

/-- A call that is given other nodes is a call of the same method in the same
    style. -/
theorem withChildren_call {target : Option Expr} {args cs : List Expr} (method : Method)
    (h : (operands target args).length = cs.length) :
    ∃ target' args', (call target method args).withChildren cs = call target' method args' ∧
      operands target' args' = cs ∧ target'.isSome = target.isSome := by
  cases target with
  | none => exact ⟨none, cs, rfl, rfl, rfl⟩
  | some t =>
    cases cs with
    | nil => simp [operands] at h
    | cons c rest => exact ⟨some c, rest, rfl, rfl, rfl⟩

/-- A node with other nodes below it is a constant only if it was one before. -/
theorem isConstant_withChildren {e : Expr} {cs : List Expr}
    (h : (e.withChildren cs).IsConstant) : e.IsConstant := by
  unfold withChildren at h
  split at h
  case h_9 => exact h
  all_goals
    obtain ⟨value, type, heq⟩ := h
    cases heq

theorem asConstant?_convert {operand : Expr} (h : ¬ operand.IsConstant) (type : DataType) :
    (convert operand type).asConstant? = none := by
  cases operand with
  | constant value type' => exact absurd ⟨value, type', rfl⟩ h
  | _ => rfl

/-- What counts as a constant, without being one, is a conversion of one. -/
theorem eq_convert_of_asConstant? {e : Expr} {v : Value} {type : DataType}
    (h : e.asConstant? = some (v, type)) (he : ¬ e.IsConstant) :
    ∃ inner outer, e = convert (constant v inner) outer := by
  cases e with
  | constant value type' => exact absurd ⟨value, type', rfl⟩ he
  | convert operand outer =>
    cases operand with
    | constant value inner =>
      cases h
      exact ⟨inner, outer, rfl⟩
    | _ => cases h
  | _ => cases h

end IssueSearch.Expr
