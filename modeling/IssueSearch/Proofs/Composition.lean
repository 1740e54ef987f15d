import IssueSearch.Proofs.Parts
import IssueSearch.Search.Compile

/-! # What writers are made of

    The writers of all nodes are put together from a few elementary ones: text
    is pushed, the separator is set, paging is said, a filter and an order are
    collected, and all else is a failure.  A property that these have, and that
    passes to writers in succession, is a property of every tree.  So the nodes
    are gone through once, here.

    * `Powers`: which failures a writer may raise, and whether it may say the
      paging or collect clauses.
    * `Writer.Composed`: a writer that is made of elementary ones, within the
      given powers.
    * `Expr.Explains`: what a failure may say about a node.
    * `Expr.operand_composed`: a tree is written within any powers that are
      enough for each of its parts. -/

namespace IssueSearch

/-! ## Roles of names -/

namespace Role

theorem ofName?_eq_some {name : String} {op : Operator} (h : ofName name = .operator op) :
    Operator.ofName? name = some op := by
  unfold ofName at h
  repeat' split at h
  all_goals simp_all

/-- The name of the method that plays the part, if there is only one. -/
def name? : Role → Option String
  | operator op  => some op.name
  | presence p   => some p.name
  | membership m => some m.name
  | history h    => some h.name
  | qualifier q  => some q.name
  | other        => none

/-- A method is named for the part it plays. -/
theorem eq_of_name? {name word : String} (h : (ofName name).name? = some word) : word = name := by
  unfold ofName at h
  repeat' split at h
  case h_2 => cases h
  all_goals
    rename_i hfind
    have hname := List.find?_some hfind
    cases h
    exact beq_iff_eq.mp hname

end Role

/-! ## Elementary writers -/

/-- What a writer may do besides writing text. -/
structure Powers where
  /-- The failures that it may raise. -/
  raises   : SearchError → Prop
  /-- It may say the paging. -/
  pages    : Prop
  /-- It may collect a filter and an order. -/
  collects : Prop

/-- The powers to do anything. -/
def Powers.all : Powers := { raises := fun _ => True, pages := True, collects := True }

namespace Writer

/-- A writer that is made of elementary ones, within the given powers. -/
inductive Composed (powers : Powers) : {α : Type} → Writer α → Prop
  | pure {α : Type} (a : α) : Composed powers (pure a : Writer α)
  | throw {α : Type} {failure : SearchError} :
      powers.raises failure → Composed powers (throw failure : Writer α)
  | bind {α β : Type} {w : Writer α} {k : α → Writer β} :
      Composed powers w → (∀ a, Composed powers (k a)) → Composed powers (w >>= k)
  | push (fragment : String) : Composed powers (push fragment)
  | setSeparator (s : Separator) :
      Composed powers (modify fun d => { d with separator := s } : Writer Unit)
  | nextSeparator : Composed powers nextSeparator
  | node (kind : String) {w : Writer Unit} : Composed powers w → Composed powers (node kind w)
  | setCount {name : String} (slot : PageSlot) (n : UInt32) :
      powers.pages → powers.raises (.unsupported name "may appear at most once per query") →
      Composed powers (setCount name slot n)
  | capture {w : Writer Unit} : powers.collects → Composed powers w → Composed powers (capture w)
  | addFilter (clause : String) : powers.collects → Composed powers (addFilter clause)
  | addOrder (refines descending : Bool) (key : String) :
      powers.collects → Composed powers (addOrder refines descending key)

end Writer

/-- Both ways to write the operand are within the given powers. -/
structure Operand.Composed (powers : Powers) (o : Operand) : Prop where
  visit     : o.visit.Composed powers
  visitBody : o.visitBody.Composed powers

namespace Writer

variable {powers : Powers} {α β : Type}

theorem Composed.ite {c : Prop} [Decidable c] {v w : Writer α} (hv : v.Composed powers)
    (hw : w.Composed powers) : (if c then v else w).Composed powers := by
  split
  · exact hv
  · exact hw

theorem composed_resetSeparator : resetSeparator.Composed powers :=
  .setSeparator .first

theorem composed_unsupported {symbol reason : String}
    (h : ∀ reason, powers.raises (.unsupported symbol reason)) :
    (unsupported symbol reason : Writer α).Composed powers :=
  .throw (h reason)

theorem composed_ofExcept {outcome : Except SearchError α}
    (h : ∀ failure, outcome = .error failure → powers.raises failure) :
    (ofExcept outcome).Composed powers := by
  cases outcome with
  | ok a => exact .pure a
  | error failure => exact .throw (h failure rfl)

theorem composed_constant (escaping : Bool) (value : Value) (type : DataType) :
    (constant escaping value type).Composed powers := by
  unfold constant
  split
  · exact .pure ()
  · exact .pure ()
  · exact .pure ()
  · exact .bind .nextSeparator fun lead => .bind (.setSeparator _) fun _ =>
      .bind (.push lead) fun _ => .push _
  · exact .bind .nextSeparator fun lead => .bind (.push lead) fun _ => .push _

/-! ## Operators -/

section Operators

variable {left right : Operand}

theorem composed_connective (word : String) (hleft : left.Composed powers)
    (hright : right.Composed powers) : (connective word left right).Composed powers :=
  .bind (.push "(") fun _ => .bind hleft.visit fun _ => .bind (.push word) fun _ =>
    .bind hright.visit fun _ => .push ")"

theorem composed_comparison (word : String) (hleft : left.Composed powers)
    (hright : right.Composed powers) : (comparison word left right).Composed powers :=
  .bind hleft.visit fun _ => .bind (.push word) fun _ => .bind composed_resetSeparator fun _ =>
    hright.visit

theorem composed_equality (fields : FieldTable) (op : BinaryOp) (negated : Bool)
    (hschema : ∀ failure, fields.resolve left.expr = .error failure → powers.raises failure)
    (hname : ∀ reason, powers.raises (.unsupported op.name reason))
    (hleft : left.Composed powers) (hright : right.Composed powers) :
    (equality fields op negated left right).Composed powers := by
  unfold equality
  refine .bind (composed_ofExcept hschema) fun field => .ite (composed_unsupported hname) ?_
  refine .bind hleft.visit fun _ => ?_
  dsimp only
  split
  · exact .push _
  · exact .bind (.push _) fun _ => .bind composed_resetSeparator fun _ => hright.visit

theorem composed_binary (ctx : Context) (op : BinaryOp)
    (hschema : ∀ failure, ctx.fields.resolve left.expr = .error failure → powers.raises failure)
    (hname : ∀ reason, powers.raises (.unsupported op.name reason))
    (hleft : left.Composed powers) (hright : right.Composed powers) :
    (binary ctx op left right).Composed powers := by
  cases op with
  | and | andAlso | or | orElse => exact composed_connective _ hleft hright
  | equal | notEqual => exact composed_equality _ _ _ hschema hname hleft hright
  | lessThan | lessThanOrEqual | greaterThan | greaterThanOrEqual =>
    exact composed_comparison _ hleft hright
  | add | subtract | multiply | divide | modulo => exact composed_unsupported hname

end Operators

/-! ## Calls -/

section Calls

variable {operands : List Operand} (h : ∀ o ∈ operands, o.Composed powers)

include h

/-- What follows a receiver is given operands within the powers.  Without
    operands nothing follows. -/
theorem composed_receiver {name : String}
    (hname : ∀ reason, powers.raises (.unsupported name reason))
    {k : Operand × List Operand → Writer β}
    (hk : ∀ first rest, first.Composed powers → (∀ o ∈ rest, o.Composed powers) →
      (k (first, rest)).Composed powers) :
    (receiver name operands >>= k).Composed powers := by
  cases operands with
  | nil => exact .throw (hname "missing receiver")
  | cons first rest =>
    simp only [receiver, pure_bind]
    exact hk first rest (h first List.mem_cons_self) fun o ho => h o (List.mem_cons_of_mem first ho)

/-- A paging step.  A count that is no constant is refused, and so is a second
    one. -/
theorem composed_pagingStep {name : String} (slot : PageSlot)
    (hname : ∀ reason, powers.raises (.unsupported name reason)) (hpages : powers.pages) :
    (pagingStep name slot operands).Composed powers := by
  have hcount : ∀ rest : List Operand, (pageCount name rest).Composed powers := by
    intro rest
    unfold pageCount
    split
    · exact .pure _
    · exact composed_unsupported hname
  refine composed_receiver h hname fun source rest hsource _ => .bind hsource.visit fun _ => ?_
  exact .bind (hcount rest) fun n => .setCount slot n hpages (hname _)

/-- A step of a query.  Filters and orderings collect, and counts say the
    paging. -/
theorem composed_operator {name : String} (op : Operator)
    (hname : ∀ reason, powers.raises (.unsupported name reason))
    (hpages : op = .skip ∨ op = .take → powers.pages)
    (hcollects : op = .filter ∨ (∃ step, op = .sort step) → powers.collects) :
    (operator name op operands).Composed powers := by
  cases op with
  | filter =>
    have hcollects := hcollects (Or.inl rfl)
    refine composed_receiver h hname fun source rest hsource hrest => ?_
    refine .bind hsource.visit fun _ => ?_
    cases rest with
    | nil => exact composed_unsupported hname
    | cons predicate _ =>
      have hpredicate := (hrest predicate List.mem_cons_self).visitBody
      exact .bind composed_resetSeparator fun _ => .bind (.capture hcollects hpredicate)
        fun clause => .addFilter clause hcollects
  | sort step =>
    have hcollects := hcollects (Or.inr ⟨step, rfl⟩)
    refine composed_receiver h hname fun source rest hsource hrest => ?_
    refine .bind hsource.visit fun _ => ?_
    cases rest with
    | nil => exact composed_unsupported hname
    | cons key _ =>
      have hkey := (hrest key List.mem_cons_self).visitBody
      exact .bind (.capture hcollects hkey) fun key => .addOrder _ _ key hcollects
  | skip => exact composed_pagingStep h .startAt hname (hpages (Or.inl rfl))
  | take => exact composed_pagingStep h .maxResults hname (hpages (Or.inr rfl))
  | select | count | any | first | firstOrDefault | toList | distinct =>
    exact composed_receiver h hname fun source _ hsource _ => hsource.visit

theorem composed_presence (p : Presence)
    (hname : ∀ reason, powers.raises (.unsupported p.name reason)) :
    (presence p operands).Composed powers :=
  composed_receiver h hname fun _ _ hsubject _ => .bind hsubject.visit fun _ => .push p.words

theorem composed_listItems : (listItems operands).Composed powers := by
  induction operands with
  | nil => exact .pure ()
  | cons item rest ih =>
    have hitem := (h item List.mem_cons_self).visit
    have hrest := ih fun o ho => h o (List.mem_cons_of_mem item ho)
    have hboth : (do item.visit; listItems rest).Composed powers := .bind hitem fun _ => hrest
    unfold listItems
    exact .ite (.bind .nextSeparator fun lead => .bind (.push lead) fun _ => hboth) hboth

theorem composed_membership (m : Membership)
    (hname : ∀ reason, powers.raises (.unsupported m.name reason)) :
    (membership m operands).Composed powers :=
  composed_receiver h hname fun _ _ hfield hitems => .ite (composed_unsupported hname) <|
    .bind hfield.visit fun _ => .bind (.push _) fun _ => .bind composed_resetSeparator fun _ =>
      .bind (composed_listItems hitems) fun _ => .push ")"

theorem composed_qualifiers : (qualifiers operands).Composed powers := by
  induction operands with
  | nil => exact .pure ()
  | cons q rest ih =>
    have hq := (h q List.mem_cons_self).visit
    have hrest := ih fun o ho => h o (List.mem_cons_of_mem q ho)
    exact .bind (.push " ") fun _ => .bind composed_resetSeparator fun _ => .bind hq fun _ => hrest

omit h in
theorem composed_pastValue {value : Operand} (hvalue : value.Composed powers) :
    (pastValue value).Composed powers := by
  unfold pastValue
  split
  · exact .push _
  · exact hvalue.visit

theorem composed_history (past : History)
    (hname : ∀ reason, powers.raises (.unsupported past.name reason)) :
    (history past operands).Composed powers := by
  refine composed_receiver h hname fun field rest hfield hrest => .bind hfield.visit fun _ => ?_
  cases past with
  | changed => exact .bind (.push _) fun _ => composed_qualifiers hrest
  | was | wasNot =>
    cases rest with
    | nil => exact composed_unsupported hname
    | cons value more =>
      have hvalue := hrest value List.mem_cons_self
      have hmore : ∀ o ∈ more, o.Composed powers :=
        fun o ho => hrest o (List.mem_cons_of_mem value ho)
      exact .bind (.push _) fun _ => .bind composed_resetSeparator fun _ =>
        .bind (composed_pastValue hvalue) fun _ => composed_qualifiers hmore

theorem composed_bounds (q : Qualifier) : (bounds q operands).Composed powers := by
  unfold bounds
  split
  · rename_i low high
    exact .bind (.push "(") fun _ => .bind (h low (by simp)).visit fun _ =>
      .bind (h high (by simp)).visit fun _ => .push ")"
  · exact .pure ()
  · rename_i bound _
    exact (h bound (by simp)).visit
  · exact .pure ()

omit h in
/-- What a restriction is split into comes from its operands. -/
theorem mem_of_splitSubject (q : Qualifier) (hasTarget : Bool) (operands : List Operand) :
    (∀ o ∈ (splitSubject q hasTarget operands).1, o ∈ operands) ∧
      ∀ o ∈ (splitSubject q hasTarget operands).2, o ∈ operands := by
  unfold splitSubject
  split
  · simp
  · split <;> simp +contextual

omit h in
theorem composed_subject {o? : Option Operand} (ho : ∀ o ∈ o?, o.Composed powers) :
    (subject o?).Composed powers := by
  cases o? with
  | none => exact .pure ()
  | some o => exact .bind (ho o rfl).visit fun _ => .push " "

theorem composed_qualifier (q : Qualifier) (hasTarget : Bool)
    (hname : ∀ reason, powers.raises (.unsupported q.name reason)) :
    (qualifier q hasTarget operands).Composed powers := by
  obtain ⟨hsubject, hlimits⟩ := mem_of_splitSubject q hasTarget operands
  refine .ite (composed_unsupported hname) ?_
  exact .bind (composed_subject fun o ho => h o (hsubject o ho)) fun _ => .bind (.push _) fun _ =>
    .bind (.push " ") fun _ => .bind composed_resetSeparator fun _ =>
      composed_bounds (fun o ho => h o (hlimits o ho)) q

theorem composed_remoteFunction {name : String}
    (hname : ∀ reason, powers.raises (.unsupported name reason)) :
    (remoteFunction name operands).Composed powers := by
  match operands, h with
  | [], _ => exact .bind (.push _) fun _ => .bind (.push "(") fun _ => .push ")"
  | [arg], h =>
    exact .bind (.push _) fun _ => .bind (.push "(") fun _ => .bind composed_resetSeparator fun _ =>
      .bind (h arg (by simp)).visit fun _ => .push ")"
  | _ :: _ :: _, _ => exact composed_unsupported hname

/-- A call.  All its failures are about its method, or about a title that it
    should have. -/
theorem composed_call (method : Method) (hasTarget : Bool)
    (hname : ∀ reason, powers.raises (.unsupported method.name reason))
    (htitle : powers.raises (.schema "custom_field requires a literal field name"))
    (hpages : method.remote = false →
      ∀ op, Role.ofName method.name = .operator op → op = .skip ∨ op = .take → powers.pages)
    (hcollects : method.remote = false → ∀ op, Role.ofName method.name = .operator op →
      op = .filter ∨ (∃ step, op = .sort step) → powers.collects) :
    (call method hasTarget operands).Composed powers := by
  cases hremote : method.remote with
  | true =>
    simp only [call, hremote, if_true]
    refine .ite ?_ (composed_remoteFunction h hname)
    split
    · exact .push _
    · exact .throw htitle
  | false =>
    simp only [call, hremote, Bool.false_eq_true, if_false]
    -- a word of the search language fails under its own name, which is the method's
    have hword : ∀ word, (Role.ofName method.name).name? = some word →
        ∀ reason, powers.raises (.unsupported word reason) := by
      intro word hrole
      rw [Role.eq_of_name? hrole]
      exact hname
    cases hrole : Role.ofName method.name with
    | operator op =>
      exact composed_operator h op hname (hpages hremote op hrole) (hcollects hremote op hrole)
    | presence p => exact composed_presence h p (hword _ (by rw [hrole]; rfl))
    | membership m => exact composed_membership h m (hword _ (by rw [hrole]; rfl))
    | history past => exact composed_history h past (hword _ (by rw [hrole]; rfl))
    | qualifier q => exact composed_qualifier h q hasTarget (hword _ (by rw [hrole]; rfl))
    | other => exact composed_unsupported hname

end Calls

end Writer

/-! ## What a failure says about a node -/

namespace Expr

/-- The symbol by which a failure names the node. -/
def symbol? : Expr → Option String
  | call _ method _   => some method.name
  | binary op _ _     => some op.name
  | construct name _  => some name
  | parameter param   => some param.name
  | _                 => none

/-- What is computed while the node itself is written: the value of a property
    that is no searchable field, and what a constructor makes of arguments that
    are constants. -/
def Computes (ctx : Context) (outcome : Except EvalError Value) : Expr → Prop
  | member target p type =>
    ctx.fields.get? p = none ∧ (member target p type).eval ctx.library = outcome
  | construct name args =>
    ∃ values, args.map (fun arg => arg.asConstant?.map Prod.fst) = values.map some ∧
      ctx.library.construct name values = outcome
  | _ => False

/-- The failure names the node, or is what computing the node came to.  A
    failure about a field may be raised anywhere. -/
def Explains (ctx : Context) (e : Expr) : SearchError → Prop
  | .schema _             => True
  | .unsupported symbol _ => e.symbol? = some symbol
  | .evaluation failure   => failure.isUnsupported = false ∧ e.Computes ctx (.error failure)

/-- Is it a step that says which of the results are wanted? -/
def isPagingStep : Expr → Bool
  | call _ method _ =>
    !method.remote && (Operator.ofName? method.name).any fun op => op == .skip || op == .take
  | _ => false

/-- Is it a step that adds to the filter or to the order? -/
def isCollectingStep : Expr → Bool
  | call _ method _ =>
    !method.remote && (Operator.ofName? method.name).any fun op =>
      op.isServerSide && op != .skip && op != .take
  | _ => false

end Expr

/-- The powers are enough for the node itself. -/
structure Powers.Suffice (powers : Powers) (ctx : Context) (e : Expr) : Prop where
  raises   : ∀ failure, e.Explains ctx failure → powers.raises failure
  pages    : e.isPagingStep = true → powers.pages
  collects : e.isCollectingStep = true → powers.collects

/-! ## Trees -/

namespace Expr

theorem operand_expr (ctx : Context) (e : Expr) : (e.operand ctx).expr = e := by
  cases e <;> rfl

theorem argOperands_eq (ctx : Context) (args : List Expr) :
    argOperands ctx args = args.map (operand ctx) := by
  induction args with
  | nil => rfl
  | cons arg rest ih => simp [argOperands, ih]

theorem callOperands_eq (ctx : Context) (target : Option Expr) (args : List Expr) :
    targetOperand ctx target ++ argOperands ctx args =
      (operands target args).map (operand ctx) := by
  cases target <;> simp [targetOperand, argOperands_eq, operands]

end Expr

/-- Resolving a field fails for no other reason than the schema. -/
theorem FieldTable.exists_schema_of_resolve {fields : FieldTable} {e : Expr}
    {failure : SearchError} (h : fields.resolve e = .error failure) :
    ∃ what, failure = .schema what := by
  have hfind : ∀ p, fields.find p = .error failure → ∃ what, failure = .schema what := by
    intro p hp
    unfold FieldTable.find at hp
    split at hp
    · cases hp
    · exact ⟨_, (Except.error.inj hp).symm⟩
  unfold FieldTable.resolve at h
  repeat' split at h
  all_goals first | exact hfind _ h | cases h
  all_goals exact ⟨_, rfl⟩

/-- A failure of any other kind is a genuine one. -/
theorem isUnsupported_eq_false {failure : EvalError}
    (h : ∀ what, failure = .unsupported what → False) : failure.isUnsupported = false := by
  cases failure with
  | unsupported what => exact absurd rfl (h what)
  | typeMismatch | divisionByZero | function => rfl

namespace Writer

variable {powers : Powers} {ctx : Context}

theorem composed_member {target : Expr} {p : Property} {type : DataType}
    (h : powers.Suffice ctx (.member target p type)) :
    (member ctx (.member target p type) p).Composed powers := by
  unfold member
  split
  · exact .push _
  · rename_i hfield
    split
    · exact composed_constant _ _ _
    · exact .throw (h.raises _ trivial)
    · rename_i failure hcomputable heval
      exact .throw (h.raises _ ⟨isUnsupported_eq_false hcomputable, hfield, heval⟩)

/-- The values of operands are those of the constants they stand for. -/
theorem constants?_argOperands (args : List Expr) {values : List Value}
    (h : constants? (Expr.argOperands ctx args) = some values) :
    args.map (fun arg => arg.asConstant?.map Prod.fst) = values.map some := by
  induction args generalizing values with
  | nil =>
    cases h
    rfl
  | cons arg rest ih =>
    obtain ⟨v, hv, vs, hvs, rfl⟩ : ∃ v, (arg.operand ctx).value? = some v ∧
        ∃ vs, constants? (Expr.argOperands ctx rest) = some vs ∧ v :: vs = values := by
      simpa [constants?, Expr.argOperands, Option.bind_eq_some_iff] using h
    rw [Operand.value?, Expr.operand_expr] at hv
    rw [List.map_cons, List.map_cons, hv, ih hvs]

theorem composed_construct {name : String} {args : List Expr}
    (h : powers.Suffice ctx (.construct name args)) :
    (construct ctx name (Expr.argOperands ctx args)).Composed powers := by
  unfold construct
  split
  · exact .throw (h.raises _ rfl)
  · rename_i values hvalues
    split
    · exact composed_constant _ _ _
    · exact .throw (h.raises _ rfl)
    · rename_i failure hregistered hconstruct
      have hargs := constants?_argOperands args hvalues
      exact .throw (h.raises _ ⟨isUnsupported_eq_false hregistered, values, hargs, hconstruct⟩)

theorem composed_ofNode (ctx : Context) (e : Expr) {w : Writer Unit} (hw : w.Composed powers) :
    (Operand.ofNode ctx e w).Composed powers := by
  have hvisit : (Operand.ofNode ctx e w).visit.Composed powers := by
    refine .node _ ?_
    split
    · exact composed_constant _ _ _
    · exact hw
  exact ⟨hvisit, hvisit⟩

end Writer

namespace Expr

/-- **A tree is written within any powers that are enough for its parts.** -/
theorem operand_composed {powers : Powers} {ctx : Context} (e : Expr)
    (h : e.AllParts (powers.Suffice ctx)) : (e.operand ctx).Composed powers := by
  induction e using induction_on_children with
  | step e ih =>
    obtain ⟨hself, hparts⟩ := (allParts_iff e).mp h
    have hbelow : ∀ c ∈ e.children, (c.operand ctx).Composed powers :=
      fun c hc => ih c hc (hparts c hc)
    cases e with
    | binary op left right =>
      have hleft := hbelow left (by simp [children])
      have hright := hbelow right (by simp [children])
      refine Writer.composed_ofNode ctx _ (Writer.composed_binary ctx op ?_ ?_ hleft hright)
      · intro failure hresolve
        obtain ⟨what, rfl⟩ := FieldTable.exists_schema_of_resolve hresolve
        exact hself.raises _ trivial
      · exact fun reason => hself.raises _ rfl
    | call target method args =>
      have hoperands : ∀ o ∈ targetOperand ctx target ++ argOperands ctx args,
          o.Composed powers := by
        intro o ho
        rw [callOperands_eq] at ho
        obtain ⟨c, hc, rfl⟩ := List.mem_map.mp ho
        exact hbelow c hc
      refine Writer.composed_ofNode ctx _ (Writer.composed_call hoperands method _
        (fun reason => hself.raises _ rfl) (hself.raises _ trivial) ?_ ?_)
      · intro hremote op hrole hop
        apply hself.pages
        rcases hop with rfl | rfl <;>
          simp [isPagingStep, hremote, Role.ofName?_eq_some hrole]
      · intro hremote op hrole hop
        apply hself.collects
        rcases hop with rfl | ⟨step, rfl⟩ <;>
          simp [isCollectingStep, hremote, Role.ofName?_eq_some hrole, Operator.isServerSide]
    | member target p type => exact Writer.composed_ofNode ctx _ (Writer.composed_member hself)
    | constant value type =>
      exact Writer.composed_ofNode ctx _ (Writer.composed_constant _ value type)
    | convert operand type =>
      exact Writer.composed_ofNode ctx _ (hbelow operand (by simp [children])).visit
    | construct name args =>
      exact Writer.composed_ofNode ctx _ (Writer.composed_construct hself)
    | parameter param => exact Writer.composed_ofNode ctx _ (.throw (hself.raises _ rfl))
    | lambda params body =>
      have hbody := hbelow body (by simp [children])
      exact ⟨(Writer.composed_ofNode ctx _ hbody.visit).visit, hbody.visit⟩
    | quote operand =>
      have hoperand := hbelow operand (by simp [children])
      exact ⟨(Writer.composed_ofNode ctx _ hoperand.visit).visit, hoperand.visitBody⟩

end Expr

end IssueSearch
