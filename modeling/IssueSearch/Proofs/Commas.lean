import IssueSearch.Proofs.Chains
import IssueSearch.Proofs.Concurrence
import IssueSearch.Proofs.Readable

/-! # Commas between literals

    Whether a comma stands before a literal is told by what was written before
    it.  Lists and operands start that count anew, connectives do not, so a
    literal may get a comma from an operand that is no neighbour of its in any
    list.

    * `Mark`, `Expr.marks`: what writing a tree does to the separator, one mark
      for each time it is taken or started anew.
    * `Writer.Follows`: a writer does to the separator what its marks say, and
      its text takes a comma exactly if its first mark is an item.
    * `Expr.operand_follows`: every tree without steps for the server follows
      its marks.
    * `Expr.compile_connective`: the text of a connective, and when it is the
      texts of its operands with a word between them. -/

namespace IssueSearch

/-! ## Marks -/

/-- What happens to the separator while something is written. -/
inductive Mark where
  /-- A list is started anew. -/
  | fresh
  /-- The separator before an item is taken. -/
  | item
deriving DecidableEq

/-- What stands before the next item after a mark. -/
def Mark.separator : Mark → Separator
  | fresh => .first
  | item  => .later

namespace Separator

/-- What stands before the next item after several marks. -/
def after (s : Separator) (marks : List Mark) : Separator :=
  marks.foldl (fun _ m => m.separator) s

theorem after_append (s : Separator) (ms ns : List Mark) :
    s.after (ms ++ ns) = (s.after ms).after ns :=
  List.foldl_append

end Separator

/-- Does the text go on with the list it stands in? -/
def Mark.joins (marks : List Mark) : Bool := marks.head? = some .item

/-- The second text is the first one with a comma somewhere inside. -/
def TakesComma (text text' : String) : Prop :=
  ∃ before rest, text = before ++ rest ∧ text' = before ++ ", " ++ rest

namespace TakesComma

variable {text text' : String}

theorem prepend (h : TakesComma text text') (lead : String) :
    TakesComma (lead ++ text) (lead ++ text') := by
  obtain ⟨before, rest, rfl, rfl⟩ := h
  exact ⟨lead ++ before, rest, by simp [String.append_assoc], by simp [String.append_assoc]⟩

theorem append (h : TakesComma text text') (more : String) :
    TakesComma (text ++ more) (text' ++ more) := by
  obtain ⟨before, rest, rfl, rfl⟩ := h
  exact ⟨before, rest ++ more, by simp [String.append_assoc], by simp [String.append_assoc]⟩

/-- A text with one more comma is another text. -/
theorem ne (h : TakesComma text text') : text' ≠ text := by
  obtain ⟨before, rest, rfl, rfl⟩ := h
  intro heq
  have hlength := congrArg String.length heq
  simp only [String.length_append] at hlength
  have hcomma : ", ".length = 2 := rfl
  omega

end TakesComma

/-! ## What writing a tree does to the separator -/

/-- Does writing the value leave nothing behind? -/
def Value.isBlank : Value → Bool
  | null | source _ | array [] => true
  | _                          => false

/-- A literal has a text, unless its value leaves nothing behind. -/
theorem Literal.written?_eq (escaping : Bool) (type : DataType) (v : Value) :
    written? escaping type v = if v.isBlank then none else some (scalar escaping type v) := by
  cases v with
  | array items => cases items <;> rfl
  | _ => rfl

/-- A value is an item, unless nothing is written for it. -/
def Value.marks (v : Value) : List Mark :=
  if v.isBlank then [] else [.item]

/-- A node with its marks. -/
structure MarkedNode where
  expr  : Expr
  marks : List Mark

namespace MarkedNode

/-- The items of a list.  A constant takes its own separator; for anything else
    one is taken before it. -/
def itemMarks : List MarkedNode → List Mark
  | []        => []
  | i :: rest =>
    (if i.expr.asConstant?.isNone then .item :: i.marks else i.marks) ++ itemMarks rest

/-- Nodes each of which starts a list of its own. -/
def freshMarks (nodes : List MarkedNode) : List Mark :=
  nodes.flatMap fun n => .fresh :: n.marks

end MarkedNode

open MarkedNode (itemMarks freshMarks)

/-- The marks of an operator.  A comparison starts the list of its right operand
    anew, unless words replace that operand; a connective does not. -/
def BinaryOp.marks (op : BinaryOp) (left right : MarkedNode) : List Mark :=
  match op with
  | .and | .andAlso | .or | .orElse => left.marks ++ right.marks
  | .equal | .notEqual =>
    if (Writer.absence? false false right.expr.asConstant?).isSome then left.marks
    else left.marks ++ .fresh :: right.marks
  | .lessThan | .lessThanOrEqual | .greaterThan | .greaterThanOrEqual =>
    left.marks ++ .fresh :: right.marks
  | _ => []

/-- The marks of a word of the search language. -/
def Role.marks (role : Role) (hasTarget : Bool) : List MarkedNode → List Mark
  | [] => []
  | first :: rest =>
    match role with
    | .operator _ | .presence _ => first.marks
    | .membership _ => first.marks ++ .fresh :: itemMarks rest
    | .history _    => first.marks ++ freshMarks rest
    | .qualifier q  =>
      if hasTarget || q.arity ≤ rest.length then
        first.marks ++ .fresh :: rest.flatMap MarkedNode.marks
      else .fresh :: (first :: rest).flatMap MarkedNode.marks
    | .other => []

/-- The marks of a call. -/
def Method.marks (method : Method) (hasTarget : Bool) (operands : List MarkedNode) : List Mark :=
  if method.remote then
    if method.name = Remote.customField then [] else freshMarks operands
  else (Role.ofName method.name).marks hasTarget operands

namespace Expr

mutual

/-- What writing the tree does to the separator. -/
def marks (ctx : Context) : Expr → List Mark
  | binary op left right => op.marks ⟨left, left.marks ctx⟩ ⟨right, right.marks ctx⟩
  | call target method args =>
    method.marks target.isSome (targetMarked ctx target ++ argsMarked ctx args)
  | member target p type =>
    match ctx.fields.get? p, (member target p type).eval ctx.library with
    | none, .ok value => value.marks
    | _, _            => []
  | constant value _ => value.marks
  | convert e _ => e.marks ctx
  | construct name args =>
    match (Writer.constants? (argOperands ctx args)).map (ctx.library.construct name) with
    | some (.ok value) => value.marks
    | _                => []
  | lambda _ body => body.marks ctx
  | parameter _ => []
  | quote e => e.marks ctx

/-- The target of a call with its marks, if it has one. -/
def targetMarked (ctx : Context) : Option Expr → List MarkedNode
  | none        => []
  | some target => [⟨target, target.marks ctx⟩]

/-- A list of trees with their marks. -/
def argsMarked (ctx : Context) : List Expr → List MarkedNode
  | []          => []
  | arg :: rest => ⟨arg, arg.marks ctx⟩ :: argsMarked ctx rest

end

/-- The tree with its marks. -/
def marked (ctx : Context) (e : Expr) : MarkedNode := ⟨e, e.marks ctx⟩

theorem argsMarked_eq (ctx : Context) (args : List Expr) :
    argsMarked ctx args = args.map (marked ctx) := by
  induction args with
  | nil => rfl
  | cons arg rest ih => simp [argsMarked, ih, marked]

/-- The marks of a call are told by all its operands, its target among them. -/
theorem marks_call (ctx : Context) (target : Option Expr) (method : Method) (args : List Expr) :
    (call target method args).marks ctx =
      method.marks target.isSome ((operands target args).map (marked ctx)) := by
  cases target <;> simp [marks, targetMarked, argsMarked_eq, operands, marked]

theorem marks_of_asConstant? (ctx : Context) {e : Expr} {value : Value} {type : DataType}
    (h : e.asConstant? = some (value, type)) : e.marks ctx = value.marks := by
  cases e with
  | constant v t =>
    obtain ⟨rfl, rfl⟩ : v = value ∧ t = type := by simpa [asConstant?] using h
    rfl
  | convert inner outer =>
    cases inner with
    | constant v t =>
      obtain ⟨rfl, -⟩ : v = value ∧ outer.orElse t = type := by simpa [asConstant?] using h
      rfl
    | _ => simp [asConstant?] at h
  | _ => simp [asConstant?] at h

end Expr

/-! ## Writers that follow their marks -/

namespace Writer

/-- The writer fails from every separator, or it writes a text from each of
    them and does to the separator what the marks say.  The text takes a comma
    if it goes on with a list that has begun, and else it is the same. -/
inductive Follows (w : Writer Unit) (marks : List Mark) : Prop
  | fails (failure : SearchError) (h : ∀ s, w.Emits s (.error failure))
  | writes (text : Separator → String)
      (emits : ∀ s, w.Emits s (.ok ⟨(), text s, s.after marks⟩))
      (takes : Mark.joins marks = true → TakesComma (text .first) (text .later))
      (keeps : Mark.joins marks = false → text .later = text .first)

section Follows

variable {v w : Writer Unit} {ms ns : List Mark}

theorem follows_throw (failure : SearchError) (marks : List Mark) :
    (throw failure : Writer Unit).Follows marks :=
  .fails failure (emits_throw failure)

theorem follows_unsupported (symbol reason : String) (marks : List Mark) :
    (unsupported symbol reason : Writer Unit).Follows marks :=
  follows_throw _ marks

/-- A writer that leaves the separator alone and does not look at it. -/
theorem follows_of_emits {text : String} (h : ∀ s, w.Emits s (.ok ⟨(), text, s⟩)) : w.Follows [] :=
  .writes (fun _ => text) h (by simp [Mark.joins]) fun _ => rfl

theorem follows_pure : (pure () : Writer Unit).Follows [] :=
  follows_of_emits (emits_pure ())

theorem follows_push (fragment : String) : (push fragment).Follows [] :=
  follows_of_emits (emits_push fragment)

theorem follows_resetSeparator : resetSeparator.Follows [.fresh] :=
  .writes (fun _ => "") emits_resetSeparator (by simp [Mark.joins]) fun _ => rfl

/-- A text after its separator is an item. -/
theorem follows_item (text : String) (h : ∀ s, w.Emits s (.ok ⟨(), s.text ++ text, .later⟩)) :
    w.Follows [.item] :=
  .writes (fun s => s.text ++ text) h
    (fun _ => ⟨"", text, by simp [Separator.text], by simp [Separator.text]⟩)
    (by simp [Mark.joins])

/-- **Writers in succession follow their marks in succession.** -/
theorem Follows.bind (hv : v.Follows ms) (hw : w.Follows ns) : (do v; w).Follows (ms ++ ns) := by
  cases hv with
  | fails failure hv => exact .fails failure fun s => (hv s).bind_error
  | writes t hv htakes hkeeps =>
    cases hw with
    | fails failure hw => exact .fails failure fun s => (hv s).bind (k := fun _ => w) (hw _)
    | writes u hw hutakes hukeeps =>
      have hboth : ∀ s, (do v; w).Emits s
          (.ok ⟨(), t s ++ u (s.after ms), s.after (ms ++ ns)⟩) := by
        intro s
        rw [Separator.after_append]
        exact (hv s).bind (k := fun _ => w) (hw (s.after ms))
      cases ms with
      | nil =>
        -- the first writer leaves the separator alone, so the second one meets it
        have hsame : t .later = t .first := hkeeps rfl
        refine .writes _ hboth (fun hjoins => ?_) fun hjoins => ?_
        · rw [hsame]
          exact (hutakes hjoins).prepend _
        · rw [hsame]
          exact congrArg _ (hukeeps hjoins)
      | cons m rest =>
        -- the second writer meets what the first one leaves, whatever was there before
        refine .writes _ hboth (fun hjoins => ?_) fun hjoins => ?_
        · exact (htakes hjoins).append _
        · exact congrArg (· ++ _) (hkeeps hjoins)

/-- A fragment after a writer leaves no mark. -/
theorem Follows.close (hv : v.Follows ms) (fragment : String) :
    (do v; push fragment).Follows ms := by
  have hboth := hv.bind (follows_push fragment)
  rwa [List.append_nil] at hboth

theorem Follows.node (hw : w.Follows ms) (kind : String) : (Writer.node kind w).Follows ms := by
  cases hw with
  | fails failure hw => exact .fails failure fun s => (hw s).node kind
  | writes t hw htakes hkeeps => exact .writes t (fun s => (hw s).node kind) htakes hkeeps

theorem follows_constant (escaping : Bool) (value : Value) (type : DataType) :
    (constant escaping value type).Follows value.marks := by
  rw [constant_eq_literal]
  cases value with
  | null | source _ => exact follows_pure
  | array items =>
    cases items with
    | nil => exact follows_pure
    | cons item rest => exact follows_item _ (emits_separated _)
  | _ => exact follows_item _ (emits_separated _)

end Follows

end Writer

/-- The operand is the node, and it is written as the marks of the node say. -/
structure Operand.Follows (o : Operand) (n : MarkedNode) : Prop where
  expr     : o.expr = n.expr
  constant : ∀ value type, n.expr.asConstant? = some (value, type) → n.marks = value.marks
  visit    : o.visit.Follows n.marks

namespace Writer

/-! ### Operators and words -/

section Operands

variable {left right : Operand} {l r : MarkedNode} {operands : List Operand}
  {nodes : List MarkedNode}

theorem follows_connective (word : String) (hl : left.Follows l) (hr : right.Follows r) :
    (connective word left right).Follows (l.marks ++ r.marks) :=
  (follows_push "(").bind (hl.visit.bind ((follows_push word).bind (hr.visit.close ")")))

theorem follows_comparison (word : String) (hl : left.Follows l) (hr : right.Follows r) :
    (comparison word left right).Follows (l.marks ++ .fresh :: r.marks) :=
  hl.visit.bind ((follows_push word).bind (follows_resetSeparator.bind hr.visit))

/-- Whether words replace a comparison is told by the operand alone. -/
theorem absence?_isSome (dateField negated : Bool) (constant? : Option (Value × DataType)) :
    (absence? dateField negated constant?).isSome = (absence? false false constant?).isSome := by
  cases constant? with
  | none => rfl
  | some c =>
    obtain ⟨value, type⟩ := c
    cases value with
    | null =>
      have hsome : ∀ date negated, (absence? date negated (some (.null, type))).isSome = true := by
        intro date negated
        simp only [absence?]
        split <;> rfl
      rw [hsome, hsome]
    | str s => by_cases hs : s = "" <;> simp [absence?, hs]
    | _ => rfl

theorem follows_equality (fields : FieldTable) (op : BinaryOp) (negated : Bool)
    (hl : left.Follows l) (hr : right.Follows r) :
    (equality fields op negated left right).Follows
      (if (absence? false false r.expr.asConstant?).isSome then l.marks
        else l.marks ++ .fresh :: r.marks) := by
  unfold equality
  cases fields.resolve left.expr with
  | error failure => exact .fails failure fun s => (emits_throw failure s).bind_error
  | ok field =>
    rw [ofExcept, pure_bind]
    split
    · exact follows_unsupported _ _ _
    · rw [← hr.expr, ← absence?_isSome (field.type.isDate || left.expr.staticType.isDate) negated]
      dsimp only
      cases absence? (field.type.isDate || left.expr.staticType.isDate) negated
          right.expr.asConstant? with
      | some p => exact hl.visit.close p.words
      | none => exact follows_comparison _ hl hr

theorem follows_binary (ctx : Context) (op : BinaryOp) (hl : left.Follows l)
    (hr : right.Follows r) : (binary ctx op left right).Follows (op.marks l r) := by
  cases op with
  | and | andAlso | or | orElse => exact follows_connective _ hl hr
  | equal | notEqual => exact follows_equality _ _ _ hl hr
  | lessThan | lessThanOrEqual | greaterThan | greaterThanOrEqual =>
    exact follows_comparison _ hl hr
  | add | subtract | multiply | divide | modulo => exact follows_unsupported _ _ _

theorem follows_presence (p : Presence) (hl : left.Follows l) (rest : List Operand) :
    (presence p (left :: rest)).Follows l.marks :=
  hl.visit.close p.words

/-- A separator is taken before an item that is no constant. -/
theorem follows_listItems (h : List.Forall₂ Operand.Follows operands nodes) :
    (listItems operands).Follows (itemMarks nodes) := by
  induction h with
  | nil => exact follows_pure
  | @cons o n operands nodes ho _ ih =>
    have hrest := ho.visit.bind ih
    have hvalue : o.value?.isNone = n.expr.asConstant?.isNone := by
      simp [Operand.value?, ho.expr]
    unfold listItems itemMarks
    rw [hvalue]
    split
    · have hlead : (nextSeparator >>= push).Follows [.item] :=
        follows_item "" fun s => by
          simpa [Except.map, Emission.andThen] using
            (emits_nextSeparator s).bind (k := push) (emits_push s.text .later)
      have hall := hlead.bind hrest
      simp only [bind_assoc] at hall
      exact hall
    · exact hrest

theorem follows_membership (m : Membership) (hl : left.Follows l)
    (h : List.Forall₂ Operand.Follows operands nodes) :
    (membership m (left :: operands)).Follows (l.marks ++ .fresh :: itemMarks nodes) := by
  have hclose := (follows_listItems h).close ")"
  show (if operands.all Operand.isEmptyList then _ else _ : Writer Unit).Follows _
  split
  · exact follows_unsupported _ _ _
  · exact hl.visit.bind ((follows_push m.words).bind (follows_resetSeparator.bind hclose))

theorem follows_qualifiers (h : List.Forall₂ Operand.Follows operands nodes) :
    (qualifiers operands).Follows (freshMarks nodes) := by
  induction h with
  | nil => exact follows_pure
  | cons ho _ ih =>
    exact (follows_push " ").bind (follows_resetSeparator.bind (ho.visit.bind ih))

/-- The word for nothing takes no separator, and neither does nothing itself. -/
theorem follows_pastValue (hl : left.Follows l) : (pastValue left).Follows l.marks := by
  unfold pastValue
  split
  · rename_i hnull
    obtain ⟨⟨value, type⟩, hconst, hvalue⟩ := Option.map_eq_some_iff.mp hnull
    obtain rfl : value = .null := hvalue
    rw [hl.constant .null type (by rw [← hl.expr, hconst])]
    exact follows_push "empty"
  · exact hl.visit

theorem follows_history (past : History) (hl : left.Follows l)
    (h : List.Forall₂ Operand.Follows operands nodes) :
    (history past (left :: operands)).Follows (l.marks ++ freshMarks nodes) := by
  -- the value that the field held starts a list of its own, as each restriction does
  have hpast : ∀ {value : Operand} {n : MarkedNode} {more : List Operand} {ns : List MarkedNode},
      value.Follows n → List.Forall₂ Operand.Follows more ns → (do
        push past.words; resetSeparator; pastValue value; qualifiers more).Follows
          (freshMarks (n :: ns)) := fun hvalue hmore =>
    (follows_push past.words).bind (follows_resetSeparator.bind
      ((follows_pastValue hvalue).bind (follows_qualifiers hmore)))
  cases past with
  | changed => exact hl.visit.bind ((follows_push _).bind (follows_qualifiers h))
  | was | wasNot =>
    cases h with
    | nil => exact hl.visit.bind (follows_unsupported _ _ _)
    | cons hvalue hmore => exact hl.visit.bind (hpast hvalue hmore)

theorem follows_bounds (q : Qualifier) (h : List.Forall₂ Operand.Follows operands nodes)
    (hlength : operands.length = q.arity) :
    (bounds q operands).Follows (nodes.flatMap MarkedNode.marks) := by
  cases h with
  | nil => cases q <;> simp [Qualifier.arity] at hlength
  | @cons low n operands nodes hlow h =>
    cases h with
    | nil =>
      cases q with
      | during => simp [Qualifier.arity] at hlength
      | _ => simpa [bounds] using hlow.visit
    | @cons high n' operands nodes hhigh h =>
      cases q with
      | during =>
        obtain rfl : operands = [] := by simpa [Qualifier.arity] using hlength
        cases h
        simpa [bounds] using (follows_push "(").bind (hlow.visit.bind (hhigh.visit.close ")"))
      | _ => simp [Qualifier.arity] at hlength

theorem follows_qualifier (q : Qualifier) (hasTarget : Bool)
    (h : List.Forall₂ Operand.Follows operands nodes) :
    (qualifier q hasTarget operands).Follows ((Role.qualifier q).marks hasTarget nodes) := by
  -- the word and the bounds after it, whatever they restrict
  have hword : ∀ {limits : List Operand} {ns : List MarkedNode},
      List.Forall₂ Operand.Follows limits ns → limits.length = q.arity → (do
        push q.name; push " "; resetSeparator; bounds q limits).Follows
          (.fresh :: ns.flatMap MarkedNode.marks) := fun hlimits hlength =>
    (follows_push q.name).bind ((follows_push " ").bind (follows_resetSeparator.bind
      (follows_bounds q hlimits hlength)))
  unfold qualifier
  dsimp only
  split
  · exact follows_unsupported _ _ _
  · rename_i hlength
    rw [not_not] at hlength
    cases h with
    | nil => cases q <;> simp [splitSubject, Qualifier.arity] at hlength
    | @cons o n operands nodes ho hrest =>
      simp only [splitSubject, Role.marks, hrest.length_eq] at hlength ⊢
      split at hlength
      · rename_i hsubject
        rw [if_pos hsubject, if_pos hsubject]
        exact (ho.visit.close " ").bind (hword hrest hlength)
      · rename_i hsubject
        rw [if_neg hsubject, if_neg hsubject]
        exact follows_pure.bind (hword (.cons ho hrest) hlength)

theorem follows_remoteFunction (name : String)
    (h : List.Forall₂ Operand.Follows operands nodes) :
    (remoteFunction name operands).Follows (freshMarks nodes) := by
  have hopen : ∀ {w : Writer Unit} {ms : List Mark}, w.Follows ms → (do
      push (Remote.writtenName name); push "("; w).Follows ms := fun hw =>
    (follows_push _).bind ((follows_push "(").bind hw)
  cases h with
  | nil => exact hopen (follows_push ")")
  | @cons o n operands nodes ho h =>
    cases h with
    | nil =>
      have hclose := ho.visit.bind (follows_push ")")
      exact hopen (follows_resetSeparator.bind hclose)
    | cons _ _ => exact follows_unsupported _ _ _

/-- What has no operands has no receiver. -/
theorem follows_receiver_nil (name : String) (k : Operand × List Operand → Writer Unit)
    (marks : List Mark) : (receiver name [] >>= k).Follows marks :=
  .fails _ fun s => (emits_unsupported _ _ s).bind_error

/-- A step that is left for later is written as what it is applied to. -/
theorem follows_operator (name : String) {op : Operator} (hasTarget : Bool)
    (hside : op.isServerSide = false) (h : List.Forall₂ Operand.Follows operands nodes) :
    (operator name op operands).Follows ((Role.operator op).marks hasTarget nodes) := by
  cases op with
  | filter | sort _ | skip | take => simp [Operator.isServerSide] at hside
  | select | count | any | first | firstOrDefault | toList | distinct =>
    cases h with
    | nil => exact follows_receiver_nil _ _ _
    | cons ho _ => exact ho.visit

/-- A call follows the marks of its method, unless it is a step for the
    server. -/
theorem follows_call {method : Method} (hasTarget : Bool)
    (hmethod : Expr.isServerStep method = false)
    (h : List.Forall₂ Operand.Follows operands nodes) :
    (call method hasTarget operands).Follows (method.marks hasTarget nodes) := by
  cases hremote : method.remote with
  | true =>
    simp only [call, Method.marks, hremote, if_true]
    split
    · split
      · exact follows_push _
      · exact follows_throw _ _
    · exact follows_remoteFunction _ h
  | false =>
    have hname : isServerSideName method.name = false := by
      simpa [Expr.isServerStep, hremote] using hmethod
    simp only [call, Method.marks, hremote, Bool.false_eq_true, if_false]
    cases hrole : Role.ofName method.name with
    | operator op =>
      have hside : op.isServerSide = false := by
        simpa [isServerSideName, Role.ofName?_eq_some hrole] using hname
      exact follows_operator _ hasTarget hside h
    | presence p =>
      cases h with
      | nil => exact follows_receiver_nil _ _ _
      | cons ho _ => exact follows_presence p ho _
    | membership m =>
      cases h with
      | nil => exact follows_receiver_nil _ _ _
      | cons ho hrest => exact follows_membership m ho hrest
    | history past =>
      cases h with
      | nil => exact follows_receiver_nil _ _ _
      | cons ho hrest => exact follows_history past ho hrest
    | qualifier q => exact follows_qualifier q hasTarget h
    | other => exact follows_unsupported _ _ _

end Operands

theorem follows_member (ctx : Context) (target : Expr) (p : Property) (type : DataType) :
    (member ctx (.member target p type) p).Follows ((Expr.member target p type).marks ctx) := by
  simp only [member, Expr.marks]
  cases ctx.fields.get? p with
  | some field => exact follows_push _
  | none =>
    cases (Expr.member target p type).eval ctx.library with
    | ok value => exact follows_constant _ _ _
    | error failure => cases failure <;> exact follows_throw _ _

theorem follows_construct (ctx : Context) (name : String) (args : List Expr) :
    (construct ctx name (Expr.argOperands ctx args)).Follows
      ((Expr.construct name args).marks ctx) := by
  simp only [construct, Expr.marks]
  cases constants? (Expr.argOperands ctx args) with
  | none => exact follows_unsupported _ _ _
  | some values =>
    simp only [Option.map_some]
    cases ctx.library.construct name values with
    | ok value => exact follows_constant _ _ _
    | error failure => cases failure <;> exact follows_throw _ _

end Writer

/-! ## Trees -/

namespace Expr

theorem ofNode_follows (ctx : Context) (e : Expr) {w : Writer Unit}
    (hw : w.Follows (e.marks ctx)) : (Operand.ofNode ctx e w).visit.Follows (e.marks ctx) := by
  refine Writer.Follows.node ?_ _
  split
  · rename_i value type hconst
    rw [marks_of_asConstant? ctx hconst]
    exact Writer.follows_constant _ _ _
  · exact hw

/-- **Trees follow their marks**, as long as they hold no step for the server. -/
theorem operand_follows (ctx : Context) {e : Expr} (h : e.HasNoServerStep) :
    (e.operand ctx).Follows (e.marked ctx) := by
  induction e using induction_on_children with
  | step e ih =>
    have hbelow : ∀ c ∈ e.children, (c.operand ctx).Follows (c.marked ctx) :=
      fun c hc => ih c hc (h.child hc)
    refine ⟨operand_expr ctx e, fun _ _ => marks_of_asConstant? ctx, ?_⟩
    cases e with
    | binary op left right =>
      exact ofNode_follows ctx _ (Writer.follows_binary ctx op (hbelow left (by simp [children]))
        (hbelow right (by simp [children])))
    | call target method args =>
      refine ofNode_follows ctx _ ?_
      rw [callOperands_eq, marks_call]
      refine Writer.follows_call _ (h target method args .self) ?_
      rw [List.forall₂_map_left_iff, List.forall₂_map_right_iff, List.forall₂_same]
      exact hbelow
    | member target p type => exact ofNode_follows ctx _ (Writer.follows_member ctx target p type)
    | constant value type => exact ofNode_follows ctx _ (Writer.follows_constant _ _ _)
    | convert inner type => exact ofNode_follows ctx _ (hbelow inner (by simp [children])).visit
    | construct name args => exact ofNode_follows ctx _ (Writer.follows_construct ctx name args)
    | parameter param => exact ofNode_follows ctx _ (Writer.follows_unsupported _ _ _)
    | lambda params body => exact ofNode_follows ctx _ (hbelow body (by simp [children])).visit
    | quote inner => exact ofNode_follows ctx _ (hbelow inner (by simp [children])).visit

/-- A tree that has a search is written from every separator, and the search is
    what is written where no list has begun. -/
theorem writes_of_compile {ctx : Context} {e : Expr} {marks : List Mark}
    (hfollows : (e.operand ctx).visit.Follows marks) {search : Search}
    (h : e.compile ctx = .ok search) :
    ∃ text : Separator → String,
      (∀ s, (e.operand ctx).visit.Emits s (.ok ⟨(), text s, s.after marks⟩)) ∧
      text .first = search.text ∧
      (Mark.joins marks = true → TakesComma (text .first) (text .later)) ∧
      (Mark.joins marks = false → text .later = text .first) := by
  cases hfollows with
  | fails failure hfails =>
    rw [compile_of_emits ctx (hfails .first)] at h
    cases h
  | writes text hemits htakes hkeeps =>
    rw [compile_of_emits ctx (hemits .first)] at h
    cases h
    exact ⟨text, hemits, rfl, htakes, hkeeps⟩

end Expr

/-! ## Connectives -/

/-- The word of a connective. -/
def BinaryOp.connective? (tightOr : Bool) : BinaryOp → Option String
  | .and | .andAlso => some " AND "
  | .or | .orElse   => some (if tightOr then " OR" else " OR ")
  | _               => none

theorem Writer.binary_of_connective {ctx : Context} {op : BinaryOp} {word : String}
    (hop : op.connective? ctx.options.tightOr = some word) (left right : Operand) :
    binary ctx op left right = connective word left right := by
  cases op with
  | and | andAlso | or | orElse =>
    cases hop
    rfl
  | _ => simp [BinaryOp.connective?] at hop

namespace Expr

/-- Does a literal of the first tree leave a comma to a literal of the second
    one?  It does if no list is started anew after the one and before the
    other. -/
def passesComma (ctx : Context) (a b : Expr) : Bool :=
  Separator.first.after (a.marks ctx) = .later && Mark.joins (b.marks ctx)

/-- **Connectives**: two predicates that have a search have one together.  It is
    the texts of both in parentheses with the word between them, exactly if no
    literal of the first one leaves a comma to a literal of the second one; and
    else the second text has that comma inside. -/
theorem compile_connective (ctx : Context) (op : BinaryOp) {word : String}
    (hop : op.connective? ctx.options.tightOr = some word) (a b : Expr)
    (ha : a.HasNoServerStep) (hb : b.HasNoServerStep) {left right : Search}
    (hleft : a.compile ctx = .ok left) (hright : b.compile ctx = .ok right) :
    ∃ text, (binary op a b).compile ctx =
        .ok { text       := "(" ++ left.text ++ word ++ text ++ ")"
              startAt    := none
              maxResults := none } ∧
      (text = right.text ↔ a.passesComma ctx b = false) ∧
      (a.passesComma ctx b = true → TakesComma right.text text) := by
  obtain ⟨t, hta, htext, -, -⟩ := writes_of_compile (operand_follows ctx ha).visit hleft
  obtain ⟨u, hub, hutext, htakes, hkeeps⟩ := writes_of_compile (operand_follows ctx hb).visit hright
  let met := Separator.first.after (a.marks ctx)
  have hwrites : ((binary op a b).operand ctx).visit.Writes .first
      ("(" ++ (left.text ++ (word ++ (u met ++ ")")))) := by
    refine writes_binary ?_
    rw [Writer.binary_of_connective hop, ← htext]
    have hclose := (hub met).writes (k := fun _ => Writer.push ")") (Writer.writes_push ")" _)
    have hword := (Writer.emits_push word met).writes
      (k := fun _ => do (b.operand ctx).visit; Writer.push ")") hclose
    have hinside := (hta .first).writes
      (k := fun _ => do Writer.push word; (b.operand ctx).visit; Writer.push ")") hword
    exact (Writer.emits_push "(" .first).writes (k := fun _ => do
      (a.operand ctx).visit; Writer.push word; (b.operand ctx).visit; Writer.push ")") hinside
  obtain ⟨next, hemits⟩ := hwrites
  refine ⟨u met, ?_, ?_⟩
  · rw [compile_of_emits ctx hemits]
    simp [Except.map, String.append_assoc]
  · rw [← hutext]
    have hpasses : a.passesComma ctx b = (decide (met = .later) && Mark.joins (b.marks ctx)) := rfl
    rw [hpasses]
    cases hmet : met with
    | first => simp
    | later =>
      -- a list has begun, and the second tree may go on with it
      cases hjoins : Mark.joins (b.marks ctx) with
      | true => simpa using ⟨(htakes hjoins).ne, htakes hjoins⟩
      | false => simpa using hkeeps hjoins

/-- Issues in a state. -/
def openStatus : Expr :=
  .binary .equal (Chain.votedItem.field "Status") (ofValue (.str "Open"))

/-- Issues with more than three votes. -/
def overThreeVotes : Expr :=
  .binary .greaterThan (Chain.votedItem.field "Votes") (ofValue (.int 3))

theorem openStatus_hasNoServerStep : openStatus.HasNoServerStep := by
  simp [openStatus, Chain.votedItem, field, typedField, ofValue]

theorem compile_connective_overThreeVotes :
    openStatus.HasNoServerStep ∧ overThreeVotes.HasNoServerStep ∧
    openStatus.passesComma Chain.votingContext overThreeVotes = false ∧
    (binary .orElse openStatus overThreeVotes).compile Chain.votingContext = .ok
      { text       := "(status = \"Open\" OR votes > 3)"
        startAt    := none
        maxResults := none } := by
  have hvotes : overThreeVotes.HasNoServerStep := by
    simp [overThreeVotes, Chain.votedItem, field, typedField, ofValue]
  have hpasses : openStatus.passesComma Chain.votingContext overThreeVotes = false := rfl
  obtain ⟨text, hsearch, hsame, -⟩ := compile_connective Chain.votingContext .orElse rfl openStatus
    overThreeVotes openStatus_hasNoServerStep hvotes rfl rfl
  rw [hsame.mpr hpasses] at hsearch
  exact ⟨openStatus_hasNoServerStep, hvotes, hpasses, hsearch⟩

/-- **A connective does not start a list anew**: after a comparison with a
    literal, a truth value or a comparison whose literal stands first gets a
    comma that it does not have on its own. -/
theorem connective_passes_comma :
    let text (e : Expr) := (e.compile Chain.votingContext).toOption.map Search.text
    let always := ofValue (.bool true)
    let overFive := binary .lessThan (ofValue (.int 5)) (Chain.votedItem.field "Votes")
    openStatus.HasNoServerStep ∧ always.HasNoServerStep ∧ overFive.HasNoServerStep ∧
      text openStatus = some "status = \"Open\"" ∧
      text always = some "\"true\"" ∧
      text (binary .andAlso openStatus always) = some "(status = \"Open\" AND , \"true\")" ∧
      text overFive = some "5 < votes" ∧
      text (binary .orElse openStatus overFive) = some "(status = \"Open\" OR , 5 < votes)" := by
  refine ⟨openStatus_hasNoServerStep, ?_, ?_, rfl, rfl, rfl, rfl, rfl⟩
  · simp [ofValue]
  · simp [Chain.votedItem, field, typedField, ofValue]

end Expr

end IssueSearch
