import IssueSearch.Proofs.Lists

/-! # Operators and their operands

    A question to a field is its remote name and phrases after it: an operator,
    and the literals of the constants that the operator is given.  The absent
    value, a remote collection and a list without items have no literal, so an
    operator that is given nothing else stands alone.

    * `Phrase`: an operator with the constants it is given.
    * `Phrase.operands`: the text between the operator and what closes it;
      `Phrase.operands_eq_empty_iff` says when nothing is left of it.
    * `Expr.Says`: the phrases of a question with constant operands.
    * `Expr.compile_phrases`: which questions are refused, the text of the
      others, and the operators that stand alone in it. -/

namespace IssueSearch

/-! ## Literals with commas between them -/

namespace Literal

/-- The literals of constants with commas between them.  A constant without a
    literal is passed over. -/
def joined (escaping : Bool) (cs : List (Value × DataType)) : String :=
  ", ".intercalate (cs.filterMap fun c => written? escaping c.2 c.1)

/-- The same, each after its separator. -/
def listed (escaping : Bool) : Separator → List (Value × DataType) → String
  | _, [] => ""
  | s, c :: rest =>
    match written? escaping c.2 c.1 with
    | none      => listed escaping s rest
    | some text => s.text ++ text ++ listed escaping .later rest

theorem listed_eq (escaping : Bool) (s : Separator) (cs : List (Value × DataType)) :
    listed escaping s cs =
      if (cs.filterMap fun c => written? escaping c.2 c.1).isEmpty then ""
      else s.text ++ joined escaping cs := by
  induction cs generalizing s with
  | nil => rfl
  | cons c rest ih =>
    cases hc : written? escaping c.2 c.1 with
    | none => simp only [listed, hc, ih, joined, List.filterMap_cons]
    | some text =>
      simp only [listed, hc, ih, joined, List.filterMap_cons]
      cases rest.filterMap fun c => written? escaping c.2 c.1 with
      | nil => simp
      | cons more texts => simp [String.intercalate_cons_cons, Separator.text, String.append_assoc]

/-- The first of several literals has no comma before it. -/
theorem listed_first (escaping : Bool) (cs : List (Value × DataType)) :
    listed escaping .first cs = joined escaping cs := by
  rw [listed_eq]
  split
  · rename_i hempty
    simp [joined, List.isEmpty_iff.mp hempty]
  · simp [Separator.text]

theorem quoted_ne_empty (escaping : Bool) (s : String) : quoted escaping s ≠ "" := by
  simp [quoted]

theorem item_ne_empty (escaping : Bool) (type : DataType) (value : Value) :
    item escaping type value ≠ "" := by
  cases value with
  | int n =>
    obtain ⟨c, rest, htext, -⟩ := Number.intText_head n.toInt
    have hne : Number.intText n.toInt ≠ "" := by
      intro hempty
      simp [hempty] at htext
    simp only [item]
    split
    · exact quoted_ne_empty escaping _
    · exact hne
  | date d => simp [item, date]
  | _ => exact quoted_ne_empty escaping _

/-- No literal is empty. -/
theorem written?_ne_empty (escaping : Bool) (type : DataType) (value : Value) :
    written? escaping type value ≠ some "" := by
  rw [written?_eq]
  cases value with
  | array items =>
    cases items with
    | nil => simp [Value.isBlank]
    | cons first rest =>
      simp [Value.isBlank, scalar, list, itemsFrom, item_ne_empty]
  | null | source _ => simp [Value.isBlank]
  | _ => simp [Value.isBlank, scalar, item_ne_empty]

/-- Nothing is left of constants exactly if none of them leaves anything. -/
theorem joined_eq_empty_iff (escaping : Bool) (cs : List (Value × DataType)) :
    joined escaping cs = "" ↔ ∀ c ∈ cs, c.1.isBlank = true := by
  have hblank : ∀ c : Value × DataType, written? escaping c.2 c.1 = none ↔ c.1.isBlank = true := by
    intro c
    rw [written?_eq]
    split <;> simp_all
  have htexts : (∀ c ∈ cs, c.1.isBlank = true) ↔
      (cs.filterMap fun c => written? escaping c.2 c.1) = [] := by
    simp only [List.filterMap_eq_nil_iff, hblank]
  rw [htexts, joined]
  cases hall : cs.filterMap fun c => written? escaping c.2 c.1 with
  | nil => simp
  | cons text texts =>
    have hmem : text ∈ cs.filterMap fun c => written? escaping c.2 c.1 := by simp [hall]
    obtain ⟨c, -, hc⟩ := List.mem_filterMap.mp hmem
    have hne : text ≠ "" := by
      rintro rfl
      exact written?_ne_empty escaping c.2 c.1 hc
    cases texts with
    | nil => simp [hne]
    | cons more texts => simp [String.intercalate_cons_cons]

end Literal

/-! ## Phrases -/

/-- Is the value a list without items? -/
def Value.isEmptyList : Value → Bool
  | array [] => true
  | _        => false

/-- Is the value a list? -/
def Value.isList : Value → Bool
  | array _ => true
  | _       => false

/-- An operator with the constants it is given, or a constant that no operator
    stands before. -/
inductive Phrase where
  | order (r : Relation) (bound : Value × DataType)
  | equality (negated isText : Bool) (operand : Value × DataType)
  | member (m : Membership) (items : List (Value × DataType))
  | past (negated : Bool) (value? : Option (Value × DataType))
  | limit (q : Qualifier) (bounds : List (Value × DataType))
  | aside (value : Value × DataType)

namespace Phrase

/-- The operator, with what opens a list or a period. -/
def lead : Phrase → String
  | order r _                 => r.words
  | equality negated isText _ => (Relation.ofEquality isText negated).words
  | member m _                => m.words
  | past negated _            => (History.ofNegated negated).words
  | limit .during _           => " during ("
  | limit q _                 => " " ++ q.name ++ " "
  | aside _                   => " "

/-- What closes a list or a period. -/
def closing : Phrase → String
  | member _ _ | limit .during _ => ")"
  | _                            => ""

/-- The constants that the operator is given. -/
def constants : Phrase → List (Value × DataType)
  | order _ c | equality _ _ c | aside c => [c]
  | member _ cs | limit _ cs             => cs
  | past _ c?                            => c?.toList

/-- Does the phrase ask for a time when the field held nothing? -/
def asksForNothing : Phrase → Bool
  | past _ (some (.null, _)) => true
  | _                        => false

/-- What is written after the operator, before anything is closed. -/
def operands (escaping : Bool) (p : Phrase) : String :=
  if p.asksForNothing then "empty" else Literal.joined escaping p.constants

/-- The phrase with its operator. -/
def text (escaping : Bool) (p : Phrase) : String :=
  p.lead ++ p.operands escaping ++ p.closing

/-- The phrase is given nothing that leaves something behind. -/
def isHollow (p : Phrase) : Bool :=
  !p.asksForNothing && p.constants.all fun c => c.1.isBlank

/-- The search language has no words for the phrase: an equality takes no list, a
    list needs an item that is not an empty list, a past value has to be given, and
    a restriction needs as many bounds as it has. -/
def isRefused : Phrase → Bool
  | order _ _ | aside _ => false
  | equality _ _ c      => c.1.isList
  | member _ cs         => cs.all fun c => c.1.isEmptyList
  | past _ c?           => c?.isNone
  | limit q cs          => cs.length ≠ q.arity

theorem text_order (escaping : Bool) (r : Relation) (c : Value × DataType) :
    (order r c).text escaping = r.words ++ Literal.joined escaping [c] := by
  simp [text, lead, operands, asksForNothing, constants, closing]

theorem text_equality (escaping negated isText : Bool) (c : Value × DataType) :
    (equality negated isText c).text escaping =
      (Relation.ofEquality isText negated).words ++ Literal.joined escaping [c] := by
  simp [text, lead, operands, asksForNothing, constants, closing]

theorem text_member (escaping : Bool) (m : Membership) (cs : List (Value × DataType)) :
    (member m cs).text escaping = m.words ++ (Literal.joined escaping cs ++ ")") := by
  simp [text, lead, operands, asksForNothing, constants, closing, String.append_assoc]

theorem text_past (escaping negated : Bool) (c : Value × DataType) :
    (past negated (some c)).text escaping =
      (History.ofNegated negated).words ++ (past negated (some c)).operands escaping := by
  simp [text, lead, closing]

theorem text_aside (escaping : Bool) (c : Value × DataType) :
    (aside c).text escaping = " " ++ Literal.joined escaping [c] := by
  simp [text, lead, operands, asksForNothing, constants, closing]

/-- The bounds of a restriction. -/
def boundsText (escaping : Bool) (q : Qualifier) (bounds : List (Value × DataType)) : String :=
  match q with
  | .during => "(" ++ Literal.joined escaping bounds ++ ")"
  | _       => Literal.joined escaping bounds

/-- A restriction is its word and its bounds, each after a space. -/
theorem text_limit (escaping : Bool) (q : Qualifier) (bounds : List (Value × DataType)) :
    (limit q bounds).text escaping = " " ++ (q.name ++ (" " ++ boundsText escaping q bounds)) := by
  cases q <;> simp [text, lead, operands, asksForNothing, constants, closing, boundsText,
    Qualifier.name, ← String.append_assoc]

/-- **An operator stands alone** exactly if it is given nothing that leaves
    something behind. -/
theorem operands_eq_empty_iff (escaping : Bool) (p : Phrase) :
    p.operands escaping = "" ↔ p.isHollow = true := by
  unfold operands isHollow
  cases p.asksForNothing with
  | true => simp
  | false => simp [Literal.joined_eq_empty_iff]

end Phrase

/-- The text of phrases in succession. -/
def phrasesText (escaping : Bool) : List Phrase → String
  | []        => ""
  | p :: rest => p.text escaping ++ phrasesText escaping rest

theorem phrasesText_append (escaping : Bool) (ps qs : List Phrase) :
    phrasesText escaping (ps ++ qs) = phrasesText escaping ps ++ phrasesText escaping qs := by
  induction ps with
  | nil => simp [phrasesText]
  | cons p rest ih => simp [phrasesText, ih, String.append_assoc]

/-! ## Writers that write a text or refuse -/

namespace Writer

/-- Whatever the separator, the writer fails if it refuses, and else it writes the
    text. -/
inductive Yields (w : Writer Unit) (text : String) : Bool → Prop
  | writes (h : ∀ s, w.Writes s text) : Yields w text false
  | refuses (h : ∀ s, ∃ failure, w.Emits s (.error failure)) : Yields w text true

section Yields

variable {v w : Writer Unit} {t u : String} {a b : Bool}

theorem yields_push (fragment : String) : (push fragment).Yields fragment false :=
  .writes (writes_push fragment)

theorem yields_unsupported (symbol reason text : String) :
    (unsupported symbol reason : Writer Unit).Yields text true :=
  .refuses fun s => ⟨_, emits_unsupported symbol reason s⟩

/-- Writers in succession refuse if one of them does. -/
theorem Yields.bind (hv : v.Yields t a) (hw : w.Yields u b) :
    (do v; w).Yields (t ++ u) (a || b) := by
  cases hv with
  | refuses hv =>
    refine .refuses fun s => ?_
    obtain ⟨failure, hfails⟩ := hv s
    exact ⟨failure, hfails.bind_error⟩
  | writes hv =>
    cases hw with
    | writes hw => exact .writes fun s => (hv s).bind hw
    | refuses hw =>
      refine .refuses fun s => ?_
      obtain ⟨next, hemits⟩ := hv s
      obtain ⟨failure, hfails⟩ := hw next
      exact ⟨failure, hemits.bind (k := fun _ => w) hfails⟩

theorem Yields.node (hw : w.Yields t a) (kind : String) : (Writer.node kind w).Yields t a := by
  cases hw with
  | writes hw => exact .writes fun s => (hw s).node kind
  | refuses hw =>
    refine .refuses fun s => ?_
    obtain ⟨failure, hfails⟩ := hw s
    exact ⟨failure, hfails.node kind⟩

theorem yields_fresh : resetSeparator.Yields "" false :=
  .writes fun s => ⟨.first, emits_resetSeparator s⟩

/-- What starts a list anew does not depend on the list before it. -/
theorem yields_resetSeparator (hw : w.Writes .first t) :
    (do resetSeparator; w).Yields t false :=
  .writes (writes_resetSeparator hw)

end Yields

end Writer

/-! ## Questions with constant operands -/

namespace Expr

/-- `AreConstants es cs`: the nodes are the constants. -/
def AreConstants : List Expr → List (Value × DataType) → Prop :=
  List.Forall₂ fun e c => e.asConstant? = some c

/-- `Supplements e p`: the node is a restriction that applies to no predicate of its
    own, or a constant.  What is asked of the past of a field may go on with these. -/
inductive Supplements : Expr → Phrase → Prop
  | limit (q : Qualifier) {args : List Expr} {cs : List (Value × DataType)}
      (hargs : AreConstants args cs) (hlength : cs.length ≤ q.arity) :
      Supplements (call none { name := q.name, remote := false } args) (.limit q cs)
  | aside {e : Expr} {c : Value × DataType} (hconst : e.asConstant? = some c) :
      Supplements e (.aside c)

/-- The node is a field named by the title. -/
def IsTitled (e : Expr) (title : String) : Prop :=
  ∃ target args, e = call target { name := Remote.customField, remote := true } args ∧
    title? (operands target args) = some title

/-- `Names ctx e f`: the node names a field of the table, or a field by its
    title. -/
inductive Names (ctx : Context) : Expr → Field → Prop
  | row (n : FieldNode ctx.fields) : Names ctx n.expr n.field
  | title {e : Expr} {title : String} (h : e.IsTitled title) : Names ctx e (titledField title)

/-- `Says ctx e start phrases`: the node asks a field with constant operands.  Its
    text starts with words that need no operand, and goes on with the phrases. -/
inductive Says (ctx : Context) : Expr → String → List Phrase → Prop
  | field {e : Expr} {f : Field} (hfield : Names ctx e f) : Says ctx e f.remoteName []
  | order {left right : Expr} {f : Field} {op : BinaryOp} {r : Relation} {c : Value × DataType}
      (hfield : Names ctx left f) (hop : Relation.ofOrder? op = some r)
      (hconst : right.asConstant? = some c) :
      Says ctx (binary op left right) f.remoteName [.order r c]
  | equality {left right : Expr} {f : Field} {op : BinaryOp} {negated : Bool} {value : Value}
      {type : DataType} (hfield : Names ctx left f) (hop : op.negates? = some negated)
      (hconst : right.asConstant? = some (value, type)) (hnull : value ≠ .null)
      (hblank : value ≠ .str "") :
      Says ctx (binary op left right) f.remoteName
        [.equality negated (f.abilities.has .contains) (value, type)]
  | null {left right : Expr} {f : Field} {op : BinaryOp} {negated : Bool} {type : DataType}
      (hfield : Names ctx left f) (hop : op.negates? = some negated)
      (hconst : right.asConstant? = some (.null, type)) :
      Says ctx (binary op left right)
        (f.remoteName ++ (Presence.ofNull
          (f.type.isDate || left.staticType.isDate || type.isDate) negated).words) []
  | blank {left right : Expr} {f : Field} {op : BinaryOp} {negated : Bool} {type : DataType}
      (hfield : Names ctx left f) (hop : op.negates? = some negated)
      (hconst : right.asConstant? = some (.str "", type)) :
      Says ctx (binary op left right) (f.remoteName ++ (Presence.ofNull true negated).words) []
  | membership {field : Expr} {f : Field} (m : Membership) {target : Option Expr}
      {args items : List Expr} {cs : List (Value × DataType)} (hfield : Names ctx field f)
      (hoperands : operands target args = field :: items) (hitems : AreConstants items cs) :
      Says ctx (call target { name := m.name, remote := false } args) f.remoteName
        [.member m cs]
  | past {field value : Expr} {f : Field} (negated : Bool) {target : Option Expr}
      {args more : List Expr} {c : Value × DataType} {phrases : List Phrase}
      (hfield : Names ctx field f) (hoperands : operands target args = field :: value :: more)
      (hvalue : value.asConstant? = some c) (hmore : List.Forall₂ Supplements more phrases) :
      Says ctx (call target { name := (History.ofNegated negated).name, remote := false } args)
        f.remoteName (.past negated (some c) :: phrases)
  | pastOfNothing {field : Expr} {f : Field} (negated : Bool) {target : Option Expr}
      {args : List Expr} (hfield : Names ctx field f)
      (hoperands : operands target args = [field]) :
      Says ctx (call target { name := (History.ofNegated negated).name, remote := false } args)
        f.remoteName [.past negated none]
  | changed {field : Expr} {f : Field} {target : Option Expr} {args more : List Expr}
      {phrases : List Phrase} (hfield : Names ctx field f)
      (hoperands : operands target args = field :: more)
      (hmore : List.Forall₂ Supplements more phrases) :
      Says ctx (call target { name := History.changed.name, remote := false } args)
        (f.remoteName ++ History.changed.words) phrases
  | limited (q : Qualifier) {target : Option Expr} {args bounds : List Expr} {subject : Expr}
      {cs : List (Value × DataType)} {start : String} {phrases : List Phrase}
      (hsubject : Says ctx subject start phrases)
      (hoperands : operands target args = subject :: bounds) (hbounds : AreConstants bounds cs)
      (hsplit : target.isSome = true ∨ q.arity ≤ cs.length) :
      Says ctx (call target { name := q.name, remote := false } args) start
        (phrases ++ [.limit q cs])

section Writing

variable {ctx : Context}

/-- Constants in succession are written as their literals, each after its
    separator, before whatever comes after them. -/
theorem AreConstants.writes {es : List Expr} {cs : List (Value × DataType)}
    (h : AreConstants es cs) {w : Writer Unit} {more : String} (hw : ∀ s, w.Writes s more)
    (s : Separator) :
    ((es.map (operand ctx)).foldr (fun o next => do o.visit; next) w).Writes s
      (Literal.listed ctx.options.escaping s cs ++ more) := by
  induction h generalizing s with
  | nil => simpa [Literal.listed] using hw s
  | @cons e c es cs hconst _ ih =>
    obtain ⟨value, type⟩ := c
    cases hblank : value.isBlank with
    | true =>
      have hvisit : (e.operand ctx).visit.Emits s (.ok ⟨(), "", s⟩) := by
        rw [visit_of_asConstant? hconst, Writer.constant_eq_literal, Literal.written?_eq, hblank]
        exact (Writer.emits_pure () s).node _
      have hboth := hvisit.writes (k := fun _ => _) (ih s)
      simpa [Literal.listed, Literal.written?_eq, hblank] using hboth
    | false =>
      have hvisit : (e.operand ctx).visit.Emits s _ := emits_constant hconst hblank s
      have hboth := hvisit.writes (k := fun _ => _) (ih .later)
      simpa [Literal.listed, Literal.written?_eq, hblank, String.append_assoc] using hboth

/-- The constants of a list, where the list starts. -/
theorem AreConstants.writes_joined (ctx : Context) {es : List Expr} {cs : List (Value × DataType)}
    (h : AreConstants es cs) {w : Writer Unit} {more : String} (hw : ∀ s, w.Writes s more) :
    ((es.map (operand ctx)).foldr (fun o next => do o.visit; next) w).Writes .first
      (Literal.joined ctx.options.escaping cs ++ more) := by
  rw [← Literal.listed_first]
  exact h.writes hw .first

/-- A single constant, where a list starts. -/
theorem writes_joined (ctx : Context) {e : Expr} {c : Value × DataType}
    (h : e.asConstant? = some c) :
    (e.operand ctx).visit.Writes .first (Literal.joined ctx.options.escaping [c]) := by
  have hconstants : AreConstants [e] [c] := .cons h .nil
  simpa using hconstants.writes_joined ctx fun s => ⟨s, Writer.emits_pure () s⟩

theorem AreConstants.listItems_eq {es : List Expr} {cs : List (Value × DataType)}
    (h : AreConstants es cs) :
    Writer.listItems (es.map (operand ctx)) =
      (es.map (operand ctx)).foldr (fun o next => do o.visit; next) (pure ()) := by
  induction h with
  | nil => rfl
  | @cons e c es cs hconst _ ih =>
    have hsome : ((e.operand ctx).value?).isNone = false := by simp [value?_operand, hconst]
    simp [Writer.listItems, hsome, ih]

theorem AreConstants.all_isEmptyList {es : List Expr} {cs : List (Value × DataType)}
    (h : AreConstants es cs) :
    (es.map (operand ctx)).all Operand.isEmptyList = cs.all fun c => c.1.isEmptyList := by
  induction h with
  | nil => rfl
  | @cons e c es cs hconst _ ih =>
    have hitem : (e.operand ctx).isEmptyList = c.1.isEmptyList := by
      simp only [Operand.isEmptyList, value?_operand, hconst, Option.map_some]
      obtain ⟨value, type⟩ := c
      cases value with
      | array items => cases items <;> rfl
      | _ => rfl
    simp only [List.map_cons, List.all_cons, hitem, ih]

/-! ### Operators -/

theorem Names.resolve {e : Expr} {f : Field} (h : Names ctx e f) :
    ctx.fields.resolve e = .ok f := by
  cases h with
  | row n => exact resolve_field n
  | title h =>
    obtain ⟨target, args, rfl, htitle⟩ := h
    simp [FieldTable.resolve, htitle]

/-- A field is written as its remote name. -/
theorem Names.yields {e : Expr} {f : Field} (h : Names ctx e f) :
    (e.operand ctx).visit.Yields f.remoteName false := by
  cases h with
  | row n => exact .writes (writes_field n)
  | @title _ title h =>
    obtain ⟨target, args, rfl, htitle⟩ := h
    have hkey : keyText? ctx.fields
        (call target { name := Remote.customField, remote := true } args) =
        some (titledField title).remoteName := by
      simp [keyText?, htitle]
    exact .writes fun s => ⟨s, emits_sortKey hkey s⟩

/-- A field, an operator, and a single constant. -/
theorem yields_comparison {left right : Expr} {name : String} {c : Value × DataType}
    (hfield : (left.operand ctx).visit.Yields name false) (word : String)
    (hconst : right.asConstant? = some c) :
    (Writer.comparison word (left.operand ctx) (right.operand ctx)).Yields
      (name ++ (word ++ Literal.joined ctx.options.escaping [c])) false :=
  hfield.bind
    ((Writer.yields_push word).bind (Writer.yields_resetSeparator (writes_joined ctx hconst)))

/-- A field, an operator, and a list of constants. -/
theorem yields_membership {field : Expr} {f : Field} (hfield : Names ctx field f) (m : Membership)
    {items : List Expr} {cs : List (Value × DataType)} (h : AreConstants items cs) :
    (Writer.membership m (field.operand ctx :: items.map (operand ctx))).Yields
      (f.remoteName ++ (Phrase.member m cs).text ctx.options.escaping)
      (Phrase.member m cs).isRefused := by
  show Writer.Yields (if (items.map (operand ctx)).all Operand.isEmptyList then _ else _) _
    (cs.all fun c => c.1.isEmptyList)
  rw [h.all_isEmptyList]
  cases hempty : cs.all fun c => c.1.isEmptyList with
  | true => exact Writer.yields_unsupported _ _ _
  | false =>
    have hitems : (do Writer.listItems (items.map (operand ctx)); Writer.push ")").Writes .first
        (Literal.joined ctx.options.escaping cs ++ ")") := by
      have hlist : (Writer.listItems (items.map (operand ctx))).Writes .first
          (Literal.joined ctx.options.escaping cs ++ "") := by
        rw [h.listItems_eq]
        exact h.writes_joined ctx fun s => ⟨s, Writer.emits_pure () s⟩
      rw [String.append_empty] at hlist
      exact hlist.bind (Writer.writes_push ")")
    rw [Phrase.text_member]
    exact hfield.yields.bind
      ((Writer.yields_push m.words).bind (Writer.yields_resetSeparator hitems))

/-- As many bounds as a restriction has, where their list starts. -/
theorem writes_bounds (q : Qualifier) {bounds : List Expr} {cs : List (Value × DataType)}
    (h : AreConstants bounds cs) (hlength : cs.length = q.arity) :
    (Writer.bounds q (bounds.map (operand ctx))).Writes .first
      (Phrase.boundsText ctx.options.escaping q cs) := by
  cases q with
  | during =>
    obtain ⟨low, high, rfl⟩ := List.length_eq_two.mp hlength
    have hperiod := (Writer.emits_push "(" .first).writes (k := fun _ => _)
      (h.writes_joined ctx (Writer.writes_push ")"))
    cases h with
    | cons _ hrest =>
      cases hrest with
      | cons _ hnil =>
        cases hnil
        rw [Phrase.boundsText, String.append_assoc]
        exact hperiod
  | _ =>
    obtain ⟨bound, rfl⟩ := List.length_eq_one_iff.mp hlength
    cases h with
    | cons hbound hnil =>
      cases hnil
      exact writes_joined ctx hbound

/-- The word of a restriction and its bounds. -/
theorem yields_limit (ctx : Context) (q : Qualifier) {bounds : List Expr}
    {cs : List (Value × DataType)} (h : AreConstants bounds cs) (hlength : cs.length = q.arity) :
    (do
      Writer.push q.name
      Writer.push " "
      Writer.resetSeparator
      Writer.bounds q (bounds.map (operand ctx))).Yields
      (q.name ++ (" " ++ Phrase.boundsText ctx.options.escaping q cs)) false :=
  (Writer.yields_push q.name).bind
    ((Writer.yields_push " ").bind (Writer.yields_resetSeparator (writes_bounds q h hlength)))

/-- An operator node yields what the operator makes of its operands. -/
theorem yields_binary {op : BinaryOp} {left right : Expr} {text : String} {refused : Bool}
    (h : (Writer.binary ctx op (left.operand ctx) (right.operand ctx)).Yields text refused) :
    ((binary op left right).operand ctx).visit.Yields text refused :=
  h.node _

/-- A call yields what its method makes of all its operands. -/
theorem yields_call {target : Option Expr} {method : Method} {args : List Expr} {text : String}
    {refused : Bool}
    (h : (Writer.call method target.isSome ((operands target args).map (operand ctx))).Yields text
      refused) :
    ((call target method args).operand ctx).visit.Yields text refused := by
  rw [← callOperands_eq] at h
  exact Writer.Yields.node h _

/-- Bounds alone are not taken for the predicate that a restriction applies to. -/
theorem AreConstants.splitSubject_eq (ctx : Context) (q : Qualifier) {bounds : List Expr}
    {cs : List (Value × DataType)} (h : AreConstants bounds cs) (hlength : cs.length ≤ q.arity) :
    Writer.splitSubject q false (bounds.map (operand ctx)) = (none, bounds.map (operand ctx)) := by
  cases h with
  | nil => rfl
  | @cons bound c rest cs _ hrest =>
    have hfew : rest.length < q.arity := by
      rw [hrest.length_eq]
      exact hlength
    simp [Writer.splitSubject, hfew]

/-- A restriction, or a constant, after a space. -/
theorem Supplements.yields (ctx : Context) {e : Expr} {p : Phrase} (h : Supplements e p) :
    (do Writer.push " "; Writer.resetSeparator; (e.operand ctx).visit).Yields
      (p.text ctx.options.escaping) p.isRefused := by
  cases h with
  | @limit q args cs hargs hlength =>
    have hcount : (args.map (operand ctx)).length = cs.length := by simp [hargs.length_eq]
    have hvisit : ((call none { name := q.name, remote := false } args).operand ctx).visit.Yields
        (q.name ++ (" " ++ Phrase.boundsText ctx.options.escaping q cs))
        (Phrase.limit q cs).isRefused := by
      refine yields_call ?_
      rw [Writer.call_qualifier]
      show (Writer.qualifier q false (args.map (operand ctx))).Yields _ _
      simp only [Writer.qualifier, hargs.splitSubject_eq ctx q hlength, hcount, Phrase.isRefused]
      by_cases harity : cs.length = q.arity
      · simpa [harity, Writer.subject] using yields_limit ctx q hargs harity
      · simpa [harity] using Writer.yields_unsupported _ _ _
    rw [Phrase.text_limit]
    have hboth := (Writer.yields_push " ").bind (Writer.yields_fresh.bind hvisit)
    simpa using hboth
  | aside hconst =>
    rw [Phrase.text_aside]
    exact (Writer.yields_push " ").bind (Writer.yields_resetSeparator (writes_joined ctx hconst))

/-- Restrictions and constants in succession, each after a space. -/
theorem yields_supplements (ctx : Context) {more : List Expr} {phrases : List Phrase}
    (h : List.Forall₂ Supplements more phrases) :
    (Writer.qualifiers (more.map (operand ctx))).Yields
      (phrasesText ctx.options.escaping phrases) (phrases.any Phrase.isRefused) := by
  induction h with
  | nil => exact .writes fun s => ⟨s, Writer.emits_pure () s⟩
  | @cons e p more phrases hnode _ ih =>
    have hboth := (hnode.yields ctx).bind ih
    simpa [Writer.qualifiers, phrasesText] using hboth

/-- An equality with something that words do not replace. -/
theorem yields_equality {left right : Expr} {f : Field}
    (hresolve : ctx.fields.resolve left = .ok f)
    (hfield : (left.operand ctx).visit.Yields f.remoteName false)
    {op : BinaryOp} {negated : Bool} {value : Value} {type : DataType}
    (hop : op.negates? = some negated) (hconst : right.asConstant? = some (value, type))
    (hnull : value ≠ .null) (hblank : value ≠ .str "") :
    ((binary op left right).operand ctx).visit.Yields
      (f.remoteName ++ ((Phrase.equality negated (f.abilities.has .contains)
        (value, type)).text ctx.options.escaping)) value.isList := by
  refine yields_binary ?_
  rw [binary_of_negates hop]
  cases hlist : value.isList with
  | true =>
    have hright : Writer.isList (right.operand ctx) = true := by
      simp only [Writer.isList, value?_operand, hconst, Option.map_some]
      cases value with
      | array items => rfl
      | _ => cases hlist
    simp only [Writer.equality, operand_expr, hresolve, Writer.ofExcept, pure_bind, hright,
      if_true]
    exact Writer.yields_unsupported _ _ _
  | false =>
    have hvalue : ∀ items, value ≠ .array items := by
      rintro items rfl
      cases hlist
    have habsence : ∀ isDate, Writer.absence? isDate negated (some (value, type)) = none := by
      intro isDate
      cases value with
      | null => exact absurd rfl hnull
      | str s =>
        have hs : s ≠ "" := by simpa using hblank
        simp [Writer.absence?, hs]
      | _ => rfl
    rw [equality_eq hresolve (isList_eq_false hconst hvalue), hconst, habsence,
      equalityWord_eq, Phrase.text_equality]
    exact yields_comparison hfield _ hconst

/-- An equality that words replace. -/
theorem yields_absence {left right : Expr} {f : Field}
    (hresolve : ctx.fields.resolve left = .ok f)
    (hfield : (left.operand ctx).visit.Yields f.remoteName false)
    {op : BinaryOp} {negated : Bool} {value : Value} {type : DataType} {p : Presence}
    (hop : op.negates? = some negated) (hconst : right.asConstant? = some (value, type))
    (hlist : ∀ items, value ≠ .array items)
    (habsence : Writer.absence? (f.type.isDate || left.staticType.isDate) negated
      (some (value, type)) = some p) :
    ((binary op left right).operand ctx).visit.Yields (f.remoteName ++ p.words) false := by
  refine yields_binary ?_
  rw [binary_of_negates hop, equality_eq hresolve (isList_eq_false hconst hlist), hconst,
    habsence]
  exact hfield.bind (Writer.yields_push p.words)

/-- A value that a field held before. -/
theorem writes_pastValue (ctx : Context) {e : Expr} {c : Value × DataType}
    (h : e.asConstant? = some c) (negated : Bool) :
    (Writer.pastValue (e.operand ctx)).Writes .first
      ((Phrase.past negated (some c)).operands ctx.options.escaping) := by
  have hvisit := writes_joined ctx h
  obtain ⟨value, type⟩ := c
  simp only [Writer.pastValue, value?_operand, h, Option.map_some]
  cases value with
  | null => exact Writer.writes_push "empty" .first
  | _ => exact hvisit

/-- A question for what a field held before, and its restrictions. -/
theorem yields_past {field value : Expr} {f : Field} (hfield : Names ctx field f)
    (negated : Bool) {c : Value × DataType} {more : List Expr} {phrases : List Phrase}
    (hvalue : value.asConstant? = some c) (hmore : List.Forall₂ Supplements more phrases) :
    (Writer.history (.ofNegated negated)
      ((field :: value :: more).map (operand ctx))).Yields
      (f.remoteName ++
        phrasesText ctx.options.escaping (.past negated (some c) :: phrases))
      (phrases.any Phrase.isRefused) := by
  -- the two questions differ in their words only
  have hquestion : ∀ words : String, (do
      (field.operand ctx).visit
      Writer.push words
      Writer.resetSeparator
      Writer.pastValue (value.operand ctx)
      Writer.qualifiers (more.map (operand ctx))).Yields
      (f.remoteName ++ (words ++
        ((Phrase.past negated (some c)).operands ctx.options.escaping ++
          phrasesText ctx.options.escaping phrases))) (phrases.any Phrase.isRefused) := by
    intro words
    have hpast := (Writer.yields_resetSeparator (writes_pastValue ctx hvalue negated)).bind
      (yields_supplements ctx hmore)
    have hall := hfield.yields.bind ((Writer.yields_push words).bind hpast)
    simpa using hall
  rw [phrasesText, Phrase.text_past, String.append_assoc]
  cases negated with
  | false => exact hquestion " was "
  | true => exact hquestion " was not "

/-- A restriction after the predicate that it applies to. -/
theorem yields_qualifier (q : Qualifier) {hasTarget : Bool} {subject : Expr} {bounds : List Expr}
    {cs : List (Value × DataType)} {start : String} {phrases : List Phrase}
    (hbounds : AreConstants bounds cs) (hsplit : hasTarget = true ∨ q.arity ≤ cs.length)
    (hsubject : (subject.operand ctx).visit.Yields
      (start ++ phrasesText ctx.options.escaping phrases) (phrases.any Phrase.isRefused)) :
    (Writer.qualifier q hasTarget ((subject :: bounds).map (operand ctx))).Yields
      (start ++ phrasesText ctx.options.escaping (phrases ++ [.limit q cs]))
      ((phrases ++ [Phrase.limit q cs]).any Phrase.isRefused) := by
  have hcount : (bounds.map (operand ctx)).length = cs.length := by simp [hbounds.length_eq]
  have hsubject? : Writer.splitSubject q hasTarget ((subject :: bounds).map (operand ctx)) =
      (some (subject.operand ctx), bounds.map (operand ctx)) := by
    simp only [Writer.splitSubject, List.map_cons, hcount]
    rw [if_pos (by simpa using hsplit)]
  simp only [Writer.qualifier, hsubject?, hcount, List.any_append, phrasesText_append, phrasesText,
    Phrase.text_limit]
  by_cases harity : cs.length = q.arity
  · have hall := (hsubject.bind (Writer.yields_push " ")).bind (yields_limit ctx q hbounds harity)
    simpa [harity, Writer.subject, Phrase.isRefused, String.append_assoc] using hall
  · simpa [harity, Phrase.isRefused] using Writer.yields_unsupported _ _ _

/-- **Questions are written as their phrases**, unless one of these is refused. -/
theorem Says.yields {e : Expr} {start : String} {phrases : List Phrase}
    (h : Says ctx e start phrases) :
    (e.operand ctx).visit.Yields (start ++ phrasesText ctx.options.escaping phrases)
      (phrases.any Phrase.isRefused) := by
  induction h with
  | field hfield => simpa [phrasesText] using hfield.yields
  | @order left right f op r c hfield hop hconst =>
    refine yields_binary ?_
    rw [binary_of_order hop]
    simpa [phrasesText, Phrase.text_order, Phrase.isRefused] using
      yields_comparison hfield.yields r.words hconst
  | equality hfield hop hconst hnull hblank =>
    simpa [phrasesText, Phrase.isRefused] using
      yields_equality hfield.resolve hfield.yields hop hconst hnull hblank
  | null hfield hop hconst =>
    simpa [phrasesText] using
      yields_absence hfield.resolve hfield.yields hop hconst (by simp) (absence?_null _ _ _)
  | blank hfield hop hconst =>
    simpa [phrasesText] using
      yields_absence hfield.resolve hfield.yields hop hconst (by simp) (absence?_blank _ _ _)
  | membership m hfield hoperands hitems =>
    refine yields_call ?_
    rw [hoperands, Writer.call_membership]
    simpa [phrasesText] using yields_membership hfield m hitems
  | past negated hfield hoperands hvalue hmore =>
    refine yields_call ?_
    rw [hoperands, Writer.call_history]
    simpa [Phrase.isRefused] using yields_past hfield negated hvalue hmore
  | pastOfNothing negated hfield hoperands =>
    refine yields_call ?_
    rw [hoperands, Writer.call_history]
    cases negated with
    | false => exact hfield.yields.bind (Writer.yields_unsupported _ _ _)
    | true => exact hfield.yields.bind (Writer.yields_unsupported _ _ _)
  | changed hfield hoperands hmore =>
    refine yields_call ?_
    rw [hoperands, Writer.call_history, String.append_assoc]
    have hall := hfield.yields.bind
      ((Writer.yields_push History.changed.words).bind (yields_supplements ctx hmore))
    simp only [Bool.false_or] at hall
    exact hall
  | limited q hsubject hoperands hbounds hsplit ih =>
    refine yields_call ?_
    rw [hoperands, Writer.call_qualifier]
    exact yields_qualifier q hbounds hsplit ih

/-- A node has a search exactly if it is not refused, and then it is its text. -/
theorem compile_of_yields {e : Expr} {text : String} {refused : Bool}
    (h : (e.operand ctx).visit.Yields text refused) :
    ((∃ search, e.compile ctx = .ok search) ↔ refused = false) ∧
      ∀ search, e.compile ctx = .ok search →
        search = { text := text, startAt := none, maxResults := none } := by
  cases h with
  | writes hwrites =>
    obtain ⟨next, hemits⟩ := hwrites .first
    have hsearch := compile_of_emits ctx hemits
    refine ⟨⟨fun _ => rfl, fun _ => ⟨_, hsearch⟩⟩, fun search hcompile => ?_⟩
    rw [hsearch] at hcompile
    cases hcompile
    rfl
  | refuses hrefuses =>
    obtain ⟨failure, hfails⟩ := hrefuses .first
    have hsearch := compile_of_emits ctx hfails
    have hnone : ∀ search, e.compile ctx ≠ .ok search := by
      intro search hcompile
      rw [hsearch] at hcompile
      cases hcompile
    refine ⟨⟨fun ⟨search, hcompile⟩ => absurd hcompile (hnone search), ?_⟩, ?_⟩
    · intro hfalse
      cases hfalse
    · intro search hcompile
      exact absurd hcompile (hnone search)

/-- **Operators and operands**: a question with constant operands has a search
    exactly if no phrase is refused.  Its text is then the start and the phrases,
    and an operator in it stands alone exactly if it is given nothing that leaves
    something behind. -/
theorem compile_phrases (ctx : Context) {e : Expr} {start : String} {phrases : List Phrase}
    (h : Says ctx e start phrases) :
    ((∃ search, e.compile ctx = .ok search) ↔ ∀ p ∈ phrases, p.isRefused = false) ∧
      (∀ search, e.compile ctx = .ok search → search =
        { text       := start ++ phrasesText ctx.options.escaping phrases
          startAt    := none
          maxResults := none }) ∧
      ∀ p ∈ phrases, p.operands ctx.options.escaping = "" ↔ p.isHollow = true := by
  obtain ⟨hsucceeds, hsearch⟩ := compile_of_yields h.yields
  refine ⟨?_, hsearch, fun p _ => p.operands_eq_empty_iff _⟩
  rw [hsucceeds, List.any_eq_false]
  simp only [Bool.not_eq_true]

end Writing

/-- A state that someone did not set before the end of a month. -/
def formerStates : Expr :=
  (statusNode.expr.history .wasNot
    [ofValue (.str "Open"),
     call none { name := "by", remote := false } [ofValue (.str "ann")]]).qualify .during
    [ofValue .null, ofValue (.str "2024/01/31")]

theorem compile_phrases_formerStates :
    Says Chain.votingContext formerStates "status"
      [.past true (some (.str "Open", .string)), .limit .byUser [(.str "ann", .string)],
        .limit .during [(.null, .any), (.str "2024/01/31", .string)]] ∧
    formerStates.compile Chain.votingContext = .ok
      { text       := "status was not \"Open\" by \"ann\" during (\"2024/01/31\")"
        startAt    := none
        maxResults := none } := by
  have hby : Supplements (call none { name := "by", remote := false } [ofValue (.str "ann")])
      (.limit .byUser [(.str "ann", .string)]) :=
    .limit .byUser (.cons rfl .nil) (by decide)
  have hasked : Says Chain.votingContext formerStates "status"
      [.past true (some (.str "Open", .string)), .limit .byUser [(.str "ann", .string)],
        .limit .during [(.null, .any), (.str "2024/01/31", .string)]] :=
    .limited .during (.past true (.row statusNode) rfl rfl (.cons hby .nil)) rfl
      (.cons rfl (.cons rfl .nil)) (Or.inl rfl)
  obtain ⟨hsucceeds, hsearch, -⟩ := compile_phrases Chain.votingContext hasked
  obtain ⟨search, hcompile⟩ := hsucceeds.mpr (by simp [Phrase.isRefused, Qualifier.arity])
  refine ⟨hasked, ?_⟩
  rw [hcompile, hsearch search hcompile]
  rfl

/-- **Operators that stand alone**: what has no literal is not refused, and nothing is
    written for it. -/
theorem operators_stand_alone :
    let text (e : Expr) := (e.compile Chain.votingContext).toOption.map Search.text
    let status := statusNode.expr
    let nothing := ofValue .null
    text (binary .lessThan status nothing) = some "status < " ∧
      text (binary .equal status (source "Issue")) = some "status = " ∧
      text (status.membership .isIn nothing) = some "status in ()" ∧
      text (status.history .was [source "Issue"]) = some "status was " ∧
      text ((status.history .changed []).qualify .after [nothing]) =
        some "status changed after " ∧
      text ((status.history .changed []).qualify .during [nothing, nothing]) =
        some "status changed during ()" :=
  ⟨rfl, rfl, rfl, rfl, rfl, rfl⟩

end Expr

end IssueSearch
