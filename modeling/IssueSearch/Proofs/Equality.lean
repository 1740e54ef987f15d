import IssueSearch.Proofs.Phrases

/-! # Fields compared with constants

    An equality looks at its left side twice: for the field that is compared,
    and for the text that is written.  A property, a property under one
    conversion and a titled field give both; a method that has the name of a
    titled field but is no method of the server gives a field and no text.

    * `Expr.resolve_eq_ok`: the nodes that name a field.
    * `Expr.yields_of_resolve`: such a node is written as the name of its field,
      if it is written at all.
    * `Field.equalityText`: what is said of a field that is compared with a
      constant.
    * `Expr.compile_equality`: an equality is the name of the field followed by
      that text, wherever it stands, and a list is always refused. -/

namespace IssueSearch

/-! ## The words of an equality -/

/-- What stands after the name of a field that is compared with a constant: a
    question for nothing if the constant is absent or the empty text, and else
    an operator and the literal of the constant. -/
def Field.equalityText (f : Field) (escaping negated : Bool) (leftType : DataType)
    (value : Value) (type : DataType) : String :=
  match value with
  | .null =>
    if f.type.isDate || leftType.isDate || type.isDate then
      if negated then " is not empty" else " is empty"
    else
      if negated then " is not null" else " is null"
  | .str "" => if negated then " is not empty" else " is empty"
  | value =>
    (if f.abilities.has .contains then if negated then " !~ " else " ~ "
      else if negated then " != " else " = ") ++ Literal.scalar escaping type value

/-- The failure of an equality with a list.  That of the left side comes first, if
    it names no field. -/
def FieldTable.listRefusal (fields : FieldTable) (op : BinaryOp) (left : Expr) : SearchError :=
  match fields.resolve left with
  | .ok _          => .unsupported op.name "a list operand needs in / not_in"
  | .error failure => failure

/-- The equality that asks for a difference or for none. -/
def BinaryOp.ofNegated (negated : Bool) : BinaryOp :=
  if negated then .notEqual else .equal

theorem BinaryOp.negates?_ofNegated (negated : Bool) :
    (ofNegated negated).negates? = some negated := by
  cases negated <;> rfl

/-! ## Nodes that name a field -/

namespace Expr

section Fields

variable {ctx : Context}

/-- **The nodes that name a field**: a searchable property, such a property under
    one conversion, or a call by the name of a titled field. -/
theorem resolve_eq_ok {e : Expr} {f : Field} (h : ctx.fields.resolve e = .ok f) :
    (∃ n : FieldNode ctx.fields, e = n.expr ∧ f = n.field) ∨
      (∃ (n : FieldNode ctx.fields) (type : DataType), e = convert n.expr type ∧ f = n.field) ∨
      ∃ target remote args title,
        e = call target { name := Remote.customField, remote := remote } args ∧
          title? (operands target args) = some title ∧ f = titledField title := by
  have hfind : ∀ (target : Expr) (p : Property) (type : DataType), ctx.fields.find p = .ok f →
      ∃ n : FieldNode ctx.fields, member target p type = n.expr ∧ f = n.field := by
    intro target p type hp
    unfold FieldTable.find at hp
    split at hp
    · rename_i field hfound
      cases hp
      exact ⟨⟨target, p, type, f, hfound⟩, rfl, rfl⟩
    · cases hp
  cases e with
  | member target p type => exact Or.inl (hfind target p type h)
  | convert operand type =>
    cases operand with
    | member target p inner =>
      obtain ⟨n, hn, hf⟩ := hfind target p inner h
      exact Or.inr (Or.inl ⟨n, type, by rw [hn], hf⟩)
    | _ => cases h
  | call target method args =>
    obtain ⟨name, remote⟩ := method
    simp only [FieldTable.resolve] at h
    split at h
    · rename_i hname
      obtain rfl : name = Remote.customField := hname
      split at h
      · rename_i title htitle
        cases h
        exact Or.inr (Or.inr ⟨target, remote, args, title, rfl, htitle, rfl⟩)
      · cases h
    · cases h
  | _ => cases h

/-- A call by the name of a titled field that is no method of the server has no
    search. -/
theorem yields_localTitle (target : Option Expr) (args : List Expr) (text : String) :
    ((call target { name := Remote.customField, remote := false } args).operand ctx).visit.Yields
      text true :=
  yields_call (Writer.yields_unsupported _ _ _)

/-- **A field is written as its name**: a node that names a field and has a search
    is written as the remote name of the field, wherever it stands. -/
theorem yields_of_resolve {e : Expr} {f : Field} (hresolve : ctx.fields.resolve e = .ok f)
    (hcompile : ∃ search, e.compile ctx = .ok search) :
    (e.operand ctx).visit.Yields f.remoteName false := by
  rcases resolve_eq_ok hresolve with ⟨n, rfl, rfl⟩ | ⟨n, type, rfl, rfl⟩ |
    ⟨target, remote, args, title, rfl, htitle, rfl⟩
  · exact (Names.row n).yields
  · exact (Names.row n).yields.node _
  · cases remote with
    | true => exact (Names.title ⟨target, args, rfl, htitle⟩).yields
    | false =>
      -- the call has no search, against the assumption
      have hrefused := (compile_of_yields (yields_localTitle target args "")).1.mp hcompile
      cases hrefused

/-! ## Equalities -/

/-- A constant that is neither absent nor the empty text is written after an
    operator. -/
theorem equalityText_of_present (f : Field) (escaping negated : Bool) (leftType : DataType)
    {value : Value} (type : DataType) (hnull : value ≠ .null) (hblank : value ≠ .str "")
    (hvalue : value.isBlank = false) :
    f.equalityText escaping negated leftType value type =
      (Phrase.equality negated (f.abilities.has .contains) (value, type)).text escaping := by
  have htext : Literal.joined escaping [(value, type)] = Literal.scalar escaping type value := by
    simp [Literal.joined, Literal.written?_eq, hvalue]
  rw [Phrase.text_equality, htext, Field.equalityText]
  · cases f.abilities.has .contains <;> cases negated <;> rfl
  · exact hnull
  · exact hblank

/-- **An equality with a constant**, wherever it stands. -/
theorem yields_equalityText {left right : Expr} {f : Field}
    (hresolve : ctx.fields.resolve left = .ok f)
    (hfield : (left.operand ctx).visit.Yields f.remoteName false) (negated : Bool)
    {value : Value} {type : DataType} (hconst : right.asConstant? = some (value, type))
    (hlist : ∀ items, value ≠ .array items) (hsource : ∀ entity, value ≠ .source entity) :
    ((binary (.ofNegated negated) left right).operand ctx).visit.Yields
      (f.remoteName ++
        f.equalityText ctx.options.escaping negated left.staticType value type) false := by
  have hop := BinaryOp.negates?_ofNegated negated
  by_cases hnull : value = .null
  · subst hnull
    have hwords : (Presence.ofNull (f.type.isDate || left.staticType.isDate || type.isDate)
        negated).words =
        f.equalityText ctx.options.escaping negated left.staticType .null type := by
      simp only [Field.equalityText]
      cases f.type.isDate || left.staticType.isDate || type.isDate <;> cases negated <;> rfl
    rw [← hwords]
    exact yields_absence hresolve hfield hop hconst hlist (absence?_null _ _ _)
  · by_cases hblank : value = .str ""
    · subst hblank
      have hwords : (Presence.ofNull true negated).words =
          f.equalityText ctx.options.escaping negated left.staticType (.str "") type := by
        cases negated <;> rfl
      rw [← hwords]
      exact yields_absence hresolve hfield hop hconst hlist (absence?_blank _ _ _)
    · have hvalue : value.isBlank = false := by
        cases value with
        | null => exact absurd rfl hnull
        | source entity => exact absurd rfl (hsource entity)
        | array items => exact absurd rfl (hlist items)
        | _ => rfl
      have hisList : value.isList = false := by
        cases value with
        | array items => exact absurd rfl (hlist items)
        | _ => rfl
      have hyields := yields_equality hresolve hfield hop hconst hnull hblank
      rw [hisList] at hyields
      rwa [equalityText_of_present f _ negated _ type hnull hblank hvalue]

/-- A list is refused before anything is written. -/
theorem emits_equality_list (ctx : Context) (left : Expr) {right : Expr} {items : List Value}
    {type : DataType} (hconst : right.asConstant? = some (.array items, type)) (negated : Bool)
    (s : Separator) :
    ((binary (.ofNegated negated) left right).operand ctx).visit.Emits s
      (.error (ctx.fields.listRefusal (.ofNegated negated) left)) := by
  refine Writer.Emits.node ?_ _
  have hright : Writer.isList (right.operand ctx) = true := by
    simp [Writer.isList, value?_operand, hconst]
  show (Writer.binary ctx _ (left.operand ctx) (right.operand ctx)).Emits s _
  rw [binary_of_negates (BinaryOp.negates?_ofNegated negated)]
  unfold Writer.equality FieldTable.listRefusal
  rw [operand_expr]
  cases ctx.fields.resolve left with
  | error failure => exact (Writer.emits_throw failure s).bind_error
  | ok f =>
    simp only [Writer.ofExcept, pure_bind, hright, if_true]
    exact Writer.emits_unsupported _ _ s

/-- **Equalities with constants**: where a node names a field and has a search, the
    search is the name of the field.  Compared with a constant, the name is
    followed by the words for nothing or by an operator and a literal, whatever
    separator is due before them.  A list is always refused, whatever stands on
    the left. -/
theorem compile_equality (ctx : Context) (left : Expr) :
    (∀ f, ctx.fields.resolve left = .ok f → (∃ search, left.compile ctx = .ok search) →
      left.compile ctx = .ok { text := f.remoteName, startAt := none, maxResults := none } ∧
      ∀ (negated : Bool) (right : Expr) (value : Value) (type : DataType),
        right.asConstant? = some (value, type) → (∀ items, value ≠ .array items) →
        (∀ entity, value ≠ .source entity) →
        let e := binary (.ofNegated negated) left right
        let text := f.remoteName ++
          f.equalityText ctx.options.escaping negated left.staticType value type
        e.compile ctx = .ok { text := text, startAt := none, maxResults := none } ∧
          ∀ s, (e.operand ctx).visit.Writes s text) ∧
    ∀ (negated : Bool) (right : Expr) (items : List Value) (type : DataType),
      right.asConstant? = some (.array items, type) →
      let e := binary (.ofNegated negated) left right
      let failure := ctx.fields.listRefusal (.ofNegated negated) left
      e.compile ctx = .error failure ∧ ∀ s, (e.operand ctx).visit.Emits s (.error failure) := by
  -- what is written whatever the separator is also the search
  have hsearch : ∀ {e : Expr} {text : String}, (e.operand ctx).visit.Yields text false →
      e.compile ctx = .ok { text := text, startAt := none, maxResults := none } := by
    intro e text hyields
    obtain ⟨hsucceeds, htext⟩ := compile_of_yields hyields
    obtain ⟨search, hcompile⟩ := hsucceeds.mpr rfl
    rw [hcompile, htext search hcompile]
  refine ⟨fun f hresolve hcompile => ?_, fun negated right items type hconst => ?_⟩
  · have hfield := yields_of_resolve hresolve hcompile
    refine ⟨hsearch hfield, fun negated right value type hconst hlist hsource => ?_⟩
    have hyields := yields_equalityText hresolve hfield negated hconst hlist hsource
    refine ⟨hsearch hyields, ?_⟩
    cases hyields with
    | writes hwrites => exact hwrites
  · have hemits := emits_equality_list ctx left hconst negated
    exact ⟨compile_of_emits ctx (hemits .first), hemits⟩

end Fields

/-- A state that is read as a date. -/
def stateAsDate : Expr :=
  convert statusNode.expr (.nullable .date)

theorem compile_equality_stateAsDate :
    let ctx := Chain.votingContext
    let nothing := convert (ofValue .null) .any
    let states := convert (ofValue (.array [.str "Open"])) (.array .string)
    (ctx.fields.resolve stateAsDate = .ok statusNode.field ∧
      (∃ search, stateAsDate.compile ctx = .ok search) ∧
      nothing.asConstant? = some (.null, .any) ∧
      (binary .notEqual stateAsDate nothing).compile ctx = .ok
        { text := "status is not empty", startAt := none, maxResults := none }) ∧
    states.asConstant? = some (.array [.str "Open"], .array .string) ∧
      (binary .equal stateAsDate states).compile ctx = .error
        (.unsupported "Equal" "a list operand needs in / not_in") := by
  obtain ⟨hscalar, hlist⟩ := compile_equality Chain.votingContext stateAsDate
  have hcompare := (hscalar statusNode.field rfl ⟨_, rfl⟩).2 true (convert (ofValue .null) .any)
    .null .any rfl (by simp) (by simp)
  have hrefused := hlist false (convert (ofValue (.array [.str "Open"])) (.array .string))
    [.str "Open"] (.array .string) rfl
  exact ⟨⟨rfl, ⟨_, rfl⟩, rfl, hcompare.1⟩, rfl, hrefused.1⟩

end Expr

end IssueSearch
