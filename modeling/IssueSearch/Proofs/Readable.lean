import IssueSearch.Eval.Standard
import IssueSearch.Expr.Build
import IssueSearch.Proofs.Emission
import IssueSearch.Proofs.Forms

/-! # Predicates that can be read back

    With quotes escaped, what is written for a predicate over searchable fields
    is the text of its form, whatever was written before it.  As a text has at
    most one form, predicates with the same text say the same.

    * `Expr.Asks`: what a single comparison or call asks of a field.
    * `Expr.HasForm`: the form of a predicate.
    * `Expr.HasForm.writes`: a predicate is written as its form. -/

namespace IssueSearch

/-! ## Predicates and their forms -/

/-- The value is neither absent, nor a list, nor a remote collection. -/
def Value.IsScalar : Value → Prop
  | .null     => False
  | .array _  => False
  | .source _ => False
  | _         => True

/-- A property node that the table has a field for. -/
structure FieldNode (fields : FieldTable) where
  target   : Expr
  property : Property
  type     : DataType
  field    : Field
  found    : fields.get? property = some field

namespace FieldNode

variable {fields : FieldTable}

/-- The node as a tree. -/
def expr (n : FieldNode fields) : Expr := .member n.target n.property n.type

/-- The remote name of the field. -/
def name (n : FieldNode fields) : fields.RemoteName :=
  ⟨n.field.remoteName, n.property, n.field, n.found, rfl⟩

/-- Is the field, or the node, declared to be a date? -/
def isDate (n : FieldNode fields) : Bool := n.field.type.isDate || n.type.isDate

end FieldNode

/-- The relation of an equality: texts are searched for what they contain. -/
def Relation.ofEquality (isText negated : Bool) : Relation :=
  match isText, negated with
  | true, false  => .contains
  | true, true   => .lacks
  | false, false => .equal
  | false, true  => .notEqual

/-- The relation of an ordering comparison. -/
def Relation.ofOrder? : BinaryOp → Option Relation
  | .lessThan           => some .less
  | .lessThanOrEqual    => some .lessOrEqual
  | .greaterThan        => some .greater
  | .greaterThanOrEqual => some .greaterOrEqual
  | _                   => none

/-- Does an equality ask for a difference? -/
def BinaryOp.negates? : BinaryOp → Option Bool
  | .equal    => some false
  | .notEqual => some true
  | _         => none

/-- A question for no value: a date is empty, and another field is null. -/
def Presence.ofNull (isDate negated : Bool) : Presence :=
  match isDate, negated with
  | true, false  => .isEmpty
  | true, true   => .isNotEmpty
  | false, false => .isNull
  | false, true  => .isNotNull

/-- A question for what a field held before. -/
def History.ofNegated (negated : Bool) : History :=
  if negated then .wasNot else .was

namespace Expr

/-- `e.Gives v`: the operand of a comparison is a constant with the token, or a
    known function without an argument. -/
inductive Gives : Expr → Comparand → Prop
  | token {e : Expr} {value : Value} {type : DataType} (hconst : e.asConstant? = some (value, type))
      (hscalar : value.IsScalar) : Gives e (.token (.ofValue type value))
  | function {method name : String} (hknown : (method, name) ∈ Remote.plainFunctions) :
      Gives (remoteFunction method none) (.function ⟨name, List.mem_map_of_mem hknown⟩)

/-- `GiveAll items tokens`: the items are constants with the tokens. -/
def GiveAll : List Expr → List Token → Prop :=
  List.Forall₂ fun e t =>
    ∃ value type, e.asConstant? = some (value, type) ∧ value.IsScalar ∧ t = .ofValue type value

/-- `ListTokens items tokens`: the items are one constant list with the tokens,
    or each of them is a constant. -/
def ListTokens (items : List Expr) (tokens : List Token) : Prop :=
  (∃ e values type, items = [e] ∧ e.asConstant? = some (.array values, type) ∧
    tokens = values.map (Token.ofValue type.elementType)) ∨ GiveAll items tokens

/-- `PastToken e t?`: the value asked for is a constant, and it has a token
    unless it is absent. -/
def PastToken (e : Expr) (t? : Option Token) : Prop :=
  ∃ value type, e.asConstant? = some (value, type) ∧
    (value = .null ∧ t? = none ∨ value.IsScalar ∧ t? = some (.ofValue type value))

/-- `Asks ctx e name c`: the node asks the condition of the field. -/
inductive Asks (ctx : Context) : Expr → ctx.fields.RemoteName → Condition → Prop
  | order (n : FieldNode ctx.fields) {op : BinaryOp} {right : Expr} {r : Relation} {v : Comparand}
      (hop : Relation.ofOrder? op = some r) (hv : right.Gives v) :
      Asks ctx (binary op n.expr right) n.name (.compare r v)
  | equality (n : FieldNode ctx.fields) {op : BinaryOp} {right : Expr} {negated : Bool}
      {v : Comparand} (hop : op.negates? = some negated) (hv : right.Gives v)
      (hblank : ∀ type, right.asConstant? ≠ some (.str "", type)) :
      Asks ctx (binary op n.expr right) n.name
        (.compare (.ofEquality (n.field.abilities.has .contains) negated) v)
  | null (n : FieldNode ctx.fields) {op : BinaryOp} {right : Expr} {type : DataType}
      {negated : Bool} (hop : op.negates? = some negated)
      (hconst : right.asConstant? = some (.null, type)) :
      Asks ctx (binary op n.expr right) n.name
        (.presence (.ofNull (n.isDate || type.isDate) negated))
  | blank (n : FieldNode ctx.fields) {op : BinaryOp} {right : Expr} {type : DataType}
      {negated : Bool} (hop : op.negates? = some negated)
      (hconst : right.asConstant? = some (.str "", type)) :
      Asks ctx (binary op n.expr right) n.name (.presence (.ofNull true negated))
  | presence (n : FieldNode ctx.fields) (p : Presence) {target : Option Expr} {args : List Expr}
      (hoperands : operands target args = [n.expr]) :
      Asks ctx (call target { name := p.name, remote := false } args) n.name (.presence p)
  | membership (n : FieldNode ctx.fields) (m : Membership) {target : Option Expr}
      {args items : List Expr} {first : Token} {rest : List Token}
      (hoperands : operands target args = n.expr :: items)
      (hitems : ListTokens items (first :: rest)) :
      Asks ctx (call target { name := m.name, remote := false } args) n.name
        (.member m first rest)
  | past (n : FieldNode ctx.fields) (negated : Bool) {target : Option Expr} {args : List Expr}
      {value : Expr} {t? : Option Token} (hoperands : operands target args = [n.expr, value])
      (hvalue : PastToken value t?) :
      Asks ctx (call target { name := (History.ofNegated negated).name, remote := false } args)
        n.name (.past negated t?)

/-- `HasForm ctx e f`: the predicate joins questions to fields, and `f` is its
    form. -/
inductive HasForm (ctx : Context) : Expr → Form ctx.fields → Prop
  | both {op : BinaryOp} {left right : Expr} {f g : Form ctx.fields}
      (hop : op = .and ∨ op = .andAlso) :
      HasForm ctx left f → HasForm ctx right g → HasForm ctx (binary op left right) (.both f g)
  | either {op : BinaryOp} {left right : Expr} {f g : Form ctx.fields}
      (hop : op = .or ∨ op = .orElse) :
      HasForm ctx left f → HasForm ctx right g → HasForm ctx (binary op left right) (.either f g)
  | atom {e : Expr} {name : ctx.fields.RemoteName} {c : Condition} :
      Asks ctx e name c → HasForm ctx e (.atom name c)

end Expr

/-! ## Writing -/

namespace Writer

/-- A scalar is written after its separator. -/
theorem emits_scalar {value : Value} (h : value.IsScalar) (type : DataType) (s : Separator) :
    (constant true value type).Emits s
      (.ok ⟨(), s.text ++ (Token.ofValue type value).text, .later⟩) := by
  rw [← Token.item_eq_text]
  cases value with
  | null => exact absurd h id
  | array items => exact absurd h id
  | source entity => exact absurd h id
  | _ => exact emits_separated _ s

/-- The items of a constant list are written as their tokens. -/
theorem itemsFrom_later (type : DataType) (values : List Value) :
    Literal.itemsFrom true type .later values = laterItems (values.map (Token.ofValue type)) := by
  induction values with
  | nil => rfl
  | cons value rest ih =>
    simp [Literal.itemsFrom, laterItems, ih, Token.item_eq_text, Separator.text]

/-- A list that begins is written without a separator before it. -/
theorem writes_list {values : List Value} {type : DataType} {first : Token} {rest : List Token}
    (h : first :: rest = values.map (Token.ofValue type.elementType)) :
    (constant true (.array values) type).Writes .first (first.text ++ laterItems rest) := by
  cases values with
  | nil => simp at h
  | cons value values =>
    obtain ⟨rfl, rfl⟩ : first = Token.ofValue type.elementType value ∧
        rest = values.map (Token.ofValue type.elementType) := by simpa using h
    have htext : Literal.list true type.elementType (value :: values) =
        (Token.ofValue type.elementType value).text ++
          laterItems (values.map (Token.ofValue type.elementType)) := by
      simp [Literal.list, Literal.itemsFrom, itemsFrom_later, Token.item_eq_text, Separator.text]
    rw [← htext]
    -- neither the separator nor the empty text before the list shows
    have hpushes := (writes_push "" (Literal.afterList (value :: values))).bind
      (writes_push (Literal.list true type.elementType (value :: values)))
    have hset := (emits_setSeparator (Literal.afterList (value :: values)) .later).writes
      (k := fun _ => do
        push ""
        push (Literal.list true type.elementType (value :: values))) hpushes
    have hall := (emits_nextSeparator .first).writes
      (k := fun lead => do
        modify fun d => { d with separator := Literal.afterList (value :: values) }
        push lead
        push (Literal.list true type.elementType (value :: values))) hset
    simp only [String.empty_append] at hall
    exact hall

end Writer

/-! ## Trees -/

namespace Expr

section Values

variable {ctx : Context}

/-- A constant, directly or under one conversion, is written as a constant. -/
theorem visit_of_asConstant? {e : Expr} {value : Value} {type : DataType}
    (h : e.asConstant? = some (value, type)) :
    (e.operand ctx).visit =
      Writer.node e.kind (Writer.constant ctx.options.escaping value type) := by
  cases e with
  | constant v t =>
    obtain ⟨rfl, rfl⟩ : v = value ∧ t = type := by simpa [asConstant?] using h
    rfl
  | convert inner t => simp only [operand, Operand.ofNode, h]
  | _ => simp [asConstant?] at h

theorem value?_operand (e : Expr) : (e.operand ctx).value? = e.asConstant?.map Prod.fst := by
  rw [Operand.value?, operand_expr]

theorem emits_scalarNode (hescaping : ctx.options.escaping = true) {e : Expr} {value : Value}
    {type : DataType} (hconst : e.asConstant? = some (value, type)) (hscalar : value.IsScalar)
    (s : Separator) :
    (e.operand ctx).visit.Emits s
      (.ok ⟨(), s.text ++ (Token.ofValue type value).text, .later⟩) := by
  rw [visit_of_asConstant? hconst, hescaping]
  exact (Writer.emits_scalar hscalar type s).node _

theorem writtenName_of_mem :
    ∀ entry ∈ Remote.plainFunctions,
      entry.1 ≠ Remote.customField ∧ Remote.writtenName entry.1 = entry.2 := by
  decide +kernel

/-- What a field is compared with is written as its text. -/
theorem Gives.writes (hescaping : ctx.options.escaping = true) {e : Expr} {v : Comparand}
    (h : e.Gives v) : (e.operand ctx).visit.Writes .first v.text := by
  cases h with
  | token hconst hscalar =>
    refine ⟨.later, ?_⟩
    simpa [Separator.text, Comparand.text] using emits_scalarNode hescaping hconst hscalar .first
  | @function method name hknown =>
    obtain ⟨hcustom, hwritten⟩ := writtenName_of_mem (method, name) hknown
    have hcall : Writer.call { name := method, remote := true } false [] =
        (do Writer.push name; Writer.push "("; Writer.push ")") := by
      simp [Writer.call, hcustom, Writer.remoteFunction, hwritten]
    refine Writer.Writes.node ?_ _
    show (Writer.call { name := method, remote := true } false []).Writes .first (name ++ "()")
    rw [hcall, show "()" = "(" ++ ")" from rfl]
    exact (Writer.writes_push _ _).bind fun s =>
      (Writer.writes_push "(" s).bind (Writer.writes_push ")")

/-- Constants after the first item of a list each bring their comma. -/
theorem GiveAll.writes_later (hescaping : ctx.options.escaping = true) {items : List Expr}
    {tokens : List Token} (h : GiveAll items tokens) :
    (Writer.listItems (items.map (operand ctx))).Writes .later (laterItems tokens) := by
  induction h with
  | nil => exact ⟨_, Writer.emits_pure () .later⟩
  | @cons e t items tokens hitem _ ih =>
    obtain ⟨value, type, hconst, hscalar, rfl⟩ := hitem
    have hsome : ((e.operand ctx).value?).isNone = false := by simp [value?_operand, hconst]
    have hboth := (emits_scalarNode hescaping hconst hscalar .later).writes
      (k := fun _ => Writer.listItems (items.map (operand ctx))) ih
    simpa [Writer.listItems, hsome, laterItems, Separator.text] using hboth

/-- The items of a list are written with commas between them. -/
theorem ListTokens.writes (hescaping : ctx.options.escaping = true) {items : List Expr}
    {first : Token} {rest : List Token} (h : ListTokens items (first :: rest)) :
    (Writer.listItems (items.map (operand ctx))).Writes .first
      (first.text ++ laterItems rest) := by
  rcases h with ⟨e, values, type, rfl, hconst, htokens⟩ | hall
  · have hsome : ((e.operand ctx).value?).isNone = false := by simp [value?_operand, hconst]
    have hlist : (e.operand ctx).visit.Writes .first (first.text ++ laterItems rest) := by
      rw [visit_of_asConstant? hconst, hescaping]
      exact (Writer.writes_list htokens).node _
    have hboth := hlist.bind (w := Writer.listItems []) fun s => ⟨s, Writer.emits_pure () s⟩
    simpa [Writer.listItems, hsome] using hboth
  · cases hall with
    | @cons e _ items _ hitem hrest =>
      obtain ⟨value, type, hconst, hscalar, rfl⟩ := hitem
      have hsome : ((e.operand ctx).value?).isNone = false := by simp [value?_operand, hconst]
      have hboth := (emits_scalarNode hescaping hconst hscalar .first).writes
        (k := fun _ => Writer.listItems (items.map (operand ctx)))
        (GiveAll.writes_later hescaping hrest)
      simpa [Writer.listItems, hsome, Separator.text] using hboth

/-- A list with tokens is not a list without items. -/
theorem ListTokens.not_all_empty {items : List Expr} {first : Token} {rest : List Token}
    (h : ListTokens items (first :: rest)) :
    ¬((items.map (operand ctx)).all Operand.isEmptyList = true) := by
  rcases h with ⟨e, values, type, rfl, hconst, htokens⟩ | hall
  · cases values with
    | nil => simp at htokens
    | cons value values => simp [Operand.isEmptyList, value?_operand, hconst]
  · cases hall with
    | @cons e _ items _ hitem hrest =>
      obtain ⟨value, type, hconst, hscalar, rfl⟩ := hitem
      have hitem : (e.operand ctx).isEmptyList = false := by
        simp only [Operand.isEmptyList, value?_operand, hconst, Option.map_some]
        cases value with
        | array items => exact absurd hscalar id
        | _ => rfl
      simp [hitem]

/-- A searchable property is written as its remote name, whatever the
    separator. -/
theorem writes_field (n : FieldNode ctx.fields) (s : Separator) :
    (n.expr.operand ctx).visit.Writes s n.name.val :=
  ⟨s, emits_field ctx n.found s⟩

end Values

section Questions

variable {ctx : Context} {op : BinaryOp} {negated : Bool} {right : Expr}

/-- An operator node writes what the operator makes of its operands. -/
theorem writes_binary {left : Expr} {s : Separator} {text : String}
    (h : (Writer.binary ctx op (left.operand ctx) (right.operand ctx)).Writes s text) :
    ((binary op left right).operand ctx).visit.Writes s text :=
  Writer.Writes.node h _

/-- A call writes what its method makes of all its operands, its target among
    them. -/
theorem writes_call {target : Option Expr} {method : Method} {args : List Expr} {s : Separator}
    {text : String}
    (h : (Writer.call method target.isSome ((operands target args).map (operand ctx))).Writes s
      text) :
    ((call target method args).operand ctx).visit.Writes s text := by
  rw [← callOperands_eq] at h
  exact Writer.Writes.node h _

/-- Two predicates in brackets with a word between them. -/
theorem writes_connective {word textl textr : String} {left : Expr}
    (hl : ∀ s, (left.operand ctx).visit.Writes s textl)
    (hr : ∀ s, (right.operand ctx).visit.Writes s textr) (s : Separator) :
    (Writer.connective word (left.operand ctx) (right.operand ctx)).Writes s
      ("(" ++ textl ++ word ++ textr ++ ")") := by
  simp only [String.append_assoc]
  exact (Writer.writes_push "(" s).bind fun s => (hl s).bind fun s =>
    (Writer.writes_push word s).bind fun s => (hr s).bind (Writer.writes_push ")")

/-- A field, a relation and what the field is compared with. -/
theorem writes_comparison (hescaping : ctx.options.escaping = true) (n : FieldNode ctx.fields)
    (r : Relation) {v : Comparand} (hv : right.Gives v) (s : Separator) :
    (Writer.comparison r.words (n.expr.operand ctx) (right.operand ctx)).Writes s
      (n.name.val ++ (Condition.compare r v).text) :=
  (writes_field n s).bind fun _ => (Writer.writes_push r.words _).bind fun s =>
    Writer.writes_resetSeparator (hv.writes hescaping) s

/-- A searchable property names its field. -/
theorem resolve_field (n : FieldNode ctx.fields) : ctx.fields.resolve n.expr = .ok n.field := by
  simp [FieldNode.expr, FieldTable.resolve, FieldTable.find, n.found]

/-- An equality between a node that names a field and no list. -/
theorem equality_eq {left : Expr} {field : Field} (hresolve : ctx.fields.resolve left = .ok field)
    (hlist : Writer.isList (right.operand ctx) = false) :
    Writer.equality ctx.fields op negated (left.operand ctx) (right.operand ctx) =
      (do
        (left.operand ctx).visit
        match Writer.absence? (field.type.isDate || left.staticType.isDate) negated
            right.asConstant? with
        | some p => Writer.push p.words
        | none => do
          Writer.push (Writer.equalityWord (field.abilities.has .contains) negated)
          Writer.resetSeparator
          (right.operand ctx).visit) := by
  unfold Writer.equality
  simp only [operand_expr, hresolve, Writer.ofExcept, pure_bind, hlist]
  rfl

theorem equalityWord_eq (isText negated : Bool) :
    Writer.equalityWord isText negated = (Relation.ofEquality isText negated).words := by
  cases isText <;> cases negated <;> rfl

theorem binary_of_negates (hop : op.negates? = some negated) (left right : Operand) :
    Writer.binary ctx op left right = Writer.equality ctx.fields op negated left right := by
  cases op with
  | equal =>
    obtain rfl : false = negated := by simpa [BinaryOp.negates?] using hop
    rfl
  | notEqual =>
    obtain rfl : true = negated := by simpa [BinaryOp.negates?] using hop
    rfl
  | _ => simp [BinaryOp.negates?] at hop

theorem binary_of_order {r : Relation} (hop : Relation.ofOrder? op = some r)
    (left right : Operand) :
    Writer.binary ctx op left right = Writer.comparison r.words left right := by
  cases op with
  | lessThan | lessThanOrEqual | greaterThan | greaterThanOrEqual =>
    cases hop
    rfl
  | _ => simp [Relation.ofOrder?] at hop

theorem isList_eq_false {value : Value} {type : DataType}
    (hconst : right.asConstant? = some (value, type)) (h : ∀ items, value ≠ .array items) :
    Writer.isList (right.operand ctx) = false := by
  simp only [Writer.isList, value?_operand, hconst, Option.map_some]
  cases value with
  | array items => exact absurd rfl (h items)
  | _ => rfl

/-- A comparand is not a list. -/
theorem Gives.isList_eq_false {v : Comparand} (h : right.Gives v) :
    Writer.isList (right.operand ctx) = false := by
  cases h with
  | token hconst hscalar =>
    refine Expr.isList_eq_false hconst ?_
    rintro items rfl
    exact hscalar
  | function hknown => simp [Writer.isList, value?_operand, remoteFunction, asConstant?]

/-- A comparand other than the empty text does not ask for absence. -/
theorem Gives.absence?_eq_none {v : Comparand} (h : right.Gives v)
    (hblank : ∀ type, right.asConstant? ≠ some (.str "", type)) (isDate negated : Bool) :
    Writer.absence? isDate negated right.asConstant? = none := by
  cases h with
  | @token _ value type hconst hscalar =>
    rw [hconst] at hblank ⊢
    cases value with
    | null => exact absurd hscalar id
    | str s =>
      have hs : s ≠ "" := by
        rintro rfl
        exact hblank type rfl
      simp [Writer.absence?, hs]
    | _ => rfl
  | function hknown => rfl

theorem absence?_null (isDate negated : Bool) (type : DataType) :
    Writer.absence? isDate negated (some (.null, type)) =
      some (.ofNull (isDate || type.isDate) negated) := by
  cases hdate : isDate || type.isDate <;> cases negated <;>
    simp [Writer.absence?, Presence.ofNull, hdate]

theorem absence?_blank (isDate negated : Bool) (type : DataType) :
    Writer.absence? isDate negated (some (.str "", type)) = some (.ofNull true negated) := by
  cases negated <;> rfl

/-- A question that ends with its word. -/
theorem equality_writes_presence (n : FieldNode ctx.fields) {p : Presence} {value : Value}
    {type : DataType} (hop : op.negates? = some negated)
    (hconst : right.asConstant? = some (value, type)) (hlist : ∀ items, value ≠ .array items)
    (habsence : Writer.absence? n.isDate negated (some (value, type)) = some p) (s : Separator) :
    ((binary op n.expr right).operand ctx).visit.Writes s
      (n.name.val ++ (Condition.presence p).text) := by
  refine writes_binary ?_
  have hisDate : n.isDate = (n.field.type.isDate || n.expr.staticType.isDate) := rfl
  rw [binary_of_negates hop, equality_eq (resolve_field n) (isList_eq_false hconst hlist), hconst,
    ← hisDate, habsence, Condition.text_presence]
  exact (writes_field n s).bind (Writer.writes_push p.words)

/-- A value that a field held before is written as its token, or as the word for
    nothing. -/
theorem PastToken.writes (hescaping : ctx.options.escaping = true) {e : Expr}
    {t? : Option Token} (h : PastToken e t?) (negated : Bool) :
    (do Writer.pastValue (e.operand ctx); Writer.qualifiers []).Writes .first
      (Condition.past negated t?).values := by
  obtain ⟨value, type, hconst, hvalue⟩ := h
  have hwritten : (Writer.pastValue (e.operand ctx)).Writes .first
      (Condition.past negated t?).values := by
    simp only [Writer.pastValue, value?_operand, hconst, Option.map_some]
    rcases hvalue with ⟨rfl, rfl⟩ | ⟨hscalar, rfl⟩
    · exact Writer.writes_push "empty" .first
    · have hvisit := (Gives.token hconst hscalar).writes hescaping
      cases value with
      | null => exact absurd hscalar id
      | _ => exact hvisit
  have hboth := hwritten.bind (w := Writer.qualifiers []) fun s => ⟨s, Writer.emits_pure () s⟩
  simpa using hboth

/-- What a question asks is what is written for it. -/
theorem Asks.writes (hescaping : ctx.options.escaping = true) {e : Expr}
    {name : ctx.fields.RemoteName} {c : Condition} (h : Asks ctx e name c) (s : Separator) :
    (e.operand ctx).visit.Writes s (name.val ++ c.text) := by
  cases h with
  | order n hop hv =>
    refine writes_binary ?_
    rw [binary_of_order hop]
    exact writes_comparison hescaping n _ hv s
  | @equality n op right negated v hop hv hblank =>
    refine writes_binary ?_
    rw [binary_of_negates hop, equality_eq (resolve_field n) hv.isList_eq_false,
      hv.absence?_eq_none hblank _ negated, equalityWord_eq]
    exact writes_comparison hescaping n _ hv s
  | @null n op right type negated hop hconst =>
    exact equality_writes_presence n hop hconst (by simp) (absence?_null n.isDate negated type) s
  | @blank n op right type negated hop hconst =>
    exact equality_writes_presence n hop hconst (by simp) (absence?_blank n.isDate negated type) s
  | presence n p hoperands =>
    refine writes_call ?_
    rw [hoperands, Condition.text_presence, Writer.call_presence]
    exact (writes_field n s).bind (Writer.writes_push p.words)
  | @membership n m target args items first rest hoperands hitems =>
    refine writes_call ?_
    rw [hoperands, Writer.call_membership]
    -- a list without items would be refused here
    show Writer.Writes
      (if (items.map (operand ctx)).all Operand.isEmptyList = true then _ else _) s _
    rw [if_neg hitems.not_all_empty]
    exact (writes_field n s).bind fun _ => (Writer.writes_push m.words _).bind fun s =>
      Writer.writes_resetSeparator
        ((hitems.writes hescaping).bind (Writer.writes_push ")")) s
  | @past n negated target args value t? hoperands hvalue =>
    refine writes_call ?_
    rw [hoperands, Writer.call_history]
    -- the two questions differ in their words only
    have hquestion : ∀ words : String, (do
        (n.expr.operand ctx).visit
        Writer.push words
        Writer.resetSeparator
        Writer.pastValue (value.operand ctx)
        Writer.qualifiers []).Writes s
        (n.name.val ++ (words ++ (Condition.past negated t?).values)) :=
      fun words => (writes_field n s).bind fun _ => (Writer.writes_push words _).bind fun s =>
        Writer.writes_resetSeparator (hvalue.writes hescaping negated) s
    cases negated with
    | false => exact hquestion " was "
    | true => exact hquestion " was not "

/-- **Predicates are written as their forms**, whatever was written before
    them. -/
theorem HasForm.writes (hescaping : ctx.options.escaping = true) {e : Expr}
    {f : Form ctx.fields} (h : HasForm ctx e f) (s : Separator) :
    (e.operand ctx).visit.Writes s (f.text ctx.options.tightOr) := by
  induction h generalizing s with
  | both hop _ _ ihl ihr =>
    refine writes_binary ?_
    rcases hop with rfl | rfl
    · exact writes_connective ihl ihr s
    · exact writes_connective ihl ihr s
  | either hop _ _ ihl ihr =>
    refine writes_binary ?_
    rcases hop with rfl | rfl
    · exact writes_connective ihl ihr s
    · exact writes_connective ihl ihr s
  | atom hasks => exact hasks.writes hescaping s

end Questions

/-- The search of a predicate is the text of its form. -/
theorem HasForm.compile_eq {ctx : Context} (hescaping : ctx.options.escaping = true) {e : Expr}
    {f : Form ctx.fields} (h : HasForm ctx e f) :
    e.compile ctx =
      .ok { text := f.text ctx.options.tightOr, startAt := none, maxResults := none } := by
  obtain ⟨next, hemits⟩ := h.writes hescaping .first
  exact compile_of_emits ctx hemits

/-- **Unique readability**: with quotes escaped and plain remote names, a
    predicate appends the text of its form to any draft, the text determines
    the form, and so predicates with the same search text say the same. -/
theorem compile_uniquely_readable (ctx : Context) (hescaping : ctx.options.escaping = true)
    (hplain : ctx.fields.HasPlainNames) :
    (∀ (e : Expr) (f : Form ctx.fields), HasForm ctx e f →
      (∀ d : Draft, ∃ d', (e.operand ctx).visit d = .ok () d' ∧
        d'.out = d.out ++ f.text ctx.options.tightOr) ∧
      e.compile ctx =
        .ok { text := f.text ctx.options.tightOr, startAt := none, maxResults := none }) ∧
    Function.Injective (Form.text ctx.options.tightOr : Form ctx.fields → String) ∧
    ∀ (e e' : Expr) (f f' : Form ctx.fields), HasForm ctx e f → HasForm ctx e' f' →
      (e.compile ctx).map Search.text = (e'.compile ctx).map Search.text → f = f' := by
  have hinjective := Form.text_injective hplain ctx.options.tightOr
  refine ⟨fun e f hform => ⟨fun d => ?_, hform.compile_eq hescaping⟩, hinjective, ?_⟩
  · obtain ⟨next, hemits⟩ := hform.writes hescaping d.separator
    obtain ⟨events, _, hvisit⟩ := hemits d rfl
    exact ⟨_, hvisit, rfl⟩
  · intro e e' f f' hform hform' htext
    rw [hform.compile_eq hescaping, hform'.compile_eq hescaping] at htext
    exact hinjective (by simpa [Except.map] using htext)

/-- A context with two searchable fields that writes its alternatives tightly
    and escapes quotes. -/
def escapingContext : Context :=
  { fields := .ofList
      [({ owner := "Issue", name := "Summary" },
          { remoteName := "summary", abilities := .ofList [.contains], type := .string }),
       ({ owner := "Issue", name := "Votes" },
          { remoteName := "cf[10]", abilities := .ofList [], type := .int32 })]
    library := .standard
    options := { tightOr := true, escaping := true } }

/-- The summary of an issue. -/
def summaryNode : FieldNode escapingContext.fields :=
  { target := .parameter { name := "issue", type := .record "Issue" }
    property := { owner := "Issue", name := "Summary" }
    type := .string
    field := { remoteName := "summary", abilities := .ofList [.contains], type := .string }
    found := rfl }

/-- The votes for an issue. -/
def votesNode : FieldNode escapingContext.fields :=
  { target := .parameter { name := "issue", type := .record "Issue" }
    property := { owner := "Issue", name := "Votes" }
    type := .int32
    field := { remoteName := "cf[10]", abilities := .ofList [], type := .int32 }
    found := rfl }

/-- A summary with quotes and a connective in it, or one of two counts. -/
def quotedSummary : Expr :=
  .binary .orElse
    (.binary .equal summaryNode.expr (.ofValue (.str "a\" OR \"b")))
    (.membership votesNode.expr .wasNotIn (.ofValue (.array [.int 3, .int (-4)])))

/-- Its form. -/
def quotedSummaryForm : Form escapingContext.fields :=
  .either
    (.atom summaryNode.name (.compare .contains (.token (.quoted "a\" OR \"b"))))
    (.atom votesNode.name (.member .wasNotIn (.number 3) [.number (-4)]))

theorem compile_uniquely_readable_quotedSummary :
    escapingContext.options.escaping = true ∧ escapingContext.fields.HasPlainNames ∧
    HasForm escapingContext quotedSummary quotedSummaryForm ∧
    quotedSummary.compile escapingContext = .ok
      { text := "(summary ~ \"a\\\" OR \\\"b\" ORcf[10] was not in (3, -4))"
        startAt := none
        maxResults := none } := by
  have hplain : escapingContext.fields.HasPlainNames :=
    FieldTable.hasPlainNames_of_rows rfl
  have hsummary : HasForm escapingContext
      (.binary .equal summaryNode.expr (.ofValue (.str "a\" OR \"b"))) _ :=
    .atom (.equality summaryNode rfl (.token rfl trivial) (by simp [ofValue, asConstant?]))
  have hvotes : HasForm escapingContext
      (.membership votesNode.expr .wasNotIn (.ofValue (.array [.int 3, .int (-4)]))) _ :=
    .atom (.membership votesNode .wasNotIn rfl (Or.inl ⟨_, _, _, rfl, rfl, rfl⟩))
  have hform : HasForm escapingContext quotedSummary quotedSummaryForm :=
    .either (Or.inr rfl) hsummary hvotes
  exact ⟨rfl, hplain, hform,
    ((compile_uniquely_readable escapingContext rfl hplain).1 quotedSummary quotedSummaryForm
      hform).2⟩

end Expr

end IssueSearch
