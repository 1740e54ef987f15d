import IssueSearch.Proofs.Composition
import IssueSearch.Search.Bind

/-! # What a writer leaves behind

    A predicate is written into a draft that other parts of the search share.
    All that writing it may depend on is whether a comma has to stand before
    the next literal, and all that it may change is the text at hand, that
    separator and the record of what happened.

    * `Writer.Emits`: from a given separator, the writer has a given outcome,
      whatever else the draft holds.
    * `Writer.Writes`: from a given separator, the writer writes a given text.
    * `Writer.IsTextual`: from every separator, the writer has some outcome of
      this kind.
    * `Expr.operand_isTextual`: a tree without steps for the server is written
      by a textual writer.
    * `Expr.compile_of_emits`: the search of such a tree is its text, without
      paging. -/

namespace IssueSearch

/-! ## Roles of names -/

namespace Role

theorem ofName_operator (op : Operator) : ofName op.name = .operator op := by
  cases op with
  | sort step => cases step <;> rfl
  | _ => rfl

/-- An operator is known by its name. -/
theorem ofName?_name (op : Operator) : Operator.ofName? op.name = some op :=
  ofName?_eq_some (ofName_operator op)

theorem ofName_presence (p : Presence) : ofName p.name = .presence p := by
  cases p <;> rfl

theorem ofName_membership (m : Membership) : ofName m.name = .membership m := by
  cases m <;> rfl

theorem ofName_history (h : History) : ofName h.name = .history h := by
  cases h <;> rfl

theorem ofName_qualifier (q : Qualifier) : ofName q.name = .qualifier q := by
  cases q <;> rfl

end Role

namespace Writer

variable (hasTarget : Bool) (operands : List Operand)

theorem call_presence (p : Presence) :
    call { name := p.name, remote := false } hasTarget operands = presence p operands := by
  simp [call, Role.ofName_presence]

theorem call_membership (m : Membership) :
    call { name := m.name, remote := false } hasTarget operands = membership m operands := by
  simp [call, Role.ofName_membership]

theorem call_history (h : History) :
    call { name := h.name, remote := false } hasTarget operands = history h operands := by
  simp [call, Role.ofName_history]

theorem call_qualifier (q : Qualifier) :
    call { name := q.name, remote := false } hasTarget operands =
      qualifier q hasTarget operands := by
  simp [call, Role.ofName_qualifier]

end Writer

/-! ## Outcomes of a writer -/

/-- `Spells events text`: read in order, the pieces of text on record make up
    `text`.  No piece is empty and the search is not finished. -/
inductive Spells : List Event → String → Prop
  | nil : Spells [] ""
  | enter (kind : String) (depth : Nat) {events : List Event} {text : String} :
      Spells events text → Spells (.enter kind depth :: events) text
  | emit {fragment : String} {events : List Event} {text : String} :
      fragment ≠ "" → Spells events text → Spells (.emit fragment :: events) (fragment ++ text)

/-- Records in succession spell their texts in succession. -/
theorem Spells.append {xs ys : List Event} {s t : String} (hxs : Spells xs s)
    (hys : Spells ys t) : Spells (xs ++ ys) (s ++ t) := by
  induction hxs with
  | nil => simpa using hys
  | enter kind depth _ ih => exact .enter kind depth ih
  | emit hne _ ih =>
    rw [String.append_assoc]
    exact .emit hne ih

/-- What writing something comes to: a result, a text, and what stands before
    the next literal. -/
structure Emission (α : Type) where
  result    : α
  text      : String
  separator : Separator

/-- The second of two emissions, with the text of both. -/
def Emission.andThen {α β : Type} (m : Emission α) (n : Emission β) : Emission β :=
  { n with text := m.text ++ n.text }

/-- The draft after an emission that left the given record. -/
def Draft.after {α : Type} (d : Draft) (m : Emission α) (events : List Event) : Draft :=
  { d with out := d.out ++ m.text, separator := m.separator, events := d.events ++ events }

namespace Writer

variable {α β : Type}

/-- `w.Emits s outcome`: on every draft with separator `s`, the writer has the
    given outcome.  If it is an emission, the text is appended and nothing
    else of the draft changes. -/
def Emits (w : Writer α) (s : Separator) : Except SearchError (Emission α) → Prop
  | .ok m =>
    ∀ d : Draft, d.separator = s →
      ∃ events, Spells events m.text ∧ w d = .ok m.result (d.after m events)
  | .error failure => ∀ d : Draft, d.separator = s → ∃ d', w d = .error failure d'

/-- Whatever the separator, all that the writer does is to emit text or fail. -/
def IsTextual (w : Writer α) : Prop :=
  ∀ s, ∃ outcome, w.Emits s outcome

/-! ## Elementary writers -/

@[simp] theorem pure_apply (a : α) (d : Draft) : (pure a : Writer α) d = .ok a d := rfl

@[simp] theorem get_apply (d : Draft) : (get : Writer Draft) d = .ok d d := rfl

@[simp] theorem modify_apply (f : Draft → Draft) (d : Draft) :
    (modify f : Writer Unit) d = .ok () (f d) := rfl

@[simp] theorem bind_apply (w : Writer α) (k : α → Writer β) (d : Draft) :
    (w >>= k) d =
      match w d with
      | .ok a d'          => k a d'
      | .error failure d' => .error failure d' := by
  show EStateM.bind w k d = _
  unfold EStateM.bind
  cases w d <;> rfl

/-- Two writers in succession succeed only if each of them does. -/
theorem ok_of_bind {w : Writer α} {k : α → Writer β} {d f : Draft} {b : β}
    (h : (w >>= k) d = .ok b f) : ∃ a g, w d = .ok a g ∧ k a g = .ok b f := by
  rw [bind_apply] at h
  cases hw : w d with
  | error failure g =>
    rw [hw] at h
    cases h
  | ok a g =>
    rw [hw] at h
    exact ⟨a, g, rfl, h⟩

/-- A node succeeds only if what stands inside it does. -/
theorem ok_of_node {kind : String} {w : Writer Unit} {d f : Draft} {u : Unit}
    (h : node kind w d = .ok u f) :
    ∃ g, w { d with depth := d.depth + 1, events := d.events ++ [.enter kind d.depth] } = .ok () g ∧
      f = { g with depth := g.depth - 1 } := by
  obtain ⟨_, _, henter, h⟩ := ok_of_bind h
  cases henter
  obtain ⟨_, g, hw, h⟩ := ok_of_bind h
  cases h
  exact ⟨g, hw, rfl⟩

/-- A clean sheet is returned with what was written on it, and the text at hand
    is put back. -/
theorem ok_of_capture {w : Writer Unit} {d f : Draft} {text : String}
    (h : capture w d = .ok text f) :
    ∃ g, w { d with out := "" } = .ok () g ∧ text = g.out ∧ f = { g with out := d.out } := by
  obtain ⟨_, _, hget, h⟩ := ok_of_bind h
  cases hget
  obtain ⟨_, _, hclear, h⟩ := ok_of_bind h
  cases hclear
  obtain ⟨_, g, hw, h⟩ := ok_of_bind h
  cases h
  exact ⟨g, hw, rfl, rfl⟩

/-- If two writers in succession fail, one of them does. -/
theorem error_of_bind {w : Writer α} {k : α → Writer β} {d f : Draft} {failure : SearchError}
    (h : (w >>= k) d = .error failure f) :
    w d = .error failure f ∨ ∃ a g, w d = .ok a g ∧ k a g = .error failure f := by
  rw [bind_apply] at h
  cases hw : w d with
  | error failure' g =>
    rw [hw] at h
    cases h
    exact Or.inl rfl
  | ok a g =>
    rw [hw] at h
    exact Or.inr ⟨a, g, rfl, h⟩

/-- A node fails only as what stands inside it. -/
theorem error_of_node {kind : String} {w : Writer Unit} {d f : Draft} {failure : SearchError}
    (h : node kind w d = .error failure f) :
    w { d with depth := d.depth + 1, events := d.events ++ [.enter kind d.depth] } =
      .error failure f := by
  rcases error_of_bind h with henter | ⟨_, _, henter, h⟩
  · cases henter
  · cases henter
    rcases error_of_bind h with hw | ⟨_, _, _, hleave⟩
    · exact hw
    · cases hleave

/-- A clean sheet fails only as what is written on it. -/
theorem error_of_capture {w : Writer Unit} {d f : Draft} {failure : SearchError}
    (h : capture w d = .error failure f) : w { d with out := "" } = .error failure f := by
  rcases error_of_bind h with hget | ⟨_, _, hget, h⟩
  · cases hget
  · cases hget
    rcases error_of_bind h with hclear | ⟨_, _, hclear, h⟩
    · cases hclear
    · cases hclear
      rcases error_of_bind h with hw | ⟨_, _, _, hrest⟩
      · exact hw
      · cases hrest

section Counts

variable {name : String} {slot : PageSlot} {n : UInt32} {d f : Draft}

/-- A count is accepted where none was said before. -/
theorem setCount_of_none (h : d.count? slot = none) :
    setCount name slot n d = .ok () (d.withCount n slot) := by
  simp only [setCount, bind_apply, get_apply, h, Option.isSome_none, Bool.false_eq_true, if_false,
    modify_apply]

/-- It is refused where one was said before. -/
theorem setCount_of_some {m : UInt32} (h : d.count? slot = some m) :
    setCount name slot n d =
      .error (.unsupported name "may appear at most once per query") d := by
  simp only [setCount, bind_apply, get_apply, h, Option.isSome_some, if_true]
  rfl

theorem ok_of_setCount {u : Unit} (h : setCount name slot n d = .ok u f) :
    d.count? slot = none ∧ f = d.withCount n slot := by
  cases hcount : d.count? slot with
  | some m =>
    rw [setCount_of_some hcount] at h
    cases h
  | none =>
    rw [setCount_of_none hcount] at h
    cases h
    exact ⟨rfl, rfl⟩

theorem error_of_setCount {failure : SearchError} (h : setCount name slot n d = .error failure f) :
    failure = .unsupported name "may appear at most once per query" ∧ f = d := by
  cases hcount : d.count? slot with
  | some m =>
    rw [setCount_of_some hcount] at h
    cases h
    exact ⟨rfl, rfl⟩
  | none =>
    rw [setCount_of_none hcount] at h
    cases h

end Counts

theorem emits_pure (a : α) (s : Separator) :
    (pure a : Writer α).Emits s (.ok ⟨a, "", s⟩) := by
  intro d hd
  subst hd
  refine ⟨[], .nil, ?_⟩
  simp [Draft.after]

theorem emits_throw (failure : SearchError) (s : Separator) :
    (throw failure : Writer α).Emits s (.error failure) :=
  fun d _ => ⟨d, rfl⟩

theorem emits_unsupported (symbol reason : String) (s : Separator) :
    (unsupported symbol reason : Writer α).Emits s (.error (.unsupported symbol reason)) :=
  emits_throw _ s

theorem emits_push (fragment : String) (s : Separator) :
    (push fragment).Emits s (.ok ⟨(), fragment, s⟩) := by
  intro d hd
  subst hd
  by_cases hempty : fragment = ""
  · refine ⟨[], hempty ▸ .nil, ?_⟩
    simp [push, Draft.after, hempty]
  · have hspells : Spells [.emit fragment] (fragment ++ "") := .emit hempty .nil
    refine ⟨[.emit fragment], by simpa using hspells, ?_⟩
    simp [push, Draft.after, hempty]

/-- A writer that sets the separator emits nothing. -/
theorem emits_setSeparator (next s : Separator) :
    (modify fun d => { d with separator := next } : Writer Unit).Emits s (.ok ⟨(), "", next⟩) := by
  intro d _
  refine ⟨[], .nil, ?_⟩
  simp [Draft.after]

theorem emits_resetSeparator (s : Separator) :
    resetSeparator.Emits s (.ok ⟨(), "", .first⟩) :=
  emits_setSeparator .first s

theorem emits_nextSeparator (s : Separator) :
    nextSeparator.Emits s (.ok ⟨s.text, "", .later⟩) := by
  intro d hd
  subst hd
  refine ⟨[], .nil, ?_⟩
  have hnext : nextSeparator d = .ok d.separator.text { d with separator := .later } := rfl
  simp [hnext, Draft.after]

/-! ## Writers in succession -/

/-- After an emission comes what the rest emits from the separator it left. -/
theorem Emits.bind {w : Writer α} {k : α → Writer β} {s : Separator} {m : Emission α}
    {outcome : Except SearchError (Emission β)} (hw : w.Emits s (.ok m))
    (hk : (k m.result).Emits m.separator outcome) :
    (w >>= k).Emits s (outcome.map m.andThen) := by
  cases outcome with
  | ok n =>
    intro d hd
    obtain ⟨events, hspells, hwd⟩ := hw d hd
    obtain ⟨more, hmore, hkd⟩ := hk (d.after m events) rfl
    refine ⟨events ++ more, hspells.append hmore, ?_⟩
    rw [bind_apply, hwd]
    simp only [hkd]
    simp [Draft.after, Emission.andThen, String.append_assoc]
  | error failure =>
    intro d hd
    obtain ⟨events, _, hwd⟩ := hw d hd
    obtain ⟨d', hkd⟩ := hk (d.after m events) rfl
    refine ⟨d', ?_⟩
    rw [bind_apply, hwd]
    exact hkd

/-- After a failure comes nothing. -/
theorem Emits.bind_error {w : Writer α} {k : α → Writer β} {s : Separator}
    {failure : SearchError} (hw : w.Emits s (.error failure)) :
    (w >>= k).Emits s (.error failure) := by
  intro d hd
  obtain ⟨d', hwd⟩ := hw d hd
  refine ⟨d', ?_⟩
  rw [bind_apply, hwd]

theorem IsTextual.bind {w : Writer α} {k : α → Writer β} (hw : w.IsTextual)
    (hk : ∀ a, (k a).IsTextual) : (w >>= k).IsTextual := by
  intro s
  obtain ⟨outcome, hs⟩ := hw s
  cases outcome with
  | ok m =>
    obtain ⟨rest, hrest⟩ := hk m.result m.separator
    exact ⟨_, hs.bind hrest⟩
  | error failure => exact ⟨_, hs.bind_error⟩

/-- A node is emitted as what stands inside it: the depth is the same before
    and after. -/
theorem Emits.node {w : Writer Unit} {s : Separator} {outcome : Except SearchError (Emission Unit)}
    (hw : w.Emits s outcome) (kind : String) : (Writer.node kind w).Emits s outcome := by
  cases outcome with
  | ok m =>
    intro d hd
    obtain ⟨events, hspells, hwd⟩ :=
      hw { d with depth := d.depth + 1, events := d.events ++ [.enter kind d.depth] } hd
    refine ⟨.enter kind d.depth :: events, .enter kind d.depth hspells, ?_⟩
    simp only [Writer.node, bind_apply, modify_apply, hwd]
    simp [Draft.after]
  | error failure =>
    intro d hd
    obtain ⟨d', hwd⟩ :=
      hw { d with depth := d.depth + 1, events := d.events ++ [.enter kind d.depth] } hd
    refine ⟨d', ?_⟩
    simp only [Writer.node, bind_apply, modify_apply, hwd]

/-- A text after its separator. -/
theorem emits_separated (text : String) (s : Separator) :
    (do let lead ← nextSeparator; push lead; push text).Emits s
      (.ok ⟨(), s.text ++ text, .later⟩) := by
  have hboth := (emits_nextSeparator s).bind (k := fun lead => do push lead; push text)
    ((emits_push s.text .later).bind (k := fun _ => push text) (emits_push text .later))
  simpa [Except.map, Emission.andThen] using hboth

/-! ## Texts -/

/-- `w.Writes s text`: from the separator, the writer writes the text. -/
def Writes (w : Writer Unit) (s : Separator) (text : String) : Prop :=
  ∃ next, w.Emits s (.ok ⟨(), text, next⟩)

theorem writes_push (fragment : String) (s : Separator) : (push fragment).Writes s fragment :=
  ⟨s, emits_push fragment s⟩

/-- After an emission, the rest is written from the separator it left. -/
theorem Emits.writes {v : Writer α} {k : α → Writer Unit} {s : Separator}
    {m : Emission α} {u : String} (hv : v.Emits s (.ok m))
    (hk : (k m.result).Writes m.separator u) : (v >>= k).Writes s (m.text ++ u) := by
  obtain ⟨last, hlast⟩ := hk
  exact ⟨last, hv.bind hlast⟩

/-- Where the separator makes no difference, texts are written in succession. -/
theorem Writes.bind {v w : Writer Unit} {s : Separator} {t u : String} (hv : v.Writes s t)
    (hw : ∀ next, w.Writes next u) : (do v; w).Writes s (t ++ u) := by
  obtain ⟨next, hemits⟩ := hv
  exact hemits.writes (hw next)

/-- After a fresh start, what comes next begins a list. -/
theorem writes_resetSeparator {w : Writer Unit} {t : String} (hw : w.Writes .first t)
    (s : Separator) : (do resetSeparator; w).Writes s t := by
  have hboth := (emits_resetSeparator s).writes (k := fun _ => w) hw
  simpa using hboth

theorem Writes.node {w : Writer Unit} {s : Separator} {t : String} (hw : w.Writes s t)
    (kind : String) : (Writer.node kind w).Writes s t := by
  obtain ⟨next, hemits⟩ := hw
  exact ⟨next, hemits.node kind⟩

/-! ## Textual writers -/

/-- Without paging and without clauses to collect, all that a writer can do is
    to emit text or fail. -/
theorem Composed.isTextual {powers : Powers} {w : Writer α} (h : w.Composed powers)
    (hpages : ¬ powers.pages) (hcollects : ¬ powers.collects) : w.IsTextual := by
  induction h with
  | pure a => exact fun s => ⟨_, emits_pure a s⟩
  | throw _ => exact fun s => ⟨_, emits_throw _ s⟩
  | bind _ _ ihw ihk => exact ihw.bind ihk
  | push fragment => exact fun s => ⟨_, emits_push fragment s⟩
  | setSeparator next => exact fun s => ⟨_, emits_setSeparator next s⟩
  | nextSeparator => exact fun s => ⟨_, emits_nextSeparator s⟩
  | node kind _ ih =>
    intro s
    obtain ⟨outcome, hs⟩ := ih s
    exact ⟨outcome, hs.node kind⟩
  | setCount _ _ hp _ => exact absurd hp hpages
  | capture hc _ _ | addFilter _ hc | addOrder _ _ _ hc => exact absurd hc hcollects

end Writer

/-! ## Trees -/

namespace Expr

/-- No step that the server carries out is a part of the tree. -/
def HasNoServerStep (e : Expr) : Prop :=
  ∀ target method args, (call target method args).Within e → isServerStep method = false

theorem HasNoServerStep.child {c e : Expr} (h : e.HasNoServerStep) (hc : c ∈ e.children) :
    c.HasNoServerStep :=
  fun target method args hwithin => h target method args (.child hc hwithin)

/-- Whether a tree has such a step is decided at the node and below it. -/
theorem hasNoServerStep_iff (e : Expr) :
    e.HasNoServerStep ↔
      (∀ target method args, e = call target method args → isServerStep method = false) ∧
        ∀ c ∈ e.children, c.HasNoServerStep := by
  constructor
  · intro h
    refine ⟨?_, fun c hc => h.child hc⟩
    rintro target method args rfl
    exact h target method args .self
  · rintro ⟨hself, hbelow⟩ target method args hwithin
    rcases within_iff.mp hwithin with heq | ⟨c, hc, hwithin⟩
    · exact hself target method args heq.symm
    · exact hbelow c hc target method args hwithin

@[simp] theorem hasNoServerStep_binary {op : BinaryOp} {left right : Expr} :
    (binary op left right).HasNoServerStep ↔ left.HasNoServerStep ∧ right.HasNoServerStep := by
  rw [hasNoServerStep_iff]
  simp [children]

@[simp] theorem hasNoServerStep_member {target : Expr} {p : Property} {type : DataType} :
    (member target p type).HasNoServerStep ↔ target.HasNoServerStep := by
  rw [hasNoServerStep_iff]
  simp [children]

@[simp] theorem hasNoServerStep_constant (value : Value) (type : DataType) :
    (constant value type).HasNoServerStep := by
  rw [hasNoServerStep_iff]
  simp [children]

@[simp] theorem hasNoServerStep_parameter (param : Param) :
    (parameter param).HasNoServerStep := by
  rw [hasNoServerStep_iff]
  simp [children]

/-- A searchable property is written as its remote name. -/
theorem emits_field (ctx : Context) {target : Expr} {p : Property} {type : DataType}
    {field : Field} (h : ctx.fields.get? p = some field) (s : Separator) :
    ((member target p type).operand ctx).visit.Emits s (.ok ⟨(), field.remoteName, s⟩) := by
  refine Writer.Emits.node ?_ _
  simp only [asConstant?, Writer.member, h]
  exact Writer.emits_push _ s

/-- A step that says the paging, or collects a clause, is one for the server. -/
theorem isServerStep_of_paging_or_collecting {target : Option Expr} {method : Method}
    {args : List Expr}
    (h : (call target method args).isPagingStep = true ∨
      (call target method args).isCollectingStep = true) : isServerStep method = true := by
  simp only [isPagingStep, isCollectingStep, Bool.and_eq_true, Option.any_eq_true] at h
  rw [isServerStep, Bool.and_eq_true, isServerSideName, Option.any_eq_true]
  rcases h with ⟨hremote, op, hop, hpaging⟩ | ⟨hremote, op, hop, hcollecting⟩
  · refine ⟨hremote, op, hop, ?_⟩
    rcases Bool.or_eq_true_iff.mp hpaging with hskip | htake
    · rw [eq_of_beq hskip]
      rfl
    · rw [eq_of_beq htake]
      rfl
  · exact ⟨hremote, op, hop, hcollecting.1.1⟩

/-- Without steps for the server, no part asks for more than to fail. -/
theorem HasNoServerStep.suffice (ctx : Context) {e : Expr} (h : e.HasNoServerStep) :
    e.AllParts (Powers.Suffice { Powers.all with pages := False, collects := False } ctx) := by
  intro t ht
  have hnone : ¬ (t.isPagingStep = true ∨ t.isCollectingStep = true) := by
    intro hstep
    cases t with
    | call target method args =>
      have hno := h target method args ht
      rw [isServerStep_of_paging_or_collecting hstep] at hno
      cases hno
    | _ => simp [isPagingStep, isCollectingStep] at hstep
  exact ⟨fun _ _ => trivial, fun hpages => hnone (Or.inl hpages),
    fun hcollects => hnone (Or.inr hcollects)⟩

/-- **Locality of predicates**: a tree without steps for the server is written
    by a textual writer. -/
theorem operand_isTextual (ctx : Context) {e : Expr} (h : e.HasNoServerStep) :
    (e.operand ctx).visit.IsTextual :=
  (e.operand_composed (h.suffice ctx)).visit.isTextual id id

/-- A tree that was written is finished with what the draft amounts to. -/
theorem compileTraced_of_visit_ok (ctx : Context) {e : Expr} {d : Draft}
    (h : (e.operand ctx).visit .blank = .ok () d) :
    e.compileTraced ctx = (.ok d.search, d.events ++ [.finish d.search]) := by
  have hwrite : e.write ctx .blank =
      .ok d.search { d with events := d.events ++ [.finish d.search] } := by
    show ((e.operand ctx).visit >>= _) Draft.blank = _
    rw [Writer.bind_apply, h]
    rfl
  simp only [compileTraced, EStateM.run, hwrite]

/-- A tree that cannot be written is not finished. -/
theorem compileTraced_of_visit_error (ctx : Context) {e : Expr} {failure : SearchError} {d : Draft}
    (h : (e.operand ctx).visit .blank = .error failure d) :
    e.compileTraced ctx = (.error failure, d.events) := by
  have hwrite : e.write ctx .blank = .error failure d := by
    show ((e.operand ctx).visit >>= _) Draft.blank = _
    rw [Writer.bind_apply, h]
  simp only [compileTraced, EStateM.run, hwrite]

/-- The search of a tree is what the draft amounts to after writing it. -/
theorem compile_of_visit_ok (ctx : Context) {e : Expr} {d : Draft}
    (h : (e.operand ctx).visit .blank = .ok () d) : e.compile ctx = .ok d.search :=
  congrArg Prod.fst (compileTraced_of_visit_ok ctx h)

/-- A tree that cannot be written has no search. -/
theorem compile_of_visit_error (ctx : Context) {e : Expr} {failure : SearchError} {d : Draft}
    (h : (e.operand ctx).visit .blank = .error failure d) : e.compile ctx = .error failure :=
  congrArg Prod.fst (compileTraced_of_visit_error ctx h)

/-- A tree that has a search was written, and the search is what the draft
    amounts to. -/
theorem visit_of_compile (ctx : Context) {e : Expr} {search : Search}
    (h : e.compile ctx = .ok search) :
    ∃ d, (e.operand ctx).visit .blank = .ok () d ∧ d.search = search := by
  cases hvisit : (e.operand ctx).visit .blank with
  | error failure d =>
    rw [compile_of_visit_error ctx hvisit] at h
    cases h
  | ok _ d =>
    rw [compile_of_visit_ok ctx hvisit] at h
    cases h
    exact ⟨d, rfl, rfl⟩

/-- The search of a tree that only emits text is that text, without paging. -/
theorem compile_of_emits (ctx : Context) {e : Expr}
    {outcome : Except SearchError (Emission Unit)}
    (h : (e.operand ctx).visit.Emits .first outcome) :
    e.compile ctx =
      outcome.map fun m => { text := m.text, startAt := none, maxResults := none } := by
  cases outcome with
  | ok m =>
    obtain ⟨events, _, hvisit⟩ := h .blank rfl
    rw [compile_of_visit_ok ctx hvisit]
    simp [Draft.search, Draft.after, Draft.blank, Except.map]
  | error failure =>
    obtain ⟨d, hvisit⟩ := h .blank rfl
    rw [compile_of_visit_error ctx hvisit]
    rfl

end Expr

end IssueSearch
