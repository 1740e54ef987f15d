import IssueSearch.Proofs.Congruence

/-! # Writers that concur

    Two writers concur when, on drafts of one search, they leave drafts of one
    search whenever both of them succeed.  Nothing is said about the order of
    events on the way, nor about a writer that fails.

    * `Writer.concur_congruence`: everything a writer without paging is made of
      concurs with itself, so what is made of writers that concur does.
    * `Writer.concur_of_emits`: writers that emit the same text concur.
    * `Expr.literal?`: the text of a node that is written as a literal, though
      it may not be a constant; `Expr.emits_literal` says that this is what it
      emits. -/

namespace IssueSearch

/-! ## Writers that concur -/

/-- Two drafts of one search: only the record of what happened may differ. -/
structure Draft.Alike (d d' : Draft) : Prop where
  out        : d'.out = d.out
  filter     : d'.filter = d.filter
  order      : d'.order = d.order
  startAt    : d'.startAt = d.startAt
  maxResults : d'.maxResults = d.maxResults
  separator  : d'.separator = d.separator

theorem Draft.Alike.withCount {d d' : Draft} (h : d.Alike d') (n : UInt32) (slot : PageSlot) :
    (d.withCount n slot).Alike (d'.withCount n slot) := by
  cases slot with
  | startAt => exact { h with startAt := rfl }
  | maxResults => exact { h with maxResults := rfl }

theorem Draft.Alike.search {d d' : Draft} (h : d.Alike d') : d'.search = d.search := by
  simp [Draft.search, h.out, h.filter, h.order, h.startAt, h.maxResults]

namespace Writer

/-- Whenever both writers succeed on drafts of one search, they leave drafts of
    one search. -/
def Concur {α : Type} (w w' : Writer α) : Prop :=
  ∀ d d' a a' f f', w d = .ok a f → w' d' = .ok a' f' → d.Alike d' → a' = a ∧ f.Alike f'

/-- The writer never succeeds. -/
def Fails {α : Type} (w : Writer α) : Prop :=
  ∀ d a f, w d ≠ .ok a f

section Concur

variable {α β : Type} {w w' : Writer α}

theorem fails_throw (failure : SearchError) : (throw failure : Writer α).Fails := by
  intro d a f h
  cases h

theorem Fails.bind (h : w.Fails) (k : α → Writer β) : (w >>= k).Fails := by
  intro d b f hf
  obtain ⟨a, g, hw, _⟩ := ok_of_bind hf
  exact h d a g hw

/-- A writer that never succeeds concurs with every writer. -/
theorem Fails.concur (h : w.Fails) : Concur w w' :=
  fun d _ a _ f _ hf _ _ => absurd hf (h d a f)

theorem Fails.concur_right (h : w'.Fails) : Concur w w' :=
  fun _ d' _ a' _ f' _ hf' _ => absurd hf' (h d' a' f')

theorem concur_modify {change : Draft → Draft}
    (h : ∀ d d', d.Alike d' → (change d).Alike (change d')) :
    Concur (modify change) (modify change) := by
  intro d d' a a' f f' hf hf' hd
  cases hf
  cases hf'
  exact ⟨rfl, h d d' hd⟩

theorem Concur.bind {k k' : α → Writer β} (hw : Concur w w') (hk : ∀ a, Concur (k a) (k' a)) :
    Concur (w >>= k) (w' >>= k') := by
  intro d d' b b' f f' hf hf' hd
  obtain ⟨a, g, hwd, hf⟩ := ok_of_bind hf
  obtain ⟨a', g', hwd', hf'⟩ := ok_of_bind hf'
  obtain ⟨rfl, hg⟩ := hw d d' a a' g g' hwd hwd' hd
  exact hk a' g g' b b' f f' hf hf' hg

theorem Concur.node {w w' : Writer Unit} (hw : Concur w w') (kind kind' : String) :
    Concur (node kind w) (node kind' w') := by
  intro d d' a a' f f' hf hf' hd
  obtain ⟨g, hg, rfl⟩ := ok_of_node hf
  obtain ⟨g', hg', rfl⟩ := ok_of_node hf'
  obtain ⟨_, h⟩ := hw _ _ _ _ g g' hg hg'
    ⟨hd.out, hd.filter, hd.order, hd.startAt, hd.maxResults, hd.separator⟩
  exact ⟨rfl, h.out, h.filter, h.order, h.startAt, h.maxResults, h.separator⟩

theorem Concur.capture {w w' : Writer Unit} (hw : Concur w w') :
    Concur (capture w) (capture w') := by
  intro d d' a a' f f' hf hf' hd
  -- the text at hand is put aside, and put back after the text that is returned
  obtain ⟨g, hg, rfl, rfl⟩ := ok_of_capture hf
  obtain ⟨g', hg', rfl, rfl⟩ := ok_of_capture hf'
  obtain ⟨_, h⟩ := hw _ _ _ _ g g' hg hg' { hd with out := rfl }
  exact ⟨h.out, hd.out, h.filter, h.order, h.startAt, h.maxResults, h.separator⟩

/-- Everything a writer without paging is made of concurs with itself. -/
theorem concur_congruence : Congruence Concur where
  pure a := by
    intro d d' b b' f f' hf hf' hd
    cases hf
    cases hf'
    exact ⟨rfl, hd⟩
  throw failure := (fails_throw failure).concur
  bind := Concur.bind
  push fragment := concur_modify fun d d' h => by
    by_cases hempty : fragment = ""
    · rw [if_pos hempty, if_pos hempty]
      exact h
    · rw [if_neg hempty, if_neg hempty]
      exact { h with out := by rw [h.out] }
  setSeparator s := concur_modify fun d d' h => { h with separator := rfl }
  nextSeparator := by
    intro d d' a a' f f' hf hf' hd
    cases hf
    cases hf'
    exact ⟨by rw [hd.separator], { hd with separator := rfl }⟩
  node kind := fun h => h.node kind kind
  capture := Concur.capture
  addFilter clause := concur_modify fun d d' h => { h with filter := by simp only [h.filter] }
  addOrder refines descending key := concur_modify fun d d' h =>
    { h with order := by simp only [h.order] }

/-- Writers that emit the same text concur. -/
theorem concur_of_emits {m : Separator → Emission α} (hw : ∀ s, w.Emits s (.ok (m s)))
    (hw' : ∀ s, w'.Emits s (.ok (m s))) : Concur w w' := by
  intro d d' a a' f f' hf hf' hd
  obtain ⟨events, _, hwd⟩ := hw d.separator d rfl
  obtain ⟨events', _, hwd'⟩ := hw' d.separator d' hd.separator
  rw [hwd] at hf
  rw [hwd'] at hf'
  cases hf
  cases hf'
  exact ⟨rfl, { hd with out := by simp [Draft.after, hd.out], separator := rfl }⟩

/-- A count that is filled in where there is none. -/
theorem concur_setCount (name : String) (slot : PageSlot) (n : UInt32) :
    Concur (setCount name slot n) (setCount name slot n) := by
  intro d d' a a' f f' hf hf' hd
  obtain ⟨_, rfl⟩ := ok_of_setCount hf
  obtain ⟨_, rfl⟩ := ok_of_setCount hf'
  exact ⟨rfl, hd.withCount n slot⟩

end Concur

end Writer

/-! ## Literals -/

/-- The text of a literal; there is none for the absent value, a remote
    collection and a list without items. -/
def Literal.written? (escaping : Bool) (type : DataType) : Value → Option String
  | .null | .source _ | .array [] => none
  | value => some (scalar escaping type value)

namespace Writer

/-- Writes the text of a literal, if there is one. -/
def literal : Option String → Writer Unit
  | none => pure ()
  | some text => do
    let lead ← nextSeparator
    push lead
    push text

/-- A constant is written as its text. -/
theorem constant_eq_literal (escaping : Bool) (value : Value) (type : DataType) :
    constant escaping value type = literal (Literal.written? escaping type value) := by
  cases value with
  | array items => cases items <;> rfl
  | _ => rfl

/-- A literal is emitted from every separator. -/
theorem literal_emits (text? : Option String) :
    ∃ m : Separator → Emission Unit, ∀ s, (literal text?).Emits s (.ok (m s)) := by
  cases text? with
  | none => exact ⟨_, fun s => emits_pure () s⟩
  | some text => exact ⟨_, fun s => emits_separated text s⟩

end Writer

namespace Expr

/-- The text that a node is written as, if it is written as a literal: a
    constant, directly or under conversions; a property that is no field of the
    search, by its value; a value that is constructed from constants; and a step
    on the results, by what it is applied to. -/
def literal? (ctx : Context) : Expr → Option (Option String)
  | constant value type => some (Literal.written? ctx.options.escaping type value)
  | convert (constant value type) outer =>
    some (Literal.written? ctx.options.escaping (outer.orElse type) value)
  | convert operand _ => operand.literal? ctx
  | member target p type =>
    match ctx.fields.get? p, (member target p type).eval ctx.library with
    | none, .ok value =>
      some (Literal.written? ctx.options.escaping (type.orElse value.typeOf) value)
    | _, _ => none
  | construct name args =>
    match (Writer.constants? (argOperands ctx args)).map (ctx.library.construct name) with
    | some (.ok value) => some (Literal.written? ctx.options.escaping value.typeOf value)
    | _ => none
  | call (some source) method _ =>
    if !method.remote && isInMemoryName method.name then source.literal? ctx else none
  | call none method (source :: _) =>
    if !method.remote && isInMemoryName method.name then source.literal? ctx else none
  | _ => none

/-- A step on the results is written as what it is applied to. -/
theorem call_eq_visit {method : Method} (h : (!method.remote && isInMemoryName method.name) = true)
    (hasTarget : Bool) (source : Operand) (rest : List Operand) :
    Writer.call method hasTarget (source :: rest) = source.visit := by
  rw [Bool.and_eq_true, Bool.not_eq_true'] at h
  obtain ⟨hremote, hname⟩ := h
  obtain ⟨op, hop, hlater⟩ := (Option.any_eq_true _ _).mp hname
  have hrole : Role.ofName method.name = .operator op := by
    simp only [Role.ofName, hop]
  simp only [Writer.call, hremote, Bool.false_eq_true, if_false, hrole]
  cases op with
  | filter | sort _ | skip | take => cases hlater
  | _ => rfl

/-- **What is written as a literal emits its text.** -/
theorem emits_literal (ctx : Context) (e : Expr) (text? : Option String)
    (h : e.literal? ctx = some text?) {s : Separator} {outcome : Except SearchError (Emission Unit)}
    (hemits : (Writer.literal text?).Emits s outcome) :
    (e.operand ctx).visit.Emits s outcome := by
  fun_induction literal? ctx e with
  | case1 value type | case2 value type outer =>
    cases h
    rw [← Writer.constant_eq_literal] at hemits
    exact hemits.node _
  | case3 operand type hoperand ih =>
    have hnone : (convert operand type).asConstant? = none :=
      asConstant?_convert (fun ⟨value, type', heq⟩ => hoperand value type' heq) type
    simp only [Expr.operand, Operand.ofNode, hnone]
    exact (ih h).node _
  | case4 target p type value hvalue hfield =>
    cases h
    rw [← Writer.constant_eq_literal] at hemits
    refine Writer.Emits.node ?_ _
    show (Writer.member ctx (member target p type) p).Emits s outcome
    simp only [Writer.member, hfield, hvalue]
    exact hemits
  | case6 name args value hvalue =>
    cases h
    rw [← Writer.constant_eq_literal] at hemits
    obtain ⟨values, hvalues, hvalue⟩ := Option.map_eq_some_iff.mp hvalue
    refine Writer.Emits.node ?_ _
    show (Writer.construct ctx name (argOperands ctx args)).Emits s outcome
    simp only [Writer.construct, hvalues, hvalue]
    exact hemits
  | case8 source method args hlater ih | case10 method source args hlater ih =>
    refine Writer.Emits.node ?_ _
    show (Writer.call method _ (source.operand ctx :: argOperands ctx args)).Emits s outcome
    rw [call_eq_visit hlater]
    exact ih h
  | _ => cases h

end Expr

end IssueSearch
