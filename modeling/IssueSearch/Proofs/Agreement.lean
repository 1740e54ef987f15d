import IssueSearch.Eval.Meaning
import Mathlib.Data.List.Forall2

/-! # Outcomes that agree

    Two evaluations agree when both succeed with the same value, or both fail
    for the same reason.  The detail of a type mismatch is left out of the
    comparison: it names the kind of node or value that was met, and a node
    that was replaced by its value is of another kind.

    A second comparison is one-sided: an evaluation refines another if it
    succeeds wherever the other does, with the same value.

    * `Comparison`: what a comparison of outcomes has to respect.
    * `Meaning.Related`: what has to compare at a node, and `Meaning.Agree`, the
      same for agreement.
    * `Meaning.call_related` and so on: every operation of the evaluator
      respects every comparison; given parts that compare, it yields wholes
      that compare. -/

namespace IssueSearch

/-- Two failures that differ at most in the detail of a type mismatch. -/
inductive EvalError.Alike : EvalError → EvalError → Prop
  | same (e : EvalError) : Alike e e
  | detail (operation d d' : String) :
      Alike (.typeMismatch operation d) (.typeMismatch operation d')

/-- Two outcomes that agree. -/
inductive Agree {α : Type} : Except EvalError α → Except EvalError α → Prop
  | ok (a : α) : Agree (.ok a) (.ok a)
  | error {e e' : EvalError} : e.Alike e' → Agree (.error e) (.error e')

namespace Agree

variable {α β : Type}

/-- Every outcome agrees with itself. -/
theorem refl (x : Except EvalError α) : Agree x x := by
  cases x with
  | ok a => exact .ok a
  | error e => exact .error (.same e)

/-- Computations that agree, followed by computations that agree, agree. -/
theorem bind {x y : Except EvalError α} {f g : α → Except EvalError β} (h : Agree x y)
    (hfg : ∀ a, Agree (f a) (g a)) : Agree (x >>= f) (y >>= g) := by
  cases h with
  | ok a => exact hfg a
  | error he => exact .error he

/-- Outcomes that agree succeed with the same values. -/
theorem ok_iff {x y : Except EvalError α} (h : Agree x y) (a : α) : y = .ok a ↔ x = .ok a := by
  cases h with
  | ok b => exact Iff.rfl
  | error _ => simp

/-- Outcomes that agree fail for the same reason. -/
theorem alike {x y : Except EvalError α} (h : Agree x y) {e e' : EvalError}
    (hx : x = .error e) (hy : y = .error e') : e.Alike e' := by
  cases h with
  | ok b => cases hx
  | error he =>
    cases hx
    cases hy
    exact he

/-- What agrees with something unsupported is unsupported. -/
theorem unsupported {x y : Except EvalError α} (h : Agree x y) {what : String}
    (hx : x = .error (.unsupported what)) : y = .error (.unsupported what) := by
  cases h with
  | ok b => cases hx
  | error he =>
    cases hx
    cases he with
    | same => rfl

end Agree

/-- `Refines x y`: whenever `y` succeeds, `x` does so with the same result. -/
def Refines {α : Type} (x y : Except EvalError α) : Prop :=
  ∀ a, y = .ok a → x = .ok a

/-! ## Comparisons -/

/-- A comparison of outcomes that evaluation respects: it passes to computations
    one after another, and it may ignore the detail of a type mismatch. -/
structure Comparison (R : ∀ {α : Type}, Except EvalError α → Except EvalError α → Prop) :
    Prop where
  refl {α : Type} (x : Except EvalError α) : R x x
  bind {α β : Type} {x y : Except EvalError α} {f g : α → Except EvalError β} :
    R x y → (∀ a, R (f a) (g a)) → R (x >>= f) (y >>= g)
  mismatch {α : Type} (operation d d' : String) :
    R (.error (.typeMismatch operation d) : Except EvalError α)
      (.error (.typeMismatch operation d'))

theorem agree_comparison : Comparison Agree where
  refl := Agree.refl
  bind := Agree.bind
  mismatch operation d d' := .error (.detail operation d d')

theorem refines_comparison : Comparison Refines where
  refl x := fun _ hx => hx
  bind := by
    intro α β x y f g hxy hfg b hb
    cases y with
    | error e => cases hb
    | ok a =>
      rw [hxy a rfl]
      exact hfg a b hb
  mismatch _ _ _ := by
    intro a ha
    cases ha

/-- Computations that compare still do after the same continuation. -/
theorem Comparison.next {R : ∀ {α : Type}, Except EvalError α → Except EvalError α → Prop}
    (hR : Comparison R) {α β : Type} {x y : Except EvalError α} (h : R x y)
    (f : α → Except EvalError β) : R (x >>= f) (y >>= f) :=
  hR.bind h fun a => hR.refl (f a)

section Comparison

variable {R : ∀ {α : Type}, Except EvalError α → Except EvalError α → Prop}

/-! ## Operations on lists -/

namespace Sequence

/-- Two keys of one direction whose values compare on every item. -/
structure SortKey.Related (R : ∀ {α : Type}, Except EvalError α → Except EvalError α → Prop)
    (k k' : SortKey) : Prop where
  direction : k.descending = k'.descending
  key       : ∀ v, R (k.key v) (k'.key v)

variable {f g : ItemFunction} {keys keys' : List SortKey} (hR : Comparison R)

include hR

theorem mapItems_related (h : ∀ v, R (f v) (g v)) (items : List Value) :
    R (mapItems f items) (mapItems g items) := by
  induction items with
  | nil => exact hR.refl _
  | cons item rest ih => exact hR.bind (h item) fun result => hR.next ih _

theorem holds_related (operation : String) (h : ∀ v, R (f v) (g v)) (item : Value) :
    R (holds operation f item) (holds operation g item) :=
  hR.next (h item) _

theorem keep_related (operation : String) (h : ∀ v, R (f v) (g v)) (items : List Value) :
    R (keep operation f items) (keep operation g items) := by
  induction items with
  | nil => exact hR.refl _
  | cons item rest ih =>
    exact hR.bind (holds_related hR operation h item) fun kept => hR.next ih _

theorem keyValues_related (h : List.Forall₂ (SortKey.Related R) keys keys') (item : Value) :
    R (keyValues keys item) (keyValues keys' item) := by
  induction h with
  | nil => exact hR.refl _
  | cons hk _ ih => exact hR.bind (hk.key item) fun value => hR.next ih _

theorem withKeys_related (h : List.Forall₂ (SortKey.Related R) keys keys') (items : List Value) :
    R (withKeys keys items) (withKeys keys' items) := by
  induction items with
  | nil => exact hR.refl _
  | cons item rest ih => exact hR.bind (keyValues_related hR h item) fun values => hR.next ih _

omit hR in
theorem directions_eq (h : List.Forall₂ (SortKey.Related R) keys keys') :
    keys.map SortKey.descending = keys'.map SortKey.descending := by
  induction h with
  | nil => rfl
  | cons hk _ ih => rw [List.map_cons, List.map_cons, hk.direction, ih]

theorem sortBy_related (h : List.Forall₂ (SortKey.Related R) keys keys') (items : List Value) :
    R (sortBy keys items) (sortBy keys' items) := by
  unfold sortBy
  rw [directions_eq h]
  exact hR.next (withKeys_related hR h items) _

end Sequence

/-! ## Meanings -/

/-- Two keys of one direction whose values compare in every scope. -/
structure ScopedKey.Related (R : ∀ {α : Type}, Except EvalError α → Except EvalError α → Prop)
    (k k' : ScopedKey) : Prop where
  direction : k.descending = k'.descending
  key       : ∀ scope v, R (k.key scope v) (k'.key scope v)

/-- A key in a scope. -/
def ScopedKey.inScope (scope : Scope) (k : ScopedKey) : Sequence.SortKey :=
  { descending := k.descending, key := k.key scope }

namespace Meaning

/-- Sorts what an ordering step is about by the keys of the step, and then by
    the keys of the steps that refine it. -/
def sortThrough (ordering : Except EvalError (List ScopedKey × ScopedValue))
    (more : List ScopedKey) (scope : Scope) : Except EvalError Value := do
  let (keys, source) ← ordering
  let items ← items (Operator.sort .orderBy).name source scope
  .ok (.array (← Sequence.sortBy ((keys ++ more).map (ScopedKey.inScope scope)) items))

/-- Sorting through keys sorts the items they are about. -/
theorem sortThrough_items {source : ScopedValue} {scope : Scope} {xs : List Value}
    (h : items (Operator.sort .orderBy).name source scope = .ok xs) (keys more : List ScopedKey) :
    sortThrough (.ok (keys, source)) more scope =
      Value.array <$> Sequence.sortBy
        (keys.map (ScopedKey.inScope scope) ++ more.map (ScopedKey.inScope scope)) xs := by
  show (items _ source scope >>= _) = _
  rw [h, ← List.map_append]
  show (Sequence.sortBy ((keys ++ more).map (ScopedKey.inScope scope)) xs >>= _) = _
  cases Sequence.sortBy ((keys ++ more).map (ScopedKey.inScope scope)) xs <;> rfl

/-- The value of an ordering step sorts through its own keys alone. -/
theorem sorted_eq (step : SortStep) (operands : List Meaning) (scope : Scope) :
    sorted step operands scope = sortThrough (orderingOf step operands) [] scope := by
  unfold sorted sortThrough
  cases orderingOf step operands with
  | error e => rfl
  | ok ordering =>
    obtain ⟨keys, source⟩ := ordering
    simp only [List.append_nil]
    rfl

/-- Two nodes that compare, whatever they are asked for.  The third part compares
    what the nodes contribute to an ordering step on top of them: the keys may
    differ as long as sorting through them does not. -/
structure Related (R : ∀ {α : Type}, Except EvalError α → Except EvalError α → Prop)
    (m m' : Meaning) : Prop where
  value   : ∀ scope, R (m.value scope) (m'.value scope)
  apply   : ∀ scope v, R (m.apply scope v) (m'.apply scope v)
  sorting : ∀ more more' scope, List.Forall₂ (ScopedKey.Related R) more more' →
    R (sortThrough m.ordering more scope) (sortThrough m'.ordering more' scope)

/-- Two nodes that agree, whatever they are asked for. -/
abbrev Agree (m m' : Meaning) : Prop :=
  Related IssueSearch.Agree m m'

variable (hR : Comparison R)

include hR

theorem items_related {source source' : ScopedValue} {scope : Scope} (operation : String)
    (h : R (source scope) (source' scope)) :
    R (items operation source scope) (items operation source' scope) :=
  hR.next h _

omit hR in
/-- Keys that compare in every scope compare in each scope. -/
theorem inScope_related {keys keys' : List ScopedKey}
    (h : List.Forall₂ (ScopedKey.Related R) keys keys') (scope : Scope) :
    List.Forall₂ (Sequence.SortKey.Related R) (keys.map (ScopedKey.inScope scope))
      (keys'.map (ScopedKey.inScope scope)) := by
  rw [List.forall₂_map_left_iff, List.forall₂_map_right_iff]
  exact h.imp fun k k' hk => ⟨hk.direction, hk.key scope⟩

/-- Keys that compare sort alike what compares. -/
theorem sortThrough_related {keys keys' more more' : List ScopedKey}
    {source source' : ScopedValue} {scope : Scope}
    (hkeys : List.Forall₂ (ScopedKey.Related R) keys keys')
    (hmore : List.Forall₂ (ScopedKey.Related R) more more')
    (hsource : R (source scope) (source' scope)) :
    R (sortThrough (.ok (keys, source)) more scope)
      (sortThrough (.ok (keys', source')) more' scope) := by
  show R (items _ source scope >>= _) (items _ source' scope >>= _)
  refine hR.bind (items_related hR _ hsource) fun items => ?_
  have hall := inScope_related (List.rel_append hkeys hmore) scope
  exact hR.next (Sequence.sortBy_related hR hall items) _

/-- Nodes that are neither lambdas nor ordering steps compare if their values
    do. -/
theorem plain_related {kind kind' : String} {value value' : ScopedValue}
    (h : ∀ scope, R (value scope) (value' scope)) :
    Related R (plain kind value) (plain kind' value') where
  value := h
  apply := fun _ _ => hR.mismatch _ _ _
  sorting := fun _ _ scope hmore => sortThrough_related hR .nil hmore (h scope)

/-! ### Operators -/

variable {scope : Scope}

theorem bool_related (op : BinaryOp) {operand operand' : ScopedValue}
    (h : R (operand scope) (operand' scope)) :
    R (bool op operand scope) (bool op operand' scope) :=
  hR.next h _

theorem binary_related (op : BinaryOp) {left left' right right' : ScopedValue}
    (hl : R (left scope) (left' scope)) (hr : R (right scope) (right' scope)) :
    R (binary op left right scope) (binary op left' right' scope) := by
  have hstrict : ∀ op : BinaryOp, R
      (do applyStrict op (← left scope) (← right scope))
      (do applyStrict op (← left' scope) (← right' scope)) := by
    intro op
    refine hR.bind hl fun l => ?_
    exact hR.next hr _
  cases op with
  | and | andAlso =>
    refine hR.bind (bool_related hR _ hl) fun b => ?_
    cases b with
    | true => exact hR.next (bool_related hR _ hr) _
    | false => exact hR.refl _
  | or | orElse =>
    refine hR.bind (bool_related hR _ hl) fun b => ?_
    cases b with
    | true => exact hR.refl _
    | false => exact hR.next (bool_related hR _ hr) _
  | _ => exact hstrict _

/-! ### Calls -/

variable {operands operands' : List Meaning}

theorem values_related (h : List.Forall₂ (Related R) operands operands') :
    R (values operands scope) (values operands' scope) := by
  induction h with
  | nil => exact hR.refl _
  | cons hm _ ih =>
    refine hR.bind (hm.value scope) fun value => ?_
    exact hR.next ih _

/-- The key that an ordering step adds. -/
def stepKey (step : SortStep) (key : Meaning) : ScopedKey :=
  { descending := step.isDescending, key := key.apply }

omit hR in
/-- Keys may be counted to the step or to the steps that refine it. -/
theorem sortThrough_append (keys middle more : List ScopedKey) (source : ScopedValue)
    (scope : Scope) :
    sortThrough (.ok (keys ++ middle, source)) more scope =
      sortThrough (.ok (keys, source)) (middle ++ more) scope := by
  have hkeys : (keys ++ middle) ++ more = keys ++ (middle ++ more) := List.append_assoc ..
  exact congrArg (fun all => (do
    let items ← items (Operator.sort .orderBy).name source scope
    Except.ok (Value.array (← Sequence.sortBy (all.map (ScopedKey.inScope scope)) items)))) hkeys

omit hR in
/-- A refining step hands its key down to the steps below it. -/
theorem sortThrough_refining {step : SortStep} (hstep : step.refines = true)
    (source key : Meaning) (rest : List Meaning) (more : List ScopedKey) (scope : Scope) :
    sortThrough (orderingOf step (source :: key :: rest)) more scope =
      sortThrough source.ordering (stepKey step key :: more) scope := by
  simp only [orderingOf, hstep, if_true]
  cases source.ordering with
  | error e => rfl
  | ok ordering => exact sortThrough_append ordering.1 [stepKey step key] more ordering.2 scope

omit hR in
/-- A step that starts anew sorts the value below it. -/
theorem orderingOf_fresh {step : SortStep} (hstep : step.refines = false)
    (source key : Meaning) (rest : List Meaning) :
    orderingOf step (source :: key :: rest) = .ok ([stepKey step key], source.value) := by
  simp only [orderingOf, hstep]
  rfl

/-- A step on top of nodes that compare sorts alike. -/
theorem orderingOf_related (step : SortStep) (h : List.Forall₂ (Related R) operands operands')
    {more more' : List ScopedKey} (hmore : List.Forall₂ (ScopedKey.Related R) more more') :
    R (sortThrough (orderingOf step operands) more scope)
      (sortThrough (orderingOf step operands') more' scope) := by
  cases h with
  | nil => exact hR.refl _
  | @cons source source' _ _ hsource hrest =>
    cases hrest with
    | nil => exact hR.refl _
    | @cons key key' _ _ hkey _ =>
      have hlast : ScopedKey.Related R (stepKey step key) (stepKey step key') :=
        ⟨rfl, hkey.apply⟩
      cases hrefines : step.refines with
      | true =>
        -- what lies below is only known through how it sorts
        rw [sortThrough_refining hrefines, sortThrough_refining hrefines]
        exact hsource.sorting _ _ scope (.cons hlast hmore)
      | false =>
        rw [orderingOf_fresh hrefines, orderingOf_fresh hrefines]
        exact sortThrough_related hR (.cons hlast .nil) hmore (hsource.value scope)

/-- The function of a step, if there is one. -/
theorem keepIf_related (operation : String) {m? m?' : Option Meaning}
    (h : Option.Rel (Related R) m? m?') (items : List Value) :
    R (Sequence.keepIf operation (m?.map fun m => m.apply scope) items)
      (Sequence.keepIf operation (m?'.map fun m => m.apply scope) items) := by
  cases h with
  | none => exact hR.refl _
  | some hm => exact Sequence.keep_related hR operation (hm.apply scope) items

theorem pageCount_related (op : Operator) {m? m?' : Option Meaning}
    (h : Option.Rel (Related R) m? m?') :
    R (pageCount op m? scope) (pageCount op m?' scope) := by
  cases h with
  | none => exact hR.refl _
  | some hm => exact hR.next (hm.value scope) _

theorem onItems_related (op : Operator) {m? m?' : Option Meaning}
    (h : Option.Rel (Related R) m? m?') (items : List Value) :
    R (onItems op m? scope items) (onItems op m?' scope items) := by
  cases op with
  | filter =>
    cases h with
    | none => exact hR.refl _
    | some hm => exact hR.next (Sequence.keep_related hR _ (hm.apply scope) items) _
  | select =>
    cases h with
    | none => exact hR.refl _
    | some hm => exact hR.next (Sequence.mapItems_related hR (hm.apply scope) items) _
  | skip | take => exact hR.next (pageCount_related hR _ h) _
  | count | any | first | firstOrDefault => exact hR.next (keepIf_related hR _ h items) _
  | distinct | toList | sort _ => exact hR.refl _

omit hR in
/-- Without operands there is nothing to step over. -/
theorem operator_nil (op : Operator) (scope : Scope) :
    operator op [] scope = .error (.typeMismatch op.name "missing source sequence") := by
  cases op <;> rfl

omit hR in
/-- A step that does not sort works on the items of its first operand. -/
theorem operator_cons {op : Operator} (hop : ∀ step, op ≠ .sort step) (source : Meaning)
    (rest : List Meaning) (scope : Scope) :
    operator op (source :: rest) scope =
      items op.name source.value scope >>= onItems op rest.head? scope := by
  cases op with
  | sort step => exact absurd rfl (hop step)
  | _ => rfl

theorem operator_related (op : Operator) (h : List.Forall₂ (Related R) operands operands') :
    R (operator op operands scope) (operator op operands' scope) := by
  by_cases hop : ∃ step, op = .sort step
  · obtain ⟨step, rfl⟩ := hop
    show R (sorted step operands scope) (sorted step operands' scope)
    rw [sorted_eq, sorted_eq]
    exact orderingOf_related hR step h .nil
  · have hop' : ∀ step, op ≠ .sort step := fun step hs => hop ⟨step, hs⟩
    cases h with
    | nil => exact hR.refl _
    | @cons source source' rest rest' hsource hrest =>
      have hhead : Option.Rel (Related R) rest.head? rest'.head? := by
        cases hrest with
        | nil => exact .none
        | cons hm _ => exact .some hm
      rw [operator_cons hop', operator_cons hop']
      exact hR.bind (items_related hR _ (hsource.value scope)) fun items =>
        onItems_related hR op hhead items

theorem callValue_related (lib : Library) (method : Method)
    (h : List.Forall₂ (Related R) operands operands') :
    R (callValue lib method operands scope) (callValue lib method operands' scope) := by
  unfold callValue
  split
  · exact hR.refl _
  · split
    · exact operator_related hR _ h
    · exact hR.next (values_related hR h) _

theorem call_related (lib : Library) (method : Method)
    (h : List.Forall₂ (Related R) operands operands') :
    Related R (call lib method operands) (call lib method operands') where
  value := fun _ => callValue_related hR lib method h
  apply := fun _ _ => hR.refl _
  sorting := by
    intro more more' scope hmore
    unfold call
    dsimp only
    split
    · exact orderingOf_related hR _ h hmore
    · exact sortThrough_related hR .nil hmore (callValue_related hR lib method h)

/-! ### Lambdas -/

theorem lambda_related (params : List Param) {body body' : Meaning} (h : Related R body body') :
    Related R (lambda params body) (lambda params body') where
  value := fun _ => hR.refl _
  apply := by
    intro scope arg
    cases params with
    | nil => exact hR.refl _
    | cons p _ => exact h.value ((p.name, arg) :: scope)
  sorting := fun _ _ _ hmore => sortThrough_related hR .nil hmore (hR.refl _)

theorem quote_related {operand operand' : Meaning} (h : Related R operand operand') :
    Related R (quote operand) (quote operand') where
  value := fun _ => hR.refl _
  apply := h.apply
  sorting := fun _ _ _ hmore => sortThrough_related hR .nil hmore (hR.refl _)

/-- Every node compares with itself. -/
theorem related_refl (m : Meaning) : Related R m m where
  value := fun _ => hR.refl _
  apply := fun _ _ => hR.refl _
  sorting := by
    intro more more' scope hmore
    cases hm : m.ordering with
    | error e => exact hR.refl _
    | ok ordering =>
      obtain ⟨keys, source⟩ := ordering
      have hkeys : List.Forall₂ (ScopedKey.Related R) keys keys :=
        List.forall₂_same.mpr fun k _ => ⟨rfl, fun _ _ => hR.refl _⟩
      exact sortThrough_related hR hkeys hmore (hR.refl _)

end Meaning

end Comparison

end IssueSearch
