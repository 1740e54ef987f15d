import IssueSearch.Proofs.Agreement
import IssueSearch.Proofs.Parts

/-! # What a tree sees of its scope

    A node looks at its scope only through the nodes below it, and in the end
    only through the parameters that stand free in it.

    * `Meaning.pin`: a node that looks at one scope, whichever it is asked in.
    * `Meaning.call_pin`: a call of pinned operands is the pinned call.
    * `Expr.HasFree`: a parameter stands free in a tree.  A lambda binds its
      first parameter.
    * `Expr.pin_congr`: scopes that agree on the free parameters of a tree give
      it the same meaning.
    * `Expr.evalIn_depends_on_free`: and the same value. -/

namespace IssueSearch

/-! ## Pinned meanings -/

/-- A key that looks at the given scope, whichever one it is asked in. -/
def ScopedKey.pin (scope : Scope) (k : ScopedKey) : ScopedKey :=
  { descending := k.descending, key := fun _ => k.key scope }

namespace Meaning

/-- An ordering that looks at the given scope. -/
def pinOrdering (scope : Scope) (ordering : Except EvalError (List ScopedKey × ScopedValue)) :
    Except EvalError (List ScopedKey × ScopedValue) :=
  ordering.map fun o => (o.1.map (ScopedKey.pin scope), fun _ => o.2 scope)

/-- A node that looks at the given scope, whichever one it is asked in. -/
def pin (scope : Scope) (m : Meaning) : Meaning where
  value    := fun _ => m.value scope
  apply    := fun _ => m.apply scope
  ordering := pinOrdering scope m.ordering

/-- Nodes that are the same once pinned have the same value. -/
theorem value_eq_of_pin {m : Meaning} {s t : Scope} (h : m.pin s = m.pin t) :
    m.value s = m.value t :=
  congrFun (congrArg value h) []

/-- Nodes that are the same once pinned are the same function. -/
theorem apply_eq_of_pin {m : Meaning} {s t : Scope} (h : m.pin s = m.pin t) :
    m.apply s = m.apply t :=
  congrFun (congrArg apply h) []

theorem binary_pin (op : BinaryOp) (left right : ScopedValue) (scope t : Scope) :
    binary op (fun _ => left scope) (fun _ => right scope) t = binary op left right scope := by
  cases op <;> rfl

theorem values_pin (operands : List Meaning) (scope t : Scope) :
    values (operands.map (pin scope)) t = values operands scope := by
  induction operands with
  | nil => rfl
  | cons m rest ih =>
    simp only [List.map_cons, values, ih]
    rfl

theorem onItems_pin (op : Operator) (operand? : Option Meaning) (scope t : Scope) :
    onItems op (operand?.map (pin scope)) t = onItems op operand? scope := by
  funext items
  cases operand? with
  | none => rfl
  | some m => cases op <;> rfl

/-- Sorting through a pinned ordering looks at the scope it was pinned to. -/
theorem sortThrough_pin (ordering : Except EvalError (List ScopedKey × ScopedValue))
    (scope t : Scope) :
    sortThrough (pinOrdering scope ordering) [] t = sortThrough ordering [] scope := by
  cases ordering with
  | error e => rfl
  | ok o =>
    obtain ⟨keys, source⟩ := o
    have hkeys : ((keys.map (ScopedKey.pin scope)) ++ []).map (ScopedKey.inScope t) =
        (keys ++ []).map (ScopedKey.inScope scope) := by
      simp only [List.append_nil, List.map_map]
      rfl
    exact congrArg (fun sortKeys => (do
      let items ← items (Operator.sort .orderBy).name source scope
      Except.ok (Value.array (← Sequence.sortBy sortKeys items)))) hkeys

theorem orderingOf_pin (step : SortStep) (operands : List Meaning) (scope : Scope) :
    orderingOf step (operands.map (pin scope)) = pinOrdering scope (orderingOf step operands) := by
  match operands with
  | [] => rfl
  | [_] => rfl
  | source :: key :: rest =>
    cases hstep : step.refines with
    | false =>
      simp only [List.map_cons, orderingOf_fresh hstep]
      rfl
    | true =>
      simp only [List.map_cons, orderingOf, hstep, if_true]
      cases hsource : source.ordering with
      | error e => simp [pin, pinOrdering, hsource, Except.map, bind, Except.bind]
      | ok o =>
        simp [pin, pinOrdering, hsource, Except.map, bind, Except.bind, ScopedKey.pin]

theorem operator_pin (op : Operator) (operands : List Meaning) (scope t : Scope) :
    operator op (operands.map (pin scope)) t = operator op operands scope := by
  by_cases hop : ∃ step, op = .sort step
  · obtain ⟨step, rfl⟩ := hop
    show sorted step _ t = sorted step operands scope
    rw [sorted_eq, sorted_eq, orderingOf_pin, sortThrough_pin]
  · have hop' : ∀ step, op ≠ .sort step := fun step hs => hop ⟨step, hs⟩
    cases operands with
    | nil => rw [List.map_nil, operator_nil, operator_nil]
    | cons source rest =>
      rw [List.map_cons, operator_cons hop', operator_cons hop', List.head?_map, onItems_pin]
      rfl

/-- A call looks at its scope only through its operands. -/
theorem callValue_pin (lib : Library) (method : Method) (operands : List Meaning)
    (scope t : Scope) :
    callValue lib method (operands.map (pin scope)) t = callValue lib method operands scope := by
  unfold callValue
  split
  · rfl
  · split
    · exact operator_pin _ operands scope t
    · rw [values_pin]

/-- A call of pinned operands is the pinned call. -/
theorem call_pin (lib : Library) (method : Method) (operands : List Meaning) (scope : Scope) :
    call lib method (operands.map (pin scope)) = (call lib method operands).pin scope := by
  have hvalue : callValue lib method (operands.map (pin scope)) =
      fun _ => callValue lib method operands scope := by
    funext t
    exact callValue_pin lib method operands scope t
  unfold call
  rw [hvalue]
  cases Operator.ofName? method.name with
  | none => rfl
  | some op =>
    cases op with
    | sort step => simp only [orderingOf_pin, pin, plain]
    | _ => rfl

end Meaning

/-! ## Operands as meanings -/

namespace Expr

theorem argsMeaning_eq (lib : Library) (args : List Expr) :
    argsMeaning lib args = args.map (meaning lib) := by
  induction args with
  | nil => rfl
  | cons a rest ih => rw [argsMeaning, ih, List.map_cons]

/-- The meaning of a call is told by the meanings of all operands, whichever
    way it is written. -/
theorem operandsMeaning_eq (lib : Library) (target : Option Expr) (args : List Expr) :
    targetMeaning lib target ++ argsMeaning lib args =
      (operands target args).map (meaning lib) := by
  cases target with
  | none => simp [targetMeaning, operands, argsMeaning_eq]
  | some t => simp [targetMeaning, operands, argsMeaning_eq]

/-- What holds of the meaning of every tree in a list holds of the operands they
    make. -/
theorem forall_mem_argsMeaning {P : Meaning → Prop} {lib : Library} {args : List Expr}
    (h : ∀ c ∈ args, P (c.meaning lib)) : ∀ m ∈ argsMeaning lib args, P m := by
  rw [argsMeaning_eq]
  exact List.forall_mem_map.mpr h

/-- The same of all operands of a call. -/
theorem forall_mem_operandsMeaning {P : Meaning → Prop} {lib : Library} {target : Option Expr}
    {args : List Expr} (h : ∀ c ∈ operands target args, P (c.meaning lib)) :
    ∀ m ∈ targetMeaning lib target ++ argsMeaning lib args, P m := by
  rw [operandsMeaning_eq]
  exact List.forall_mem_map.mpr h

/-! ## Free parameters -/

/-- The parameter of the given name stands free in the tree: no lambda around
    it has it as its first parameter. -/
inductive HasFree (name : String) : Expr → Prop
  | parameter (type : DataType) : HasFree name (parameter { name := name, type := type })
  | child {c e : Expr} : (∀ params body, e ≠ lambda params body) → c ∈ e.children →
      HasFree name c → HasFree name e
  | lambda {params : List Param} {body : Expr} : (params.head?.map Param.name) ≠ some name →
      HasFree name body → HasFree name (lambda params body)

/-- A free parameter is a part of the tree. -/
theorem HasFree.exists_within {name : String} {e : Expr} (h : e.HasFree name) :
    ∃ type, (Expr.parameter { name := name, type := type }).Within e := by
  induction h with
  | parameter type => exact ⟨type, .self⟩
  | child _ hc _ ih =>
    obtain ⟨type, hw⟩ := ih
    exact ⟨type, .child hc hw⟩
  | lambda _ _ ih =>
    obtain ⟨type, hw⟩ := ih
    exact ⟨type, .child (List.mem_singleton.mpr rfl) hw⟩

@[simp] theorem hasFree_parameter (name : String) (param : Param) :
    (parameter param).HasFree name ↔ param.name = name := by
  constructor
  · intro h
    cases h with
    | parameter type => rfl
    | child _ hc _ => cases hc
  · rintro rfl
    exact .parameter param.type

@[simp] theorem hasFree_lambda (name : String) (params : List Param) (body : Expr) :
    (lambda params body).HasFree name ↔
      params.head?.map Param.name ≠ some name ∧ body.HasFree name := by
  constructor
  · intro h
    cases h with
    | child hother _ _ => exact absurd rfl (hother params body)
    | lambda hparam hbody => exact ⟨hparam, hbody⟩
  · rintro ⟨hparam, hbody⟩
    exact .lambda hparam hbody

/-- Any other node binds nothing. -/
theorem hasFree_iff_children {name : String} {e : Expr} (hparam : ∀ param, e ≠ parameter param)
    (hlambda : ∀ params body, e ≠ lambda params body) :
    e.HasFree name ↔ ∃ c ∈ e.children, c.HasFree name := by
  constructor
  · intro h
    cases h with
    | parameter type => exact absurd rfl (hparam _)
    | child _ hc hfree => exact ⟨_, hc, hfree⟩
    | lambda _ _ => exact absurd rfl (hlambda _ _)
  · rintro ⟨c, hc, hfree⟩
    exact .child hlambda hc hfree

/-- Operands that are the same once pinned, one by one. -/
theorem map_pin_congr {lib : Library} {s t : Scope} (es : List Expr)
    (h : ∀ e ∈ es, (e.meaning lib).pin s = (e.meaning lib).pin t) :
    (es.map (meaning lib)).map (Meaning.pin s) = (es.map (meaning lib)).map (Meaning.pin t) := by
  rw [List.map_map, List.map_map]
  exact List.map_congr_left h

/-- **Scopes that agree on the free parameters** of a tree give it the same
    meaning. -/
theorem pin_congr (lib : Library) (e : Expr) :
    ∀ s t : Scope, (∀ name, e.HasFree name → s.lookup name = t.lookup name) →
      (e.meaning lib).pin s = (e.meaning lib).pin t := by
  induction e using induction_on_children with
  | step e ih =>
    intro s t h
    -- below anything but a lambda the same parameters are free
    have hbelow : (∀ params body, e ≠ lambda params body) → ∀ c ∈ e.children,
        (c.meaning lib).pin s = (c.meaning lib).pin t :=
      fun he c hc => ih c hc s t fun name hname => h name (.child he hc hname)
    cases e with
    | binary op left right =>
      have hl := Meaning.value_eq_of_pin (hbelow (by simp) left (by simp [children]))
      have hr := Meaning.value_eq_of_pin (hbelow (by simp) right (by simp [children]))
      have hvalue : Meaning.binary op (left.meaning lib).value (right.meaning lib).value s =
          Meaning.binary op (left.meaning lib).value (right.meaning lib).value t := by
        rw [← Meaning.binary_pin op _ _ s [], ← Meaning.binary_pin op _ _ t [], hl, hr]
      simp only [meaning, Meaning.pin, Meaning.plain, Meaning.pinOrdering, hvalue]
      simp [Except.map, hvalue]
    | call target method args =>
      have hops := map_pin_congr (operands target args) (hbelow (by simp))
      simp only [meaning, operandsMeaning_eq]
      rw [← Meaning.call_pin, ← Meaning.call_pin, hops]
    | member target p type =>
      have ht := Meaning.value_eq_of_pin (hbelow (by simp) target (by simp [children]))
      simp [meaning, Meaning.pin, Meaning.plain, Meaning.pinOrdering, Except.map, ht]
    | constant value type => rfl
    | convert operand type =>
      have ho := Meaning.value_eq_of_pin (hbelow (by simp) operand (by simp [children]))
      simp [meaning, Meaning.pin, Meaning.plain, Meaning.pinOrdering, Except.map, ho]
    | construct name args =>
      have hargs : Meaning.values (args.map (meaning lib)) s =
          Meaning.values (args.map (meaning lib)) t := by
        rw [← Meaning.values_pin _ s [], ← Meaning.values_pin _ t [],
          map_pin_congr args (hbelow (by simp))]
      simp [meaning, argsMeaning_eq, Meaning.pin, Meaning.plain, Meaning.pinOrdering, Except.map,
        hargs]
    | lambda params body =>
      have happly : ((lambda params body).meaning lib).apply s =
          ((lambda params body).meaning lib).apply t := by
        funext arg
        cases params with
        | nil => rfl
        | cons p rest =>
          refine Meaning.value_eq_of_pin
            (ih body (by simp [children]) ((p.name, arg) :: s) ((p.name, arg) :: t) ?_)
          intro name hname
          by_cases hp : name = p.name
          · simp [hp]
          · have hfree := h name (.lambda (by simpa using Ne.symm hp) hname)
            simp [List.lookup_cons, beq_eq_false_iff_ne.mpr hp, hfree]
      simp only [meaning] at happly ⊢
      simp only [Meaning.pin, Meaning.lambda, Meaning.plain, Meaning.pinOrdering] at happly ⊢
      rw [happly]
      rfl
    | parameter param =>
      have hp := h param.name (.parameter param.type)
      simp [meaning, Meaning.pin, Meaning.plain, Meaning.pinOrdering, Except.map,
        Meaning.parameterValue, hp]
    | quote operand =>
      have ho := Meaning.apply_eq_of_pin (hbelow (by simp) operand (by simp [children]))
      simp [meaning, Meaning.pin, Meaning.quote, Meaning.plain, Meaning.pinOrdering, Except.map, ho]

/-- **Evaluation depends on free parameters only**: a tree has the same outcome in
    scopes that give the same value, or none, to every parameter that stands free in
    it.  A tree without parameters has the same outcome in every scope. -/
theorem evalIn_depends_on_free (lib : Library) (e : Expr) :
    (∀ s t : Scope, (∀ name, e.HasFree name → s.lookup name = t.lookup name) →
      e.evalIn lib s = e.evalIn lib t) ∧
    ((∀ param, ¬ (parameter param).Within e) →
      ∀ s t : Scope, e.evalIn lib s = e.evalIn lib t) := by
  have hagree : ∀ s t : Scope, (∀ name, e.HasFree name → s.lookup name = t.lookup name) →
      e.evalIn lib s = e.evalIn lib t :=
    fun s t h => Meaning.value_eq_of_pin (pin_congr lib e s t h)
  refine ⟨hagree, fun hnone s t => hagree s t ?_⟩
  intro name hfree
  obtain ⟨type, hwithin⟩ := hfree.exists_within
  exact absurd hwithin (hnone _)

/-- For each of two numbers, how many of three are below a limit, and the number
    added.  Both lambdas have a parameter of one name. -/
def belowLimit : Expr :=
  let item := { name := "item", type := .int64 : Param }
  let numbers (ns : List Int64) := constant (.array (ns.map .int)) (.array .int64)
  let step (op : Operator) (items body : Expr) :=
    call none { name := op.name, remote := false } [items, quote (lambda [item] body)]
  step .select (numbers [10, 20])
    (binary .add (parameter item)
      (step .count (numbers [1, 2, 3])
        (binary .lessThan (parameter item) (parameter { name := "limit", type := .int64 }))))

theorem evalIn_depends_on_free_belowLimit :
    let s : Scope := [("item", .int 7), ("limit", .int 3), ("limit", .int 0)]
    let t : Scope := [("other", .null), ("limit", .int 3)]
    (∀ name, belowLimit.HasFree name → s.lookup name = t.lookup name) ∧
    s.lookup "item" ≠ t.lookup "item" ∧
    belowLimit.evalIn .empty s = .ok (.array [.int 12, .int 22]) ∧
    belowLimit.evalIn .empty t = .ok (.array [.int 12, .int 22]) := by
  intro s t
  have hagree : ∀ name, belowLimit.HasFree name → s.lookup name = t.lookup name := by
    intro name hfree
    -- the outer lambda binds one place of its parameter, the inner one the other
    obtain ⟨houter, hitem | ⟨-, hitem | rfl⟩⟩ : "item" ≠ name ∧
        ("item" = name ∨ "item" ≠ name ∧ ("item" = name ∨ "limit" = name)) := by
      simpa [belowLimit, hasFree_iff_children, children, operands] using hfree
    · exact absurd hitem houter
    · exact absurd hitem houter
    · rfl
  have hitem : s.lookup "item" ≠ t.lookup "item" := by
    show some (Value.int 7) ≠ none
    simp
  have hs : belowLimit.evalIn .empty s = .ok (.array [.int 12, .int 22]) := rfl
  have ht := (evalIn_depends_on_free .empty belowLimit).1 s t hagree
  exact ⟨hagree, hitem, hs, ht.symm.trans hs⟩

end Expr

end IssueSearch
