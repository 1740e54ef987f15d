import IssueSearch.Proofs.Closed

/-! # Local values

    A value is local if no remote collection is inside it, at any depth.  A
    closed tree has a local value, as long as no remote collection is hidden
    inside one of its constants and no function of the library makes one up
    (`Expr.meaning_isLocal`).

    The standard library is of that kind (`Library.standard_isLocal`). -/

namespace IssueSearch

/-! ## Local values -/

/-- `v.Inside w`: the value `v` is `w` itself, or inside an item or a field of
    `w`. -/
inductive Value.Inside (v : Value) : Value → Prop
  | self : Inside v v
  | item {x : Value} {items : List Value} : x ∈ items → Inside v x → Inside v (.array items)
  | field {typeName : String} {display : Option String} {f : String × Value}
      {fields : List (String × Value)} : f ∈ fields → Inside v f.2 →
      Inside v (.record typeName display fields)

/-- No remote collection is inside the value. -/
def Value.IsLocal (v : Value) : Prop :=
  ∀ entity, ¬ (Value.source entity).Inside v

/-- No remote collection is inside the value, unless the value is one. -/
def Value.HidesNoSource (v : Value) : Prop :=
  ∀ entity, (Value.source entity).Inside v → v = .source entity

namespace Value

theorem isLocal_array {items : List Value} : (array items).IsLocal ↔ ∀ v ∈ items, v.IsLocal := by
  constructor
  · intro h v hv entity hinside
    exact h entity (.item hv hinside)
  · intro h entity hinside
    cases hinside with
    | item hx hinside => exact h _ hx entity hinside

theorem isLocal_record {typeName : String} {display : Option String}
    {fields : List (String × Value)} :
    (record typeName display fields).IsLocal ↔ ∀ f ∈ fields, f.2.IsLocal := by
  constructor
  · intro h f hf entity hinside
    exact h entity (.field hf hinside)
  · intro h entity hinside
    cases hinside with
    | field hf hinside => exact h _ hf entity hinside

/-- A local value hides nothing. -/
theorem IsLocal.hidesNoSource {v : Value} (h : v.IsLocal) : v.HidesNoSource :=
  fun entity hinside => absurd hinside (h entity)

/-- A remote collection is not local. -/
theorem isSource_of_isLocal {v : Value} (h : v.IsLocal) : v.isSource = false := by
  cases v with
  | source entity => exact absurd .self (h entity)
  | _ => rfl

/-- A value that hides no remote collection and is none is local. -/
theorem isLocal_of_hidesNoSource {v : Value} (h : v.HidesNoSource) (hv : v.isSource = false) :
    v.IsLocal := by
  intro entity hinside
  rw [h entity hinside] at hv
  cases hv

/-- Truth values, numbers, texts and dates are local. -/
theorem isLocal_scalar {v : Value} (harray : ∀ items, v ≠ .array items)
    (hrecord : ∀ typeName display fields, v ≠ .record typeName display fields)
    (hsource : ∀ entity, v ≠ .source entity) : v.IsLocal := by
  intro entity hinside
  cases hinside with
  | self => exact hsource entity rfl
  | item _ _ => exact harray _ rfl
  | field _ _ => exact hrecord _ _ _ rfl

@[simp] theorem isLocal_null : null.IsLocal := isLocal_scalar (by simp) (by simp) (by simp)

@[simp] theorem isLocal_bool (b : Bool) : (bool b).IsLocal :=
  isLocal_scalar (by simp) (by simp) (by simp)

@[simp] theorem isLocal_int (n : Int64) : (int n).IsLocal :=
  isLocal_scalar (by simp) (by simp) (by simp)

@[simp] theorem isLocal_float (x : Float) : (float x).IsLocal :=
  isLocal_scalar (by simp) (by simp) (by simp)

@[simp] theorem isLocal_str (s : String) : (str s).IsLocal :=
  isLocal_scalar (by simp) (by simp) (by simp)

@[simp] theorem isLocal_date (d : Calendar.DateTime) : (date d).IsLocal :=
  isLocal_scalar (by simp) (by simp) (by simp)

end Value

/-- Given local arguments, the functions and constructors of the library return
    local values.  A library whose functions never return a remote collection,
    alone or inside another value, is of this kind. -/
structure Library.IsLocal (lib : Library) : Prop where
  call : ∀ name args v, (∀ a ∈ args, a.IsLocal) → lib.call name args = .ok v → v.IsLocal
  construct : ∀ name args v, (∀ a ∈ args, a.IsLocal) → lib.construct name args = .ok v → v.IsLocal

/-! ## Operators on local values -/

theorem checkedInt_isLocal {op : BinaryOp} {n : Int} {v : Value} (h : checkedInt op n = .ok v) :
    v.IsLocal := by
  unfold checkedInt at h
  split at h
  · cases h
    simp
  · cases h

theorem intArithmetic_isLocal {op : BinaryOp} {a b : Int64} {v : Value}
    (h : intArithmetic op a b = .ok v) : v.IsLocal := by
  unfold intArithmetic at h
  split at h
  · exact checkedInt_isLocal h
  · exact checkedInt_isLocal h
  · exact checkedInt_isLocal h
  · split at h
    · cases h
    · exact checkedInt_isLocal h
  · split at h
    · cases h
    · split at h
      · exact checkedInt_isLocal h
      · cases h
  · cases h

theorem floatArithmetic_isLocal {op : BinaryOp} {a b : Float} {v : Value}
    (h : floatArithmetic op a b = .ok v) : v.IsLocal := by
  unfold floatArithmetic at h
  split at h <;> cases h <;> simp

theorem addDays_isLocal {d : Calendar.DateTime} {days : Int} {v : Value}
    (h : Standard.addDays d days = .ok v) : v.IsLocal := by
  unfold Standard.addDays at h
  split at h
  · cases h
    simp
  · cases h

theorem subtractDays_isLocal {d : Calendar.DateTime} {days : Int64} {v : Value}
    (h : subtractDays d days = .ok v) : v.IsLocal := by
  unfold subtractDays at h
  split at h
  · exact addDays_isLocal h
  · cases h

/-- Whatever an operator computes is local. -/
theorem applyStrict_isLocal {op : BinaryOp} {l r v : Value} (h : applyStrict op l r = .ok v) :
    v.IsLocal := by
  have harith : arithmetic op l r = .ok v → v.IsLocal := by
    intro h
    unfold arithmetic at h
    split at h
    · cases h
      simp
    · cases h
      simp
    · exact addDays_isLocal h
    · exact subtractDays_isLocal h
    · exact intArithmetic_isLocal h
    · exact floatArithmetic_isLocal h
    · exact floatArithmetic_isLocal h
    · exact floatArithmetic_isLocal h
    · cases h
  have hrelational : relational op l r = .ok v → v.IsLocal := by
    intro h
    unfold relational at h
    split at h
    · cases h
      simp
    · split at h
      · cases h
        simp
      · cases h
  unfold applyStrict at h
  split at h
  · cases h
    simp
  · cases h
    simp
  · exact hrelational h
  · exact hrelational h
  · exact hrelational h
  · exact hrelational h
  · exact harith h

/-- A conversion of a local value is local. -/
theorem convertTo_isLocal {type : DataType} {value v : Value} (hvalue : value.IsLocal)
    (h : convertTo type value = .ok v) : v.IsLocal := by
  unfold convertTo at h
  split at h
  · cases h
    simp
  · unfold convertInt at h
    split at h
    · cases h
      simp
    · cases h
      simp
    · split at h
      · split at h
        · cases h
          simp
        · cases h
      · cases h
        simp
  · split at h
    · cases h
      simp
    · split at h
      · cases h
        simp
      · cases h
        simp
  · split at h
    · cases h
      simp
    · cases h
      exact hvalue

/-! ## The standard library -/

namespace Standard

theorem onText_isLocal {name : String} {f : String → String} {args : List Value} {v : Value}
    (h : onText name f args = .ok v) : v.IsLocal := by
  obtain ⟨s, _, h⟩ := bind_eq_ok.mp h
  cases h
  simp

theorem len_isLocal {args : List Value} {v : Value} (h : len args = .ok v) : v.IsLocal := by
  obtain ⟨arg, _, h⟩ := bind_eq_ok.mp h
  cases arg with
  | str s =>
    cases h
    simp
  | array items =>
    cases h
    simp
  | _ => cases h

theorem addDaysArgs_isLocal {args : List Value} {v : Value} (h : addDaysArgs args = .ok v) :
    v.IsLocal := by
  obtain ⟨arg, _, h⟩ := bind_eq_ok.mp h
  cases arg with
  | date d =>
    obtain ⟨days, _, h⟩ := bind_eq_ok.mp h
    exact addDays_isLocal h
  | _ => cases h

theorem dateTime_isLocal {args : List Value} {v : Value} (h : dateTime args = .ok v) :
    v.IsLocal := by
  obtain ⟨midnight, _, h⟩ := bind_eq_ok.mp h
  obtain ⟨hour, _, h⟩ := bind_eq_ok.mp h
  obtain ⟨minute, _, h⟩ := bind_eq_ok.mp h
  obtain ⟨second, _, h⟩ := bind_eq_ok.mp h
  split at h
  · cases h
    simp
  · cases h

/-- Every function returns a text, a number, a truth value or a date. -/
theorem functions_isLocal {f : LocalFunction} {name : String} (hf : (name, f) ∈ functions)
    {args : List Value} {v : Value} (h : f args = .ok v) : v.IsLocal := by
  simp only [functions, List.mem_cons, Prod.mk.injEq, List.not_mem_nil, or_false] at hf
  rcases hf with ⟨_, rfl⟩ | ⟨_, rfl⟩ | ⟨_, rfl⟩ | ⟨_, rfl⟩ | ⟨_, rfl⟩ | ⟨_, rfl⟩ | ⟨_, rfl⟩ |
    ⟨_, rfl⟩
  · exact onText_isLocal h
  · exact onText_isLocal h
  · exact onText_isLocal h
  · obtain ⟨arg, _, h⟩ := bind_eq_ok.mp h
    cases h
    simp
  · cases h
    simp
  · exact len_isLocal h
  · obtain ⟨text, _, h⟩ := bind_eq_ok.mp h
    obtain ⟨start, _, h⟩ := bind_eq_ok.mp h
    cases h
    simp
  · exact addDaysArgs_isLocal h

/-- Every constructor returns a date. -/
theorem constructors_isLocal {f : LocalFunction} {name : String} (hf : (name, f) ∈ constructors)
    {args : List Value} {v : Value} (h : f args = .ok v) : v.IsLocal := by
  simp only [constructors, List.mem_cons, Prod.mk.injEq, List.not_mem_nil, or_false] at hf
  rcases hf with ⟨_, rfl⟩ | ⟨_, rfl⟩
  · obtain ⟨d, _, h⟩ := bind_eq_ok.mp h
    cases h
    simp
  · exact dateTime_isLocal h

end Standard

/-- The standard library makes up no remote collection. -/
theorem Library.standard_isLocal : Library.standard.IsLocal where
  call := by
    intro name args v _ h
    unfold Library.call at h
    split at h
    · rename_i f hf
      exact Standard.functions_isLocal (mem_of_lookup hf) h
    · cases h
  construct := by
    intro name args v _ h
    unfold Library.construct at h
    split at h
    · rename_i f hf
      exact Standard.constructors_isLocal (mem_of_lookup hf) h
    · cases h

/-! ## Steps on local values -/

namespace Meaning

/-- A node that yields local values, whatever it is asked for. -/
structure IsLocal (m : Meaning) : Prop where
  value  : ∀ scope v, m.value scope = .ok v → v.IsLocal
  apply  : ∀ scope arg v, m.apply scope arg = .ok v → v.IsLocal
  source : ∀ keys source, m.ordering = .ok (keys, source) →
    ∀ scope v, source scope = .ok v → v.IsLocal

theorem plain_isLocal {kind : String} {value : ScopedValue}
    (h : ∀ scope v, value scope = .ok v → v.IsLocal) : IsLocal (plain kind value) where
  value := h
  apply := by
    intro scope arg v hv
    cases hv
  source := by
    intro keys source ho
    cases ho
    exact h

/-- The items of a local list are local. -/
theorem items_isLocal {operation : String} {source : ScopedValue} {scope : Scope}
    {xs : List Value} (hsource : ∀ v, source scope = .ok v → v.IsLocal)
    (h : items operation source scope = .ok xs) : ∀ v ∈ xs, v.IsLocal := by
  obtain ⟨list, hlist, h⟩ := bind_eq_ok.mp h
  cases list with
  | array ys =>
    cases h
    exact Value.isLocal_array.mp (hsource _ hlist)
  | _ => cases h

theorem values_isLocal {operands : List Meaning} (h : ∀ m ∈ operands, m.IsLocal) {scope : Scope}
    {vs : List Value} (hvs : values operands scope = .ok vs) : ∀ v ∈ vs, v.IsLocal := by
  induction operands generalizing vs with
  | nil =>
    cases hvs
    simp
  | cons m rest ih =>
    obtain ⟨v, hv, hvs⟩ := bind_eq_ok.mp hvs
    obtain ⟨others, hothers, hvs⟩ := bind_eq_ok.mp hvs
    cases hvs
    intro w hw
    rcases List.mem_cons.mp hw with rfl | hw
    · exact (h m (by simp)).value scope _ hv
    · exact ih (fun m' hm' => h m' (List.mem_cons_of_mem m hm')) hothers w hw

theorem orderingOf_isLocal {step : SortStep} {operands : List Meaning}
    (h : ∀ m ∈ operands, m.IsLocal) {keys : List ScopedKey} {source : ScopedValue}
    (ho : orderingOf step operands = .ok (keys, source)) {scope : Scope} {v : Value}
    (hv : source scope = .ok v) : v.IsLocal := by
  match operands, h, ho with
  | below :: key :: rest, h, ho =>
    have hbelow := h below (by simp)
    cases hstep : step.refines with
    | false =>
      rw [orderingOf_fresh hstep] at ho
      cases ho
      exact hbelow.value scope v hv
    | true =>
      simp only [orderingOf, hstep, if_true] at ho
      obtain ⟨o, hordering, ho⟩ := bind_eq_ok.mp ho
      cases ho
      exact hbelow.source o.1 o.2 hordering scope v hv

/-- A step on local items has a local value. -/
theorem onItems_isLocal {op : Operator} {operand? : Option Meaning}
    (hoperand : ∀ m ∈ operand?, m.IsLocal) {scope : Scope} {xs : List Value}
    (hxs : ∀ v ∈ xs, v.IsLocal) {v : Value} (h : onItems op operand? scope xs = .ok v) :
    v.IsLocal := by
  -- most operators only leave items out
  have hsub : ∀ {ys : List Value}, ys.Sublist xs → (Value.array ys).IsLocal := fun hys =>
    Value.isLocal_array.mpr fun w hw => hxs w (hys.subset hw)
  cases op with
  | filter =>
    obtain ⟨predicate, _, h⟩ := bind_eq_ok.mp h
    obtain ⟨kept, hkept, h⟩ := bind_eq_ok.mp h
    cases h
    exact hsub (Sequence.keep_sublist hkept)
  | select =>
    -- here the items are new, and it is the function that is local
    obtain ⟨projection, hprojection, h⟩ := bind_eq_ok.mp h
    obtain ⟨results, hresults, h⟩ := bind_eq_ok.mp h
    cases h
    cases operand? with
    | none => cases hprojection
    | some m =>
      cases hprojection
      refine Value.isLocal_array.mpr fun w hw => ?_
      obtain ⟨item, _, hitem⟩ := Sequence.mem_mapItems hresults hw
      exact (hoperand m rfl).apply scope item w hitem
  | skip =>
    obtain ⟨n, _, h⟩ := bind_eq_ok.mp h
    cases h
    exact hsub (List.drop_sublist n xs)
  | take =>
    obtain ⟨n, _, h⟩ := bind_eq_ok.mp h
    cases h
    exact hsub (List.take_sublist n xs)
  | count | any =>
    obtain ⟨kept, _, h⟩ := bind_eq_ok.mp h
    cases h
    simp
  | first =>
    obtain ⟨kept, hkept, h⟩ := bind_eq_ok.mp h
    cases kept with
    | nil => cases h
    | cons item rest =>
      cases h
      exact hxs _ ((Sequence.keepIf_sublist hkept).subset List.mem_cons_self)
  | firstOrDefault =>
    obtain ⟨kept, hkept, h⟩ := bind_eq_ok.mp h
    cases h
    cases kept with
    | nil => simp
    | cons item rest => exact hxs _ ((Sequence.keepIf_sublist hkept).subset List.mem_cons_self)
  | distinct =>
    cases h
    exact Value.isLocal_array.mpr fun w hw => hxs w (Sequence.distinct_subset hw)
  | toList | sort _ =>
    cases h
    exact Value.isLocal_array.mpr hxs

theorem operator_isLocal {op : Operator} {operands : List Meaning}
    (h : ∀ m ∈ operands, m.IsLocal) {scope : Scope} {v : Value}
    (hv : operator op operands scope = .ok v) : v.IsLocal := by
  by_cases hop : ∃ step, op = .sort step
  · obtain ⟨step, rfl⟩ := hop
    obtain ⟨o, hordering, hv⟩ := bind_eq_ok.mp (show sorted step operands scope = .ok v from hv)
    obtain ⟨xs, hxs, hv⟩ := bind_eq_ok.mp hv
    obtain ⟨ys, hys, hv⟩ := bind_eq_ok.mp hv
    cases hv
    have hlocal := items_isLocal (fun w hw => orderingOf_isLocal h hordering hw) hxs
    exact Value.isLocal_array.mpr fun w hw => hlocal w ((Sequence.sortBy_perm hys).subset hw)
  · have hop' : ∀ step, op ≠ .sort step := fun step hs => hop ⟨step, hs⟩
    cases operands with
    | nil =>
      rw [operator_nil] at hv
      cases hv
    | cons source rest =>
      rw [operator_cons hop'] at hv
      obtain ⟨xs, hxs, hv⟩ := bind_eq_ok.mp hv
      have hlocal := items_isLocal (h source (by simp) |>.value scope) hxs
      have hhead : ∀ m ∈ rest.head?, m.IsLocal := fun m hm =>
        h m (List.mem_cons_of_mem source (List.mem_of_head? hm))
      exact onItems_isLocal hhead hlocal hv

theorem callValue_isLocal {lib : Library} (hlib : lib.IsLocal) {method : Method}
    {operands : List Meaning} (h : ∀ m ∈ operands, m.IsLocal) {scope : Scope} {v : Value}
    (hv : callValue lib method operands scope = .ok v) : v.IsLocal := by
  unfold callValue at hv
  split at hv
  · cases hv
  · split at hv
    · exact operator_isLocal h hv
    · obtain ⟨vs, hvs, hv⟩ := bind_eq_ok.mp hv
      exact hlib.call _ vs v (values_isLocal h hvs) hv

theorem binary_isLocal {op : BinaryOp} {left right : ScopedValue} {scope : Scope} {v : Value}
    (h : binary op left right scope = .ok v) : v.IsLocal := by
  cases op with
  | and | andAlso | or | orElse =>
    obtain ⟨b, _, h⟩ := bind_eq_ok.mp h
    cases b
    all_goals
      first
        | cases h; simp
        | (obtain ⟨c, _, h⟩ := bind_eq_ok.mp h; cases h; simp)
  | _ =>
    obtain ⟨l, _, h⟩ := bind_eq_ok.mp h
    obtain ⟨r, _, h⟩ := bind_eq_ok.mp h
    exact applyStrict_isLocal h

/-- A call of local operands is local, and so is what it sorts as an ordering
    step. -/
theorem call_isLocal {lib : Library} (hlib : lib.IsLocal) {method : Method}
    {operands : List Meaning} (h : ∀ m ∈ operands, m.IsLocal) :
    (call lib method operands).IsLocal := by
  have hvalue : ∀ scope v, (call lib method operands).value scope = .ok v → v.IsLocal :=
    fun scope v hv => callValue_isLocal hlib h hv
  refine ⟨hvalue, ?_, ?_⟩
  · intro scope arg v hv
    cases hv
  · intro keys source ho scope v hv
    simp only [call] at ho
    split at ho
    · exact orderingOf_isLocal h ho hv
    · cases ho
      exact hvalue scope v hv

/-- A function without a value is local if its results are. -/
theorem IsLocal.of_apply {m : Meaning} {failure : EvalError}
    (hvalue : m.value = fun _ => .error failure) (hordering : m.ordering = .ok ([], m.value))
    (happly : ∀ scope arg v, m.apply scope arg = .ok v → v.IsLocal) : m.IsLocal where
  value := by simp [hvalue]
  apply := happly
  source := by
    intro keys source ho scope v hv
    rw [hordering] at ho
    cases ho
    simp [hvalue] at hv

/-- A field of a local record is local. -/
theorem property_isLocal {p : Property} {target v : Value} (htarget : target.IsLocal)
    (h : property p target = .ok v) : v.IsLocal := by
  cases target with
  | record typeName display fields =>
    simp only [property] at h
    split at h
    · rename_i w hw
      cases h
      exact Value.isLocal_record.mp htarget (p.name, v) (mem_of_lookup hw)
    · cases h
  | _ => cases h

end Meaning

/-! ## Closed trees -/

namespace Expr

/-- No remote collection is hidden inside a constant of the tree. -/
def HidesNoSource (e : Expr) : Prop :=
  ∀ value type, (constant value type).Within e → value.HidesNoSource

/-- Nothing is hidden in a tree if nothing is hidden in it as a constant, and
    nothing below it. -/
theorem hidesNoSource_iff (e : Expr) :
    e.HidesNoSource ↔ (∀ value type, e = constant value type → value.HidesNoSource) ∧
      ∀ c ∈ e.children, c.HidesNoSource := by
  constructor
  · intro h
    exact ⟨fun value type he => h value type (he ▸ .self),
      fun c hc value type hw => h value type (.child hc hw)⟩
  · rintro ⟨hself, hbelow⟩ value type hw
    rcases within_iff.mp hw with he | ⟨c, hc, hw⟩
    · exact hself value type he.symm
    · exact hbelow c hc value type hw

@[simp] theorem hidesNoSource_constant (value : Value) (type : DataType) :
    (constant value type).HidesNoSource ↔ value.HidesNoSource := by
  rw [hidesNoSource_iff]
  simp [children]

@[simp] theorem hidesNoSource_parameter (param : Param) : (parameter param).HidesNoSource := by
  rw [hidesNoSource_iff]
  simp [children]

@[simp] theorem hidesNoSource_binary (op : BinaryOp) (left right : Expr) :
    (binary op left right).HidesNoSource ↔ left.HidesNoSource ∧ right.HidesNoSource := by
  rw [hidesNoSource_iff]
  simp [children]

@[simp] theorem hidesNoSource_call (target : Option Expr) (method : Method) (args : List Expr) :
    (call target method args).HidesNoSource ↔ ∀ c ∈ operands target args, c.HidesNoSource := by
  rw [hidesNoSource_iff]
  simp [children]

@[simp] theorem hidesNoSource_lambda (params : List Param) (body : Expr) :
    (lambda params body).HidesNoSource ↔ body.HidesNoSource := by
  rw [hidesNoSource_iff]
  simp [children]

/-- **Closed trees have local values**, as long as no remote collection is
    hidden inside a constant and the library makes none up. -/
theorem meaning_isLocal {lib : Library} (hlib : lib.IsLocal) (e : Expr)
    (hclosed : e.isClosed = true) (he : e.HidesNoSource) : (e.meaning lib).IsLocal := by
  induction e using induction_on_children with
  | step e ih =>
    have hbelow : ∀ c ∈ e.children, (c.meaning lib).IsLocal := fun c hc =>
      ih c hc (isClosed_of_mem_children hclosed hc) (((hidesNoSource_iff e).mp he).2 c hc)
    cases e with
    | binary op left right =>
      exact Meaning.plain_isLocal fun scope v hv => Meaning.binary_isLocal hv
    | call target method args =>
      exact Meaning.call_isLocal hlib (forall_mem_operandsMeaning hbelow)
    | member target p type =>
      refine Meaning.plain_isLocal fun scope v hv => ?_
      obtain ⟨w, hw, hv⟩ := bind_eq_ok.mp hv
      exact Meaning.property_isLocal ((hbelow target (by simp [children])).value scope w hw) hv
    | constant value type =>
      refine Meaning.plain_isLocal fun scope v hv => ?_
      have hlocal : value.IsLocal := by
        refine Value.isLocal_of_hidesNoSource (he value type .self) ?_
        simpa [isClosed] using hclosed
      cases value with
      | source entity => cases hv
      | _ =>
        cases hv
        exact hlocal
    | convert operand type =>
      refine Meaning.plain_isLocal fun scope v hv => ?_
      obtain ⟨w, hw, hv⟩ := bind_eq_ok.mp hv
      exact convertTo_isLocal ((hbelow operand (by simp [children])).value scope w hw) hv
    | construct name args =>
      refine Meaning.plain_isLocal fun scope v hv => ?_
      obtain ⟨vs, hvs, hv⟩ := bind_eq_ok.mp hv
      exact hlib.construct name vs v
        (Meaning.values_isLocal (forall_mem_argsMeaning hbelow) hvs) hv
    | lambda params body =>
      refine .of_apply rfl rfl fun scope arg v hv => ?_
      cases params with
      | nil => cases hv
      | cons p _ => exact (hbelow body (by simp [children])).value _ v hv
    | parameter param => simp [isClosed] at hclosed
    | quote operand => exact .of_apply rfl rfl (hbelow operand (by simp [children])).apply

end Expr

end IssueSearch
