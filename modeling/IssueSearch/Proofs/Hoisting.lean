import IssueSearch.Proofs.Orderings
import IssueSearch.Proofs.Paging

/-! # Filters around an ordering

    A search has one condition and one order, wherever the filters of a query
    stand.  That is sound on values: the filters before and after a group of
    ordering steps can be joined into one filter in front of it.

    * `keepAll_eq_ok_iff`: filtering by one test after the other succeeds if every
      item is decided by the tests up to the first that it fails.
    * `Expr.test_allOf`: the conjunction of the tests decides such an item.
    * `SortStage.foldlM_filter`: ordering steps treat what is left of a list as
      they treat the list.
    * `FilterStage.eval_joined`: the query with the filters joined in front has
      every value that the query has. -/

namespace IssueSearch

open Sequence (keep holds)

/-- A computation whose result is changed succeeds if it does. -/
theorem map_eq_ok {ε α β : Type} {x : Except ε α} {f : α → β} {b : β} :
    f <$> x = .ok b ↔ ∃ a, x = .ok a ∧ f a = b := by
  cases x <;> simp

/-! ## Tests in a row -/

/-- The tests decide the item: each one up to the first that fails gives a truth
    value. -/
def Decided : List ItemFunction → Value → Prop
  | [],           _ => True
  | test :: rest, x => ∃ b, test x = .ok (.bool b) ∧ (b = true → Decided rest x)

/-- The item passes all tests. -/
def passes (tests : List ItemFunction) (x : Value) : Bool :=
  tests.all fun test => yieldsTrue (test x)

@[simp] theorem passes_nil (x : Value) : passes [] x = true := rfl

@[simp] theorem passes_cons (test : ItemFunction) (rest : List ItemFunction) (x : Value) :
    passes (test :: rest) x = (yieldsTrue (test x) && passes rest x) := rfl

/-- Filters by one test after the other. -/
def keepAll (tests : List ItemFunction) (xs : List Value) : Except EvalError (List Value) :=
  tests.foldlM (fun kept test => keep Operator.filter.name test kept) xs

/-- A filter succeeds if its test gives a truth value on every item. -/
theorem keep_eq_ok_iff {operation : String} {test : ItemFunction} {xs kept : List Value} :
    keep operation test xs = .ok kept ↔
      (∀ x ∈ xs, ∃ b, test x = .ok (.bool b)) ∧
        kept = xs.filter fun x => yieldsTrue (test x) := by
  constructor
  · intro h
    refine ⟨?_, keep_eq_filter h⟩
    induction xs generalizing kept with
    | nil => simp
    | cons x rest ih =>
      obtain ⟨b, hb, h⟩ := bind_eq_ok.mp h
      obtain ⟨others, hothers, h⟩ := bind_eq_ok.mp h
      obtain ⟨v, hv, hb⟩ := bind_eq_ok.mp hb
      refine List.forall_mem_cons.mpr ⟨?_, ih hothers⟩
      cases v with
      | bool b' => exact ⟨b', hv⟩
      | _ => cases hb
  · rintro ⟨htests, rfl⟩
    induction xs with
    | nil => rfl
    | cons x rest ih =>
      obtain ⟨⟨b, hb⟩, hrest⟩ := List.forall_mem_cons.mp htests
      have hx : holds operation test x = .ok b := by rw [holds, hb]; rfl
      rw [keep, hx, ih hrest, List.filter_cons, hb]
      rfl

/-- **Filters in a row** succeed if the tests decide every item, and keep those
    that pass all of them. -/
theorem keepAll_eq_ok_iff {tests : List ItemFunction} {xs kept : List Value} :
    keepAll tests xs = .ok kept ↔
      (∀ x ∈ xs, Decided tests x) ∧ kept = xs.filter (passes tests) := by
  induction tests generalizing xs with
  | nil =>
    have hall : xs.filter (passes []) = xs := List.filter_eq_self.mpr fun _ _ => rfl
    rw [hall]
    simp [keepAll, Decided, pure, Except.pure, eq_comm]
  | cons test rest ih =>
    have hpasses : xs.filter (passes (test :: rest)) =
        (xs.filter fun x => yieldsTrue (test x)).filter (passes rest) := by
      rw [List.filter_filter]
      exact List.filter_congr fun x _ => Bool.and_comm ..
    rw [keepAll, List.foldlM_cons, bind_eq_ok, hpasses]
    constructor
    · rintro ⟨middle, hmiddle, h⟩
      obtain ⟨htest, rfl⟩ := keep_eq_ok_iff.mp hmiddle
      obtain ⟨hrest, rfl⟩ := ih.mp h
      refine ⟨fun x hx => ?_, rfl⟩
      obtain ⟨b, hb⟩ := htest x hx
      refine ⟨b, hb, fun htrue => hrest x (List.mem_filter.mpr ⟨hx, ?_⟩)⟩
      rw [hb, htrue]
      rfl
    · rintro ⟨hdecided, rfl⟩
      refine ⟨_, keep_eq_ok_iff.mpr ⟨fun x hx => ?_, rfl⟩, ih.mpr ⟨fun x hx => ?_, rfl⟩⟩
      · obtain ⟨b, hb, -⟩ := hdecided x hx
        exact ⟨b, hb⟩
      · obtain ⟨hx, htrue⟩ := List.mem_filter.mp hx
        obtain ⟨b, hb, hrest⟩ := hdecided x hx
        rw [hb] at htrue
        exact hrest htrue

/-! ## Conjunctions -/

namespace Expr

/-- The conjunction of conditions, nested to the left. -/
def allOf : List Expr → Expr
  | []        => ofValue (.bool true)
  | p :: rest => rest.foldl (binary .andAlso) p

/-- A condition on an item, as a test of the item. -/
def test (lib : Library) (scope : Scope) (param : Param) (p : Expr) : ItemFunction :=
  fun x => p.evalIn lib ((param.name, x) :: scope)

variable {lib : Library} {scope : Scope} {param : Param}

theorem test_foldl_andAlso {x : Value} {b : Bool} {p : Expr} {rest : List Expr}
    (hp : p.test lib scope param x = .ok (.bool b))
    (h : b = true → Decided (rest.map (test lib scope param)) x) :
    (rest.foldl (binary .andAlso) p).test lib scope param x =
      .ok (.bool (b && passes (rest.map (test lib scope param)) x)) := by
  induction rest generalizing p b with
  | nil => simpa using hp
  | cons q rest ih =>
    let inner : Scope := (param.name, x) :: scope
    have hleft : Meaning.bool .andAlso (p.meaning lib).value inner = .ok b :=
      bind_eq_ok.mpr ⟨_, hp, rfl⟩
    have hboth : (binary .andAlso p q).test lib scope param x = (do
        if b then .ok (.bool (← Meaning.bool .andAlso (q.meaning lib).value inner))
        else .ok (.bool false)) := by
      show (Meaning.bool .andAlso (p.meaning lib).value inner >>= _) = _
      rw [hleft]
      rfl
    cases b with
    | false =>
      -- the next condition is not looked at, and neither is any after it
      exact ih hboth (by simp)
    | true =>
      obtain ⟨c, hc, hrest⟩ := h rfl
      have hright : Meaning.bool .andAlso (q.meaning lib).value inner = .ok c :=
        bind_eq_ok.mpr ⟨_, hc, rfl⟩
      rw [hright] at hboth
      refine (ih hboth hrest).trans ?_
      simp [hc, yieldsTrue]

/-- **A conjunction decides** what its conditions decide one after the other. -/
theorem test_allOf {x : Value} {conditions : List Expr}
    (h : Decided (conditions.map (test lib scope param)) x) :
    (allOf conditions).test lib scope param x =
      .ok (.bool (passes (conditions.map (test lib scope param)) x)) := by
  cases conditions with
  | nil => rfl
  | cons p rest =>
    obtain ⟨b, hb, hrest⟩ := h
    have hp : yieldsTrue (p.test lib scope param x) = b := by rw [hb]; rfl
    rw [allOf, test_foldl_andAlso hb hrest, List.map_cons, passes_cons, hp]

/-- Filters in a row can be joined into one. -/
theorem keep_allOf {conditions : List Expr} {xs kept : List Value}
    (h : keepAll (conditions.map (test lib scope param)) xs = .ok kept) :
    keep Operator.filter.name ((allOf conditions).test lib scope param) xs = .ok kept := by
  obtain ⟨hdecided, rfl⟩ := keepAll_eq_ok_iff.mp h
  refine keep_eq_ok_iff.mpr ⟨fun x hx => ⟨_, test_allOf (hdecided x hx)⟩, ?_⟩
  refine List.filter_congr fun x hx => ?_
  rw [test_allOf (hdecided x hx)]
  rfl

end Expr

/-! ## Ordering what is left of a list -/

namespace Sorting

/-- The sorting of what is left of the items. -/
def filter (p : Sorting) (test : Value → Bool) : Sorting :=
  { p with items := p.items.filter test }

/-- The sorting is of the given items, by keys that are of one kind each on
    them. -/
structure IsUniform (p : Sorting) (xs : List Value) : Prop where
  perm : p.items.Perm xs
  keys : ∀ k ∈ p.keys, k.IsUniform xs

variable {p q : Sorting} {xs sorted : List Value}

theorem IsUniform.run_perm (h : p.IsUniform xs) (hrun : p.run = .ok sorted) : sorted.Perm xs :=
  (Sequence.sortBy_perm hrun).trans h.perm

theorem IsUniform.run_filter (h : p.IsUniform xs) (hrun : p.run = .ok sorted)
    (test : Value → Bool) : (p.filter test).run = .ok (sorted.filter test) := by
  refine Sequence.sortBy_filter (fun k hk => ?_) hrun test
  exact (h.keys k hk).mono fun x hx => h.perm.mem_iff.mp hx

end Sorting

namespace SortStage

variable {lib : Library} {scope : Scope} {p q : Sorting} {xs : List Value}

/-- **One step** does the same to what is left of the items. -/
theorem next_filter {s : SortStage} (h : p.IsUniform xs)
    (hs : (s.sortKey lib scope).IsUniform xs) (hnext : s.next lib scope p = .ok q)
    (test : Value → Bool) :
    q.IsUniform xs ∧ next lib scope (p.filter test) s = .ok (q.filter test) := by
  unfold next at hnext ⊢
  cases hrefines : s.step.refines with
  | true =>
    rw [hrefines, if_pos rfl] at hnext
    cases hnext
    refine ⟨⟨h.perm, fun k hk => ?_⟩, rfl⟩
    rcases List.mem_append.mp hk with hk | hk
    · exact h.keys k hk
    · cases List.mem_singleton.mp hk
      exact hs
  | false =>
    rw [hrefines] at hnext
    obtain ⟨sorted, hrun, hnext⟩ := bind_eq_ok.mp hnext
    cases hnext
    refine ⟨⟨h.run_perm hrun, fun k hk => ?_⟩, ?_⟩
    · cases List.mem_singleton.mp hk
      exact hs
    · exact bind_eq_ok.mpr ⟨_, h.run_filter hrun test, rfl⟩

/-- **Steps in a row** do the same to what is left of the items. -/
theorem foldlM_filter {steps : List SortStage} (h : p.IsUniform xs)
    (hsteps : ∀ s ∈ steps, (s.sortKey lib scope).IsUniform xs)
    (hrun : steps.foldlM (next lib scope) p = .ok q) (test : Value → Bool) :
    q.IsUniform xs ∧ steps.foldlM (next lib scope) (p.filter test) = .ok (q.filter test) := by
  induction steps generalizing p with
  | nil =>
    cases hrun
    exact ⟨h, rfl⟩
  | cons s rest ih =>
    obtain ⟨hs, hrest⟩ := List.forall_mem_cons.mp hsteps
    rw [List.foldlM_cons] at hrun ⊢
    obtain ⟨p', hnext, hrun⟩ := bind_eq_ok.mp hrun
    obtain ⟨h', hfiltered⟩ := next_filter h hs hnext test
    rw [hfiltered]
    exact ih h' hrest hrun

end SortStage

/-! ## Filters in a tree -/

/-- A filter as it stands in a tree: a condition on an item, quoted or not.
    Operands beyond the condition are not looked at. -/
structure FilterStage where
  onTarget  : Bool
  quoted    : Bool
  condition : Expr
  more      : List Expr

namespace FilterStage

/-- The function that the filter is given. -/
def function (param : Param) (s : FilterStage) : Expr :=
  if s.quoted then .quote (.lambda [param] s.condition) else .lambda [param] s.condition

/-- The filter as a stage. -/
def stage (param : Param) (s : FilterStage) : Stage :=
  { operator := .filter, onTarget := s.onTarget, args := s.function param :: s.more }

/-- The test that the filter makes. -/
def test (lib : Library) (scope : Scope) (param : Param) (s : FilterStage) : ItemFunction :=
  s.condition.test lib scope param

variable {lib : Library} {scope : Scope} {param : Param}

/-- A filter is no ordering step. -/
theorem ordering_on (s : FilterStage) (before : Expr) :
    (((s.stage param).on before).meaning lib).ordering =
      .ok ([], (((s.stage param).on before).meaning lib).value) := by
  rw [Stage.meaning_on]
  rfl

/-- The value of a filter on a list. -/
theorem eval_on (s : FilterStage) {before : Expr} {outcome : Except EvalError (List Value)}
    (h : before.evalIn lib scope = Value.array <$> outcome) :
    ((s.stage param).on before).evalIn lib scope =
      Value.array <$> (outcome >>= keep Operator.filter.name (s.test lib scope param)) := by
  have hfunction : ((s.function param).meaning lib).apply scope = s.test lib scope param := by
    unfold function
    split <;> rfl
  have hitems : Meaning.items Operator.filter.name (before.meaning lib).value scope = outcome := by
    show (before.evalIn lib scope >>= _) = _
    rw [h]
    cases outcome <;> rfl
  have hvalue : ((s.stage param).on before).evalIn lib scope =
      Meaning.operator .filter (before.meaning lib :: (s.function param).meaning lib ::
        s.more.map (Expr.meaning lib)) scope := by
    rw [Expr.evalIn, Stage.meaning_on]
    rfl
  rw [hvalue, Meaning.operator_cons (by simp), hitems]
  cases outcome with
  | error e => rfl
  | ok xs =>
    show (keep _ (((s.function param).meaning lib).apply scope) xs >>= _) =
      Value.array <$> keep _ _ xs
    rw [hfunction]
    cases keep Operator.filter.name (s.test lib scope param) xs <;> rfl

/-- The value of filters in a row on a list. -/
theorem eval_applyAll (filters : List FilterStage) {before : Expr}
    {outcome : Except EvalError (List Value)}
    (h : before.evalIn lib scope = Value.array <$> outcome) :
    (Stage.applyAll (filters.map (stage param)) before).evalIn lib scope =
      Value.array <$> (outcome >>= keepAll (filters.map (test lib scope param))) := by
  induction filters generalizing before outcome with
  | nil =>
    refine h.trans ?_
    cases outcome <;> rfl
  | cons s rest ih =>
    refine (ih (s.eval_on h)).trans ?_
    cases outcome <;> rfl

/-- Filters on a constant are no ordering step. -/
theorem ordering_applyAll (filters : List FilterStage) (value : Value) (type : DataType) :
    ((Stage.applyAll (filters.map (stage param)) (.constant value type)).meaning lib).ordering =
      .ok ([], ((Stage.applyAll (filters.map (stage param)) (.constant value type)).meaning
        lib).value) := by
  induction filters using List.reverseRecOn with
  | nil => rfl
  | append_singleton rest s _ =>
    rw [List.map_append, List.map_singleton, Stage.applyAll_concat]
    exact s.ordering_on _

/-- The filters joined into one, called and quoted as one likes. -/
def joined (filters : List FilterStage) (onTarget quoted : Bool) : FilterStage :=
  { onTarget := onTarget, quoted := quoted
    condition := .allOf (filters.map condition), more := [] }

/-- **Filters around ordering steps can be joined in front of them**: if the values
    of each key, on the items that reach the ordering, are absent or of one kind,
    then the query with one filter, by the conjunction of all conditions in their
    order, has every value that the query has.  It can have a value where the
    query has none: a key may fail on an item that a later filter drops. -/
theorem eval_joined (lib : Library) (scope : Scope) (param : Param)
    (before after : List FilterStage) (sorts : List SortStage) (onTarget quoted : Bool)
    (xs : List Value) (type : DataType) {v : Value}
    (hkinds : ∀ s ∈ sorts, (s.sortKey lib scope).IsUniform
      (xs.filter (passes (before.map (test lib scope param)))))
    (heval : (Stage.applyAll (before.map (stage param) ++ sorts.map SortStage.stage ++
      after.map (stage param)) (.constant (.array xs) type)).evalIn lib scope = .ok v) :
    (Stage.applyAll ((joined (before ++ after) onTarget quoted).stage param ::
      sorts.map SortStage.stage) (.constant (.array xs) type)).evalIn lib scope = .ok v := by
  have hconstant : (Expr.constant (.array xs) type).evalIn lib scope =
      Value.array <$> (Except.ok xs : Except EvalError (List Value)) := rfl
  -- the query filters, sorts and filters again
  rw [Stage.applyAll_append, Stage.applyAll_append,
    eval_applyAll after (SortStage.eval_applyAll sorts (eval_applyAll before hconstant)
      (ordering_applyAll before _ type))] at heval
  obtain ⟨kept, hkept, rfl⟩ := map_eq_ok.mp heval
  obtain ⟨sorted, hsorted, hafter⟩ := bind_eq_ok.mp hkept
  obtain ⟨reached, hbefore, hsorted⟩ := bind_eq_ok.mp hsorted
  obtain ⟨p, hp, hrun⟩ := bind_eq_ok.mp hsorted
  obtain ⟨-, hreached⟩ := keepAll_eq_ok_iff.mp hbefore
  obtain ⟨hdecided, rfl⟩ := keepAll_eq_ok_iff.mp hafter
  rw [← hreached] at hkinds
  -- the ordering does the same to the items that pass the filters after it
  obtain ⟨huniform, hp'⟩ := SortStage.foldlM_filter ⟨List.Perm.refl reached, by simp⟩ hkinds hp
    (passes (after.map (test lib scope param)))
  have hrun' := huniform.run_filter hrun (passes (after.map (test lib scope param)))
  -- and those are the items that the joined filter keeps
  have hall : keepAll ((before ++ after).map (test lib scope param)) xs =
      .ok (reached.filter (passes (after.map (test lib scope param)))) := by
    rw [List.map_append, keepAll, List.foldlM_append]
    refine bind_eq_ok.mpr ⟨reached, hbefore, keepAll_eq_ok_iff.mpr ⟨fun x hx => ?_, rfl⟩⟩
    exact hdecided x ((huniform.run_perm hrun).mem_iff.mpr hx)
  have hjoined : keep Operator.filter.name
      ((joined (before ++ after) onTarget quoted).test lib scope param) xs =
        .ok (reached.filter (passes (after.map (test lib scope param)))) := by
    refine Expr.keep_allOf ?_
    rwa [List.map_map]
  show (Stage.applyAll (sorts.map SortStage.stage) _).evalIn lib scope = _
  rw [SortStage.eval_applyAll sorts (eval_on _ hconstant) (ordering_on _ _)]
  refine map_eq_ok.mpr ⟨_, bind_eq_ok.mpr ⟨_, hjoined, ?_⟩, rfl⟩
  exact bind_eq_ok.mpr ⟨_, hp', hrun'⟩

/-- Keeps the issues that have votes. -/
def votedOnly : FilterStage :=
  { onTarget := true, quoted := true, condition := Chain.voted, more := [] }

/-- Keeps the issues that are open. -/
def openOnly : FilterStage :=
  { onTarget := false, quoted := false
    condition := .binary .equal (Chain.votedItem.field "Status") (.ofValue (.str "Open"))
    more := [] }

/-- The last issue has no status: no filter but the first ever sees it. -/
theorem eval_joined_votedOnly_openOnly :
    let issue := SortGroup.issueInStatus
    let xs := [issue "A" (.int 2) "Open", issue "B" (.int 7) "Done", issue "C" (.int 2) "Open",
      issue "D" (.int 9) "Open", .record "Issue" (some "E") [("Votes", .int 0)]]
    let sorts := SortGroup.votesThenStatus.steps
    let param := itemParam "Issue"
    (∀ s ∈ sorts, (s.sortKey .standard []).IsUniform
      (xs.filter (passes ([votedOnly].map (test .standard [] param))))) ∧
    (Stage.applyAll ([votedOnly].map (stage param) ++ sorts.map SortStage.stage ++
      [openOnly].map (stage param)) (.constant (.array xs) .any)).evalIn .standard [] =
        .ok (.array [issue "D" (.int 9) "Open", issue "A" (.int 2) "Open",
          issue "C" (.int 2) "Open"]) ∧
    (Stage.applyAll ((joined [votedOnly, openOnly] false true).stage param ::
      sorts.map SortStage.stage) (.constant (.array xs) .any)).evalIn .standard [] =
        .ok (.array [issue "D" (.int 9) "Open", issue "A" (.int 2) "Open",
          issue "C" (.int 2) "Open"]) := by
  intro issue xs sorts param
  have hreached : xs.filter (passes ([votedOnly].map (test .standard [] param))) =
      [issue "A" (.int 2) "Open", issue "B" (.int 7) "Done", issue "C" (.int 2) "Open",
        issue "D" (.int 9) "Open"] := rfl
  have hkinds : ∀ s ∈ sorts, (s.sortKey .standard []).IsUniform
      (xs.filter (passes ([votedOnly].map (test .standard [] param)))) := by
    rw [hreached]
    intro s hs
    change s ∈ [_, _] at hs
    fin_cases hs
    · refine ⟨.int, fun x hx v hv => ?_⟩
      fin_cases hx <;> cases hv <;> rfl
    · refine ⟨.text, fun x hx v hv => ?_⟩
      fin_cases hx <;> cases hv <;> rfl
  exact ⟨hkinds, rfl,
    eval_joined .standard [] param [votedOnly] [openOnly] sorts false true xs .any hkinds rfl⟩

end FilterStage

end IssueSearch
