import IssueSearch.Proofs.Execution
import IssueSearch.Proofs.Sorting
import Mathlib.Tactic.FinCases

/-! # Ordering steps

    A step that refines the order does not sort what is already sorted: it hands
    its key down, and the group of steps sorts once, by all keys.  So what an
    ordering step passes on is not a list but a `Sorting`: items, and the keys
    that are to sort them.

    * `SortStage.next`: what one step makes of a sorting.
    * `SortStage.eval_applyAll`: the value of ordering steps in a row is found by
      making one step after the other and sorting at the end.
    * `SortGroup.eval_isStableSort`: a group of ordering steps is a stable sort by
      its keys, the first key deciding first, and the same as sorting by one key
      after the other, the last key first. -/

namespace IssueSearch

open Sequence (SortKey HasValues sortBy sort keyOrder)

/-! ## Steps -/

/-- Items, and the keys that are to sort them. -/
structure Sorting where
  keys  : List SortKey
  items : List Value

/-- The items in the order of the keys. -/
def Sorting.run (p : Sorting) : Except EvalError (List Value) :=
  sortBy p.keys p.items

/-- An ordering step as it stands in a tree.  Operands beyond the key are not
    looked at. -/
structure SortStage where
  step     : SortStep
  onTarget : Bool
  key      : Expr
  more     : List Expr

namespace SortStage

/-- The step as a stage. -/
def stage (s : SortStage) : Stage :=
  { operator := .sort s.step, onTarget := s.onTarget, args := s.key :: s.more }

/-- The key that the step sorts by. -/
def sortKey (lib : Library) (scope : Scope) (s : SortStage) : SortKey :=
  { descending := s.step.isDescending, key := (s.key.meaning lib).apply scope }

/-- What the step makes of a sorting: it adds its key, or sorts and starts anew. -/
def next (lib : Library) (scope : Scope) (p : Sorting) (s : SortStage) :
    Except EvalError Sorting :=
  if s.step.refines then .ok { p with keys := p.keys ++ [s.sortKey lib scope] }
  else do .ok { keys := [s.sortKey lib scope], items := ← p.run }

/-- The step with the same key and direction that starts anew. -/
def afresh (s : SortStage) : SortStage :=
  { s with step := if s.step.isDescending then .orderByDescending else .orderBy }

end SortStage

/-! ## Nodes that sort -/

namespace Meaning

/-- The node sorts, and a step that refines it sorts the same items. -/
structure Sorts (m : Meaning) (scope : Scope) (outcome : Except EvalError Sorting) : Prop where
  value    : m.value scope = Value.array <$> (outcome >>= Sorting.run)
  ordering : ∃ stepKeys source, m.ordering = .ok (stepKeys, source) ∧
    outcome = (do
      let xs ← items (Operator.sort .orderBy).name source scope
      .ok { keys := stepKeys.map (ScopedKey.inScope scope), items := xs })

/-- A list that is no ordering step sorts by no key. -/
theorem sorts_of_list {m : Meaning} {scope : Scope} {outcome : Except EvalError (List Value)}
    (hvalue : m.value scope = Value.array <$> outcome)
    (hordering : m.ordering = .ok ([], m.value)) :
    m.Sorts scope (do .ok { keys := [], items := ← outcome }) where
  value := by
    cases outcome with
    | error e => exact hvalue
    | ok xs =>
      show _ = Value.array <$> sortBy [] xs
      rw [hvalue, Sequence.sortBy_nil]
  ordering := by
    refine ⟨[], m.value, hordering, ?_⟩
    rw [items, hvalue]
    cases outcome <;> rfl

end Meaning

namespace SortStage

variable {lib : Library} {scope : Scope}

/-- The keys of a step are its own and those of the steps it refines. -/
theorem ordering_on (s : SortStage) (before : Expr) :
    ((s.stage.on before).meaning lib).ordering =
      Meaning.orderingOf s.step (before.meaning lib :: s.key.meaning lib ::
        s.more.map (Expr.meaning lib)) := by
  rw [Stage.meaning_on]
  simp only [stage, Meaning.call, Role.ofName?_name, List.map_cons]

/-- The value of a step sorts through its keys. -/
theorem value_on (s : SortStage) (before : Expr) (scope : Scope) :
    ((s.stage.on before).meaning lib).value scope =
      Meaning.sortThrough ((s.stage.on before).meaning lib).ordering [] scope := by
  rw [ordering_on, ← Meaning.sorted_eq, Stage.meaning_on]
  simp [stage, Meaning.call, Meaning.plain, Meaning.callValue, Role.ofName?_name, Meaning.operator]

/-- A step sorts what its keys are about. -/
theorem sorts_of_ordering (s : SortStage) (scope : Scope) {before : Expr}
    {stepKeys : List ScopedKey} {source : ScopedValue}
    (h : ((s.stage.on before).meaning lib).ordering = .ok (stepKeys, source)) :
    ((s.stage.on before).meaning lib).Sorts scope (do
      let xs ← Meaning.items (Operator.sort .orderBy).name source scope
      .ok { keys := stepKeys.map (ScopedKey.inScope scope), items := xs }) where
  value := by
    rw [value_on, h]
    show (Meaning.items (Operator.sort .orderBy).name source scope >>= _) = _
    simp only [List.append_nil]
    cases Meaning.items (Operator.sort .orderBy).name source scope <;> rfl
  ordering := ⟨stepKeys, source, h, rfl⟩

/-- **One step**: on a node that sorts, it makes the next sorting. -/
theorem sorts_on (s : SortStage) {before : Expr} {outcome : Except EvalError Sorting}
    (h : (before.meaning lib).Sorts scope outcome) :
    ((s.stage.on before).meaning lib).Sorts scope (outcome >>= fun p => s.next lib scope p) := by
  cases hs : s.step.refines with
  | true =>
    -- the step asks for the keys below it and adds its own
    obtain ⟨stepKeys, source, hordering, rfl⟩ := h.ordering
    have hkeys : ((s.stage.on before).meaning lib).ordering =
        .ok (stepKeys ++ [Meaning.stepKey s.step (s.key.meaning lib)], source) := by
      rw [ordering_on]
      simp only [Meaning.orderingOf, hs, if_true, hordering]
      rfl
    have hnext := sorts_of_ordering s scope hkeys
    rw [List.map_append] at hnext
    convert hnext using 1
    simp only [next, hs, if_true]
    cases Meaning.items (Operator.sort .orderBy).name source scope <;> rfl
  | false =>
    -- the step asks for the value below it, which is sorted by the keys so far
    have hkeys : ((s.stage.on before).meaning lib).ordering =
        .ok ([Meaning.stepKey s.step (s.key.meaning lib)], (before.meaning lib).value) := by
      rw [ordering_on, Meaning.orderingOf_fresh hs]
    convert sorts_of_ordering s scope hkeys using 1
    simp only [next, hs, Meaning.items, h.value]
    cases outcome with
    | error e => rfl
    | ok p =>
      show (p.run >>= _) = ((Value.array <$> p.run) >>= _) >>= _
      cases p.run <;> rfl

/-- **Steps in a row**: on a node that sorts, they make one sorting after the
    other. -/
theorem sorts_applyAll (steps : List SortStage) {before : Expr}
    {outcome : Except EvalError Sorting} (h : (before.meaning lib).Sorts scope outcome) :
    ((Stage.applyAll (steps.map stage) before).meaning lib).Sorts scope
      (outcome >>= fun p => steps.foldlM (next lib scope) p) := by
  induction steps generalizing before outcome with
  | nil =>
    cases outcome <;> exact h
  | cons s rest ih =>
    have hrest := ih (s.sorts_on h)
    cases outcome <;> exact hrest

/-- The value of ordering steps on a list. -/
theorem eval_applyAll (steps : List SortStage) {before : Expr}
    {outcome : Except EvalError (List Value)}
    (hvalue : before.evalIn lib scope = Value.array <$> outcome)
    (hordering : (before.meaning lib).ordering = .ok ([], (before.meaning lib).value)) :
    (Stage.applyAll (steps.map stage) before).evalIn lib scope =
      Value.array <$> (outcome >>= fun xs =>
        steps.foldlM (next lib scope) { keys := [], items := xs } >>= Sorting.run) := by
  have hsorts := sorts_applyAll steps (Meaning.sorts_of_list hvalue hordering)
  refine hsorts.value.trans ?_
  cases outcome <;> rfl

/-- Steps that refine the order add their keys. -/
theorem foldlM_refining {rest : List SortStage} (h : ∀ s ∈ rest, s.step.refines = true)
    (p : Sorting) :
    rest.foldlM (next lib scope) p =
      .ok { p with keys := p.keys ++ rest.map (sortKey lib scope) } := by
  induction rest generalizing p with
  | nil => simp [pure, Except.pure]
  | cons s rest ih =>
    obtain ⟨hs, hrest⟩ := List.forall_mem_cons.mp h
    have hnext : next lib scope p s = .ok { p with keys := p.keys ++ [s.sortKey lib scope] } := by
      rw [next, if_pos hs]
    rw [List.foldlM_cons, hnext]
    refine (ih hrest _).trans ?_
    simp

theorem next_afresh (s : SortStage) (p : Sorting) :
    next lib scope p s.afresh = (do .ok { keys := [s.sortKey lib scope], items := ← p.run }) := by
  unfold next sortKey afresh
  cases s.step <;> rfl

/-- Steps that each start anew, the last one of the list first, sort by all
    their keys. -/
theorem foldlM_afresh {steps : List SortStage} {xs : List Value}
    (hvalues : HasValues (steps.map (sortKey lib scope)) xs)
    (hkinds : ∀ k ∈ steps.map (sortKey lib scope), k.IsUniform xs) :
    (steps.reverse.map afresh).foldlM (next lib scope) { keys := [], items := xs } >>=
        Sorting.run =
      .ok (sort (keyOrder (steps.map (sortKey lib scope))) xs) := by
  induction steps with
  | nil =>
    refine (Sequence.sortBy_nil xs).trans (congrArg Except.ok ?_)
    exact (Sequence.sort_eq_self _ xs fun _ _ _ _ => by simp [keyOrder]).symm
  | cons s rest ih =>
    obtain ⟨hs, hrest⟩ := List.forall_mem_cons.mp hvalues
    obtain ⟨p, hp, hrun⟩ := bind_eq_ok.mp (ih hrest (List.forall_mem_cons.mp hkinds).2)
    -- the first key is the last to sort
    have hone : HasValues [s.sortKey lib scope]
        (sort (keyOrder (rest.map (sortKey lib scope))) xs) := by
      intro k hk x hx
      cases List.mem_singleton.mp hk
      exact hs x ((Sequence.sort_perm _ xs).mem_iff.mp hx)
    have hlast : sortBy [s.sortKey lib scope] (sort (keyOrder (rest.map (sortKey lib scope))) xs) =
        .ok (sort (keyOrder ((s :: rest).map (sortKey lib scope))) xs) := by
      rw [List.map_cons, ← Sequence.sort_keyOrder_cons hkinds]
      exact Sequence.sortBy_eq_ok_iff.mpr ⟨hone, rfl⟩
    rw [List.reverse_cons, List.map_append, List.foldlM_append, hp]
    show (next lib scope p s.afresh >>= pure) >>= Sorting.run = _
    rw [next_afresh, hrun]
    exact hlast

end SortStage

/-! ## Groups of steps -/

/-- A step that starts an order and the steps that refine it. -/
structure SortGroup where
  first     : SortStage
  rest      : List SortStage
  starts    : first.step.refines = false
  continues : ∀ s ∈ rest, s.step.refines = true

namespace SortGroup

/-- The steps of a group. -/
def steps (g : SortGroup) : List SortStage :=
  g.first :: g.rest

/-- The keys of a group, the first one deciding first. -/
def keys (lib : Library) (scope : Scope) (g : SortGroup) : List SortKey :=
  g.steps.map (SortStage.sortKey lib scope)

/-- A group sorts once, by all its keys. -/
theorem foldlM_steps (lib : Library) (scope : Scope) (g : SortGroup) (xs : List Value) :
    g.steps.foldlM (SortStage.next lib scope) { keys := [], items := xs } =
      .ok { keys := g.keys lib scope, items := xs } := by
  have hfirst : SortStage.next lib scope { keys := [], items := xs } g.first =
      .ok { keys := [g.first.sortKey lib scope], items := xs } := by
    rw [SortStage.next, g.starts, Sorting.run, Sequence.sortBy_nil]
    rfl
  rw [steps, List.foldlM_cons, hfirst]
  exact SortStage.foldlM_refining g.continues _

/-- **Groups of ordering steps sort stably**: if every key has a value on every
    item, and the values of each key are absent or of one kind, the items come
    out in the order of the keys, the first one deciding first; items without a
    value of a key stand first among those that the keys before it leave level,
    or last if the key is descending; and items that all keys leave level stand
    as they stood.  Sorting anew by one key after the other, the last key first,
    gives the same. -/
theorem eval_isStableSort (lib : Library) (scope : Scope) (g : SortGroup) (xs : List Value)
    (type : DataType) (hvalues : HasValues (g.keys lib scope) xs)
    (hkinds : ∀ k ∈ g.keys lib scope, k.IsUniform xs) :
    ∃ ys,
      (Stage.applyAll (g.steps.map SortStage.stage) (.constant (.array xs) type)).evalIn lib
        scope = .ok (.array ys) ∧
      IsStableSort (keyOrder (g.keys lib scope)) xs ys ∧
      (∀ before k after, g.keys lib scope = before ++ k :: after →
        ys.Pairwise fun a b => keyOrder before a b = .eq → k.PlacesAbsent a b) ∧
      (Stage.applyAll ((g.steps.reverse.map SortStage.afresh).map SortStage.stage)
        (.constant (.array xs) type)).evalIn lib scope = .ok (.array ys) := by
  have hstable := (Sequence.keyOrder_lawfulOn hkinds).isStableSort
  have hconstant : (Expr.constant (.array xs) type).evalIn lib scope =
      Value.array <$> (Except.ok xs : Except EvalError (List Value)) := rfl
  have heval : ∀ steps : List SortStage,
      (Stage.applyAll (steps.map SortStage.stage) (.constant (.array xs) type)).evalIn lib scope =
        Value.array <$> (steps.foldlM (SortStage.next lib scope) { keys := [], items := xs } >>=
          Sorting.run) :=
    fun steps => SortStage.eval_applyAll steps hconstant rfl
  refine ⟨sort (keyOrder (g.keys lib scope)) xs, ?_, hstable, ?_, ?_⟩
  · have hrun : Sorting.run { keys := g.keys lib scope, items := xs } =
        .ok (sort (keyOrder (g.keys lib scope)) xs) :=
      Sequence.sortBy_eq_ok_iff.mpr ⟨hvalues, rfl⟩
    rw [heval, foldlM_steps]
    exact congrArg (Value.array <$> ·) hrun
  · intro before k after hkeys
    refine hstable.ordered.imp fun {a b} hab hlevel => Sequence.SortKey.placesAbsent_of_order ?_
    rw [hkeys, Sequence.keyOrder_append, hlevel] at hab
    intro hgt
    exact hab (by simp [keyOrder, compareLex, hgt])
  · rw [heval, SortStage.foldlM_afresh hvalues hkinds]
    rfl

/-- The most votes first, and then by status. -/
def votesThenStatus : SortGroup where
  first :=
    { step := .orderByDescending, onTarget := true
      key := itemLambda "Issue" (Chain.votedItem.field "Votes"), more := [] }
  rest :=
    [{ step := .thenBy, onTarget := false
       key := itemLambda "Issue" (Chain.votedItem.field "Status"), more := [] }]
  starts := rfl
  continues := by simp [SortStep.refines]

/-- An issue with its key, its votes if they are known, and its status. -/
def issueInStatus (key : String) (votes : Value) (status : String) : Value :=
  .record "Issue" (some key) [("Votes", votes), ("Status", .str status)]

theorem eval_isStableSort_votesThenStatus :
    let xs := [issueInStatus "A" .null "Open", issueInStatus "B" (.int 2) "Open",
      issueInStatus "C" (.int 7) "Open", issueInStatus "D" (.int 2) "Done",
      issueInStatus "E" (.int 2) "Open"]
    let ys := [issueInStatus "C" (.int 7) "Open", issueInStatus "D" (.int 2) "Done",
      issueInStatus "B" (.int 2) "Open", issueInStatus "E" (.int 2) "Open",
      issueInStatus "A" .null "Open"]
    let keys := votesThenStatus.keys .standard []
    HasValues keys xs ∧ (∀ k ∈ keys, k.IsUniform xs) ∧
      (Stage.applyAll (votesThenStatus.steps.map SortStage.stage)
        (.constant (.array xs) .any)).eval .standard = .ok (.array ys) ∧
      IsStableSort (keyOrder keys) xs ys := by
  intro xs ys keys
  have hvalues : HasValues keys xs := by
    intro k hk x hx
    change k ∈ [_, _] at hk
    simp only [xs] at hx
    fin_cases hk <;> fin_cases hx <;> exact ⟨_, rfl⟩
  have hkinds : ∀ k ∈ keys, k.IsUniform xs := by
    intro k hk
    change k ∈ [_, _] at hk
    fin_cases hk
    · refine ⟨.int, fun x hx v hv => ?_⟩
      simp only [xs] at hx
      fin_cases hx <;> cases hv <;> rfl
    · refine ⟨.text, fun x hx v hv => ?_⟩
      simp only [xs] at hx
      fin_cases hx <;> cases hv <;> rfl
  obtain ⟨sorted, heval, hstable, -, -⟩ :=
    eval_isStableSort .standard [] votesThenStatus xs .any hvalues hkinds
  have hys : (Stage.applyAll (votesThenStatus.steps.map SortStage.stage)
      (.constant (.array xs) .any)).evalIn .standard [] = .ok (.array ys) := rfl
  obtain rfl : ys = sorted := by simpa [heval] using hys.symm
  exact ⟨hvalues, hkinds, heval, hstable⟩

end SortGroup

end IssueSearch
