import IssueSearch.Eval.Standard
import IssueSearch.Proofs.Chains
import IssueSearch.Search.Bind
import Mathlib.Data.List.DropRight

/-! # What is left of a query after its search

    Binding the results of a search replaces the remote collection, and every
    step that the server has carried out together with all that lies below it.

    * `Expr.bindResults_eq`: what binding does at a node.
    * `Expr.bindResults_eq_self`: a tree of which nothing has been answered is
      left alone.
    * `Stage`: a step as it stands in a tree, with any operands and in either
      style of calling.
    * `Stage.bindResults_on`, `Stage.bindResults_applyAll`: what binding does to
      one stage, and to a sequence of them.
    * `Chain.bindResults_keeps_laterSteps`: of a query the steps after its last
      server step remain.  A step on the results that stands before a server
      step is lost with it. -/

namespace IssueSearch

/-! ## One node -/

namespace Expr

/-- Has the search answered the node?  It has if the node stands for a remote
    collection, or is a step that the server carries out. -/
def isAnswered : Expr → Bool
  | constant value type => isRemoteConstant value type
  | call _ method _     => isServerStep method
  | _                   => false

/-- Nothing in the tree has been answered by the search. -/
def IsUnanswered (e : Expr) : Prop :=
  ∀ t : Expr, t.Within e → t.isAnswered = false

/-- Nothing is answered in a tree if neither the node is nor anything in what
    lies below it. -/
theorem isUnanswered_iff (e : Expr) :
    e.IsUnanswered ↔ e.isAnswered = false ∧ ∀ c ∈ e.children, c.IsUnanswered :=
  forall_within_iff e

theorem bindArgs_eq (args : List Expr) (results : Expr) :
    bindArgs args results = args.map fun a => a.bindResults results := by
  induction args with
  | nil => rfl
  | cons a rest ih => rw [bindArgs, ih, List.map_cons]

/-- **One node**: an answered node is replaced, and of any other node the nodes
    below are bound. -/
theorem bindResults_eq (e results : Expr) :
    e.bindResults results =
      if e.isAnswered then results
      else e.withChildren (e.children.map fun c => c.bindResults results) := by
  cases e with
  | constant value type =>
    rw [bindResults]
    rfl
  | call target method args =>
    rw [bindResults]
    show _ = if isServerStep method then results else _
    by_cases hstep : isServerStep method = true
    · rw [if_pos hstep, if_pos hstep]
    · rw [if_neg hstep, if_neg hstep]
      -- in either style the operands are the nodes below
      cases target with
      | none => simp [bindTarget, bindArgs_eq, children, operands, withChildren]
      | some t => simp [bindTarget, bindArgs_eq, children, operands, withChildren]
  | construct name args =>
    rw [bindResults, bindArgs_eq]
    rfl
  | _ => rfl

/-- What has not been answered is left alone. -/
theorem bindResults_eq_self (e results : Expr) (h : e.IsUnanswered) :
    e.bindResults results = e := by
  induction e using induction_on_children with
  | step e ih =>
    obtain ⟨hself, hchildren⟩ := (isUnanswered_iff e).mp h
    have hbelow : e.children.map (fun c => c.bindResults results) = e.children :=
      (List.map_congr_left fun c hc => ih c hc (hchildren c hc)).trans (List.map_id' _)
    rw [bindResults_eq, hself, hbelow, withChildren_children]
    rfl

end Expr

/-! ## Stages -/

/-- A step as it stands in a tree: an operator, called in either style on the
    collection before it, and its other operands. -/
structure Stage where
  operator : Operator
  onTarget : Bool
  args     : List Expr

namespace Stage

/-- The call of a stage on the collection before it. -/
def on (s : Stage) (before : Expr) : Expr :=
  let method : Method := { name := s.operator.name, remote := false }
  if s.onTarget then .call (some before) method s.args
  else .call none method (before :: s.args)

/-- Stages applied to a tree, the first stage first. -/
def applyAll (stages : List Stage) (start : Expr) : Expr :=
  stages.foldl (fun before s => s.on before) start

/-- The stage with results in place of what the search has answered. -/
def bind (results : Expr) (s : Stage) : Stage :=
  { s with args := s.args.map fun a => a.bindResults results }

/-- Does the server carry the stage out? -/
def isServerSide (s : Stage) : Bool :=
  s.operator.isServerSide

theorem applyAll_concat (stages : List Stage) (s : Stage) (start : Expr) :
    applyAll (stages ++ [s]) start = s.on (applyAll stages start) := by
  simp [applyAll, List.foldl_append]

theorem applyAll_append (stages more : List Stage) (start : Expr) :
    applyAll (stages ++ more) start = applyAll more (applyAll stages start) := by
  simp [applyAll, List.foldl_append]

/-- The collection stands before the other operands. -/
theorem children_on (s : Stage) (before : Expr) : (s.on before).children = before :: s.args := by
  unfold on
  split <;> rfl

theorem withChildren_on (s : Stage) (before before' : Expr) (args : List Expr) :
    (s.on before).withChildren (before' :: args) = { s with args := args }.on before' := by
  unfold on
  split <;> rfl

theorem isAnswered_on (s : Stage) (before : Expr) :
    (s.on before).isAnswered = s.isServerSide := by
  have hstep : Expr.isServerStep { name := s.operator.name, remote := false } = s.isServerSide := by
    simp [Expr.isServerStep, isServerSideName, Role.ofName?_name, isServerSide]
  unfold on
  split <;> exact hstep

/-- **One stage**: the server's stages are answered, and of any other stage the
    operands are bound. -/
theorem bindResults_on (s : Stage) (before results : Expr) :
    (s.on before).bindResults results =
      if s.isServerSide then results else (s.bind results).on (before.bindResults results) := by
  rw [Expr.bindResults_eq, isAnswered_on, children_on, List.map_cons, withChildren_on]
  rfl

/-- A stage whose operands hold nothing that was answered is left alone. -/
theorem bind_eq_self {s : Stage} (h : ∀ a ∈ s.args, a.IsUnanswered) (results : Expr) :
    s.bind results = s := by
  have hargs : s.args.map (fun a => a.bindResults results) = s.args :=
    (List.map_congr_left fun a ha => a.bindResults_eq_self results (h a ha)).trans (List.map_id' _)
  rw [bind, hargs]

/-- **A sequence of stages**: those after the last stage of the server remain. -/
theorem bindResults_applyAll (stages : List Stage) (start results : Expr)
    (hstart : start.bindResults results = results) :
    (applyAll stages start).bindResults results =
      applyAll ((stages.rtakeWhile fun s => !s.isServerSide).map (Stage.bind results)) results := by
  -- the tree grows by its last stage, which decides whether those before it count
  induction stages using List.reverseRecOn with
  | nil => exact hstart
  | append_singleton stages s ih =>
    rw [applyAll_concat, bindResults_on]
    cases hside : s.isServerSide with
    | true => simp [hside, applyAll]
    | false =>
      rw [ih]
      simp [hside, applyAll_concat]

end Stage

/-! ## Queries -/

/-- A step of a query as a stage. -/
def Step.stage (entity : String) (s : Step) : Stage :=
  { operator := s.operator, onTarget := false, args := s.args entity }

theorem extendAll_eq (entity : String) (start : Expr) (steps : List Step) :
    extendAll entity start steps = Stage.applyAll (steps.map (Step.stage entity)) start := by
  rw [Stage.applyAll, List.foldl_map]
  rfl

/-- A function of an item holds what its body holds. -/
theorem isUnanswered_itemLambda (entity : String) {body : Expr} (h : body.IsUnanswered) :
    (itemLambda entity body).IsUnanswered := by
  have hlambda : (Expr.lambda [itemParam entity] body).IsUnanswered :=
    (Expr.isUnanswered_iff _).mpr ⟨rfl, by simpa [Expr.children] using h⟩
  exact (Expr.isUnanswered_iff _).mpr ⟨rfl, by simpa [itemLambda, Expr.children] using hlambda⟩

/-- Of the steps on the results only a projection has an operand. -/
theorem Step.args_isUnanswered (entity : String) {s : Step}
    (hside : s.operator.isServerSide = false) (h : ∀ p, s = .select p → p.IsUnanswered) :
    ∀ a ∈ s.args entity, a.IsUnanswered := by
  intro a ha
  cases s with
  | select projection =>
    rw [List.mem_singleton.mp ha]
    exact isUnanswered_itemLambda entity (h projection rfl)
  | filter _ | sort _ _ | skip _ | take _ => simp [operator, Operator.isServerSide] at hside
  | distinct | count | any | first | firstOrDefault | toList => cases ha

namespace Chain

/-- The steps that are applied to the results. -/
def inMemorySteps (c : Chain) : List Step :=
  c.steps.filter fun s => !s.operator.isServerSide

/-- The steps after the last step that the server carries out. -/
def laterSteps (c : Chain) : List Step :=
  c.steps.rtakeWhile fun s => !s.operator.isServerSide

/-- What is left of a query is its last steps, on the results. -/
theorem bindResults_toExpr (c : Chain) (results : Expr) :
    c.toExpr.bindResults results =
      Stage.applyAll (c.laterSteps.map fun s => (s.stage c.entity).bind results) results := by
  have hsource : (Expr.source c.entity).bindResults results = results := rfl
  -- a step and its stage are carried out by the same side
  have hlater : (c.steps.map (Step.stage c.entity)).rtakeWhile (fun s => !s.isServerSide) =
      c.laterSteps.map (Step.stage c.entity) := by
    rw [List.rtakeWhile, ← List.map_reverse, List.takeWhile_map, ← List.map_reverse]
    rfl
  rw [toExpr, extendAll_eq, Stage.bindResults_applyAll _ _ _ hsource, hlater, List.map_map]
  rfl

/-- If the operands of the last steps hold nothing that the search has answered,
    the steps remain as they are. -/
theorem bindResults_toExpr_of_isUnanswered (c : Chain) (results : Expr)
    (h : ∀ s ∈ c.laterSteps, ∀ a ∈ s.args c.entity, a.IsUnanswered) :
    c.toExpr.bindResults results = extendAll c.entity results c.laterSteps := by
  have hkeep : ∀ s ∈ c.laterSteps, (s.stage c.entity).bind results = s.stage c.entity :=
    fun s hs => Stage.bind_eq_self (h s hs) results
  rw [bindResults_toExpr, extendAll_eq, List.map_congr_left hkeep]

/-- All steps on the results are among the last steps exactly when no step of
    the server follows one of them. -/
theorem laterSteps_eq_inMemorySteps_iff (c : Chain) :
    c.laterSteps = c.inMemorySteps ↔
      c.steps.Pairwise fun s t =>
        s.operator.isServerSide = false → t.operator.isServerSide = false := by
  obtain ⟨entity, steps⟩ := c
  simp only [laterSteps, inMemorySteps]
  induction steps using List.reverseRecOn with
  | nil => simp
  | append_singleton steps s ih =>
    rw [List.pairwise_append]
    cases hside : s.operator.isServerSide with
    | true =>
      -- nothing remains below a step of the server, so nothing may be wanted there
      have hremain : (steps ++ [s]).rtakeWhile (fun t => !t.operator.isServerSide) = [] := by
        simp [hside]
      have hwanted : (steps ++ [s]).filter (fun t => !t.operator.isServerSide) =
          steps.filter fun t => !t.operator.isServerSide := by
        simp [hside]
      rw [hremain, hwanted, eq_comm, List.filter_eq_nil_iff]
      constructor
      · intro hall
        refine ⟨List.pairwise_of_forall_mem_list fun t ht _ _ hlater => ?_, by simp,
          fun t ht _ _ hlater => ?_⟩
        · exact absurd (by simpa using hlater) (hall t ht)
        · exact absurd (by simpa using hlater) (hall t ht)
      · rintro ⟨_, _, hlast⟩ t ht hlater
        have hfalse := hlast t ht s (by simp) (by simpa using hlater)
        simp [hside] at hfalse
    | false => simp [hside, ih]

/-- **Of a query the steps after its last server step remain**, and they are
    applied to the results.  No step on the results is lost exactly when no
    step of the server follows it. -/
theorem bindResults_keeps_laterSteps (lib : Library) (c : Chain) (results : List Value)
    (element : DataType) (h : ∀ p, Step.select p ∈ c.laterSteps → p.IsUnanswered) :
    (c.toExpr.bindResults (resultsExpr results element)).eval lib =
        (extendAll c.entity (resultsExpr results element) c.laterSteps).eval lib ∧
      (c.laterSteps = c.inMemorySteps ↔
        c.steps.Pairwise fun s t =>
          s.operator.isServerSide = false → t.operator.isServerSide = false) := by
  refine ⟨?_, laterSteps_eq_inMemorySteps_iff c⟩
  rw [bindResults_toExpr_of_isUnanswered]
  intro s hs
  have hside : s.operator.isServerSide = false := by
    simpa using List.mem_rtakeWhile_imp hs
  refine Step.args_isUnanswered c.entity hside ?_
  rintro p rfl
  exact h p hs

/-- A query with a projection before its paging, and one after it. -/
def pagedKeys : Chain :=
  { entity := "Issue"
    steps :=
      [.select (votedItem.field "Status"), .skip 0, .select (votedItem.field "Votes"), .distinct] }

/-- Two issues with as many votes. -/
def twoVotes : List Value :=
  [.record "Issue" none [("Votes", .int 3), ("Status", .str "Open")],
   .record "Issue" none [("Votes", .int 3), ("Status", .str "Done")]]

theorem bindResults_keeps_laterSteps_pagedKeys :
    (∀ p, Step.select p ∈ pagedKeys.laterSteps → p.IsUnanswered) ∧
      pagedKeys.laterSteps = [.select (votedItem.field "Votes"), .distinct] ∧
      (pagedKeys.toExpr.bindResults (resultsExpr twoVotes .any)).eval .standard =
        .ok (.array [.int 3]) := by
  have hlater : ∀ p, Step.select p ∈ pagedKeys.laterSteps → p.IsUnanswered := by
    intro p hp
    obtain rfl : p = votedItem.field "Votes" := by
      have hsteps : pagedKeys.laterSteps = [.select (votedItem.field "Votes"), .distinct] := rfl
      simpa [hsteps] using hp
    have hitem : votedItem.IsUnanswered :=
      (Expr.isUnanswered_iff _).mpr ⟨rfl, by simp [votedItem, Expr.children]⟩
    exact (Expr.isUnanswered_iff _).mpr ⟨rfl, by simpa [Expr.field, Expr.typedField,
      Expr.children] using hitem⟩
  refine ⟨hlater, rfl, ?_⟩
  exact (bindResults_keeps_laterSteps .standard pagedKeys twoVotes .any hlater).1.trans rfl

/-- **A projection before a later step of the server is lost.** The query has a
    search, and on its results the statuses are asked for, yet what remains of
    the query returns the issues themselves. -/
theorem select_before_skip_is_lost :
    let c : Chain := { entity := "Issue", steps := [.select (votedItem.field "Status"), .skip 0] }
    (∃ search, c.toExpr.compile votingContext = .ok search) ∧
      (c.toExpr.bindResults (resultsExpr twoVotes .any)).eval .standard = .ok (.array twoVotes) ∧
      (extendAll c.entity (resultsExpr twoVotes .any) c.inMemorySteps).eval .standard =
        .ok (.array [.str "Open", .str "Done"]) :=
  ⟨⟨_, rfl⟩, rfl, rfl⟩

end Chain

end IssueSearch
