import IssueSearch.Proofs.Execution

/-! # What the results of a search replace

    The results stand in for a remote collection, and for every step that bears
    the name of a step of the server.  A step is known by its name alone, so
    one that works on a list at hand is replaced with the others.

    * `Expr.at?`: the part of a tree at the end of a path.
    * `Expr.Exposed`: a path that passes no replaced node on its way.
    * `Expr.at?_bindResults`: what binding leaves at the end of such a path.
    * `Expr.bindResults_isUnanswered`: nothing to be replaced is left.
    * `Expr.bindResults_replaces_steps`: in a tree without remote collections
      exactly the steps are replaced, and a tree is left alone exactly if it has
      none.
    * `Expr.bindResults_leaves_nothing_remote`: of any tree nothing remote is left,
      except for calls that only the server can run. -/

namespace IssueSearch.Expr

/-! ## Places in a tree -/

/-- The part of a tree at the end of a path, which says at each node which of the
    nodes below it comes next. -/
def at? (e : Expr) : List Nat → Option Expr
  | []        => some e
  | i :: path => e.children[i]?.bind fun c => c.at? path

/-- `Exposed e path t`: the path leads from `e` to `t`, and the search has answered
    no node on the way, `t` itself apart. -/
inductive Exposed : Expr → List Nat → Expr → Prop
  | here (e : Expr) : Exposed e [] e
  | child {e c t : Expr} {i : Nat} {path : List Nat} (hnode : e.isAnswered = false)
      (hchild : e.children[i]? = some c) (hrest : Exposed c path t) : Exposed e (i :: path) t

/-- The nodes below a node that is not replaced are bound in their places. -/
theorem children_bindResults {e : Expr} (h : e.isAnswered = false) (results : Expr) :
    (e.bindResults results).children = e.children.map fun c => c.bindResults results := by
  rw [bindResults_eq, h, if_neg (by simp)]
  exact children_withChildren (by simp)

/-- **Places are kept**: what binding leaves at an exposed place is what it makes of
    the part that was there. -/
theorem at?_bindResults {e t : Expr} {path : List Nat} (h : Exposed e path t) (results : Expr) :
    (e.bindResults results).at? path = some (t.bindResults results) := by
  induction h with
  | here e => rfl
  | child hnode hchild _ ih =>
    simp only [at?, children_bindResults hnode, List.getElem?_map, hchild, Option.map_some,
      Option.bind_some, ih]

/-! ## Nothing is left to be replaced -/

theorem isUnanswered_resultsExpr (results : List Value) (element : DataType) :
    (resultsExpr results element).IsUnanswered :=
  (isUnanswered_iff _).mpr ⟨rfl, by simp [resultsExpr, children]⟩

/-- **After binding nothing is left to be replaced**, if the results hold nothing of
    the kind. -/
theorem bindResults_isUnanswered (e : Expr) {results : Expr} (hresults : results.IsUnanswered) :
    (e.bindResults results).IsUnanswered := by
  induction e using induction_on_children with
  | step e ih =>
    cases hnode : e.isAnswered with
    | true =>
      rw [bindResults_eq, hnode, if_pos rfl]
      exact hresults
    | false =>
      have hself : (e.bindResults results).isAnswered = false := by
        rw [bindResults_eq, hnode, if_neg (by simp), isAnswered_withChildren, hnode]
      refine (isUnanswered_iff _).mpr ⟨hself, ?_⟩
      rw [children_bindResults hnode]
      exact List.forall_mem_map.mpr ih

/-- Binding leaves a tree alone exactly if nothing in it has been answered. -/
theorem bindResults_eq_self_iff (e : Expr) {results : Expr} (hresults : results.IsUnanswered) :
    e.bindResults results = e ↔ e.IsUnanswered := by
  constructor
  · intro hsame
    rw [← hsame]
    exact bindResults_isUnanswered e hresults
  · exact bindResults_eq_self e results

/-! ## Trees without remote collections -/

/-- No constant in the tree stands for a remote collection. -/
def HasNoRemoteConstant (e : Expr) : Prop :=
  ∀ value type, (constant value type).Within e → isRemoteConstant value type = false

/-- A constant stands for a remote collection exactly if it names its entity. -/
theorem constantEntity?_eq_none_iff (value : Value) (type : DataType) :
    constantEntity? value type = none ↔ isRemoteConstant value type = false := by
  cases value with
  | source entity => simp [constantEntity?, isRemoteConstant]
  | _ => cases type <;> simp [constantEntity?, isRemoteConstant, DataType.isQueryable]

theorem argsEntity?_eq_none_iff (args : List Expr) :
    argsEntity? args = none ↔ ∀ a ∈ args, a.entity? = none := by
  induction args with
  | nil => simp [argsEntity?]
  | cons a rest ih => simp [argsEntity?, ih]

/-- Whether an entity is found is decided at the node and at the nodes below. -/
theorem entity?_eq_none_iff_children (e : Expr) :
    e.entity? = none ↔
      (∀ value type, e = constant value type → isRemoteConstant value type = false) ∧
        ∀ c ∈ e.children, c.entity? = none := by
  cases e with
  | constant value type =>
    rw [entity?, constantEntity?_eq_none_iff]
    constructor
    · rintro hlocal
      refine ⟨?_, by simp [children]⟩
      rintro _ _ ⟨⟩
      exact hlocal
    · exact fun h => h.1 value type rfl
  | call target method args =>
    cases target <;> simp [entity?, targetEntity?, argsEntity?_eq_none_iff, children, operands]
  | construct name args => simp [entity?, argsEntity?_eq_none_iff, children]
  | _ => simp [entity?, children]

/-- The tree names no entity exactly if it has no remote collection. -/
theorem entity?_eq_none_iff (e : Expr) : e.entity? = none ↔ e.HasNoRemoteConstant := by
  induction e using induction_on_children with
  | step e ih =>
    rw [entity?_eq_none_iff_children]
    constructor
    · rintro ⟨hself, hbelow⟩ value type hw
      rcases within_iff.mp hw with rfl | ⟨c, hc, hw⟩
      · exact hself value type rfl
      · exact (ih c hc).mp (hbelow c hc) value type hw
    · intro h
      refine ⟨?_, fun c hc => (ih c hc).mpr fun value type hw => h value type (.child hc hw)⟩
      rintro value type rfl
      exact h value type .self

theorem HasNoRemoteConstant.part {t e : Expr} (h : e.HasNoRemoteConstant) (ht : t.Within e) :
    t.HasNoRemoteConstant :=
  fun value type hw => h value type (hw.trans ht)

/-- Where no constant is remote, only steps can have been answered. -/
theorem HasNoRemoteConstant.isUnanswered_iff {e : Expr} (h : e.HasNoRemoteConstant) :
    e.IsUnanswered ↔ e.HasNoServerStep := by
  constructor
  · intro hnone target method args hw
    exact hnone _ hw
  · intro hsteps t ht
    cases t with
    | constant value type => exact h value type ht
    | call target method args => exact hsteps target method args ht
    | _ => rfl

theorem Exposed.within {e t : Expr} {path : List Nat} (h : Exposed e path t) : t.Within e := by
  induction h with
  | here e => exact .self
  | child _ hchild _ ih => exact .child (List.mem_of_getElem? hchild) ih

/-- **Exactly the steps are replaced**: in a tree without remote collections, binding
    puts the results in the place of every outermost step with the name of a step
    of the server, whatever it works on, and leaves every part without such steps
    where it is.  So the tree is left alone exactly if it has no such step. -/
theorem bindResults_replaces_steps (e : Expr) (h : e.HasNoRemoteConstant) (results : List Value)
    (element : DataType) :
    (e.bindResults (resultsExpr results element) = e ↔ e.HasNoServerStep) ∧
    ∀ path t, Exposed e path t →
      (∀ target method args, t = call target method args → isServerStep method = true →
        (e.bindResults (resultsExpr results element)).at? path =
          some (resultsExpr results element)) ∧
      (t.HasNoServerStep → (e.bindResults (resultsExpr results element)).at? path = some t) := by
  have hresults := isUnanswered_resultsExpr results element
  refine ⟨(bindResults_eq_self_iff e hresults).trans h.isUnanswered_iff, ?_⟩
  intro path t hexposed
  rw [at?_bindResults hexposed]
  constructor
  · rintro target method args rfl hstep
    rw [bindResults_eq, show (call target method args).isAnswered = true from hstep, if_pos rfl]
  · intro hsteps
    rw [bindResults_eq_self t _ ((h.part hexposed.within).isUnanswered_iff.mpr hsteps)]

/-- A call that can run here, with its first operand in front. -/
def localCall (name : String) (args : List Expr) : Expr :=
  call none { name := name, remote := false } args

/-- One label of an issue. -/
def label : Param := { name := "label", type := .string }

/-- An issue with two labels. -/
def labelledIssue : Value :=
  .record "Issue" none [("Labels", .array [.str "red", .str "blue"])]

/-- For every issue of a list at hand, its labels, made less by the given step. -/
def labelsOfIssues (step : Expr → Expr) : Expr :=
  localCall "select" [ofValue (.array [labelledIssue]),
    itemLambda "Issue" (step ((parameter (itemParam "Issue")).field "Labels"))]

/-- Drops all labels but the red ones. -/
def redLabels (labels : Expr) : Expr :=
  localCall "where" [labels,
    quote (lambda [label] (binary .equal (parameter label) (ofValue (.str "red"))))]

theorem bindResults_replaces_steps_redLabels :
    let e := labelsOfIssues redLabels
    let kept := labelsOfIssues fun labels => localCall "distinct" [labels]
    let results := resultsExpr [.str "A-1"] .any
    (e.HasNoRemoteConstant ∧ (e.bindResults results).at? [1, 0, 0] = some results ∧
      (e.bindResults results).at? [0] = some (ofValue (.array [labelledIssue]))) ∧
    kept.HasNoRemoteConstant ∧ kept.HasNoServerStep := by
  have hlocal : (labelsOfIssues redLabels).HasNoRemoteConstant := (entity?_eq_none_iff _).mp rfl
  have hkept : (labelsOfIssues fun labels => localCall "distinct" [labels]).HasNoRemoteConstant :=
    (entity?_eq_none_iff _).mp rfl
  obtain ⟨-, hplaces⟩ := bindResults_replaces_steps _ hlocal [.str "A-1"] .any
  -- the filter is the body of the projection, and no step stands above it
  have hfilter := hplaces [1, 0, 0] _ (.child rfl rfl (.child rfl rfl (.child rfl rfl (.here _))))
  have hissues := hplaces [0] _ (.child rfl rfl (.here _))
  obtain ⟨hsame, -⟩ := bindResults_replaces_steps _ hkept [.str "A-1"] .any
  exact ⟨⟨hlocal, hfilter.1 _ _ _ rfl rfl, hissues.2 (by simp [ofValue])⟩, hkept, hsame.mp rfl⟩

/-- **A filter of a list at hand is lost**: of each issue the red labels are asked
    for, and nothing is remote, yet after binding the results stand in the place of
    its labels. -/
theorem local_filter_is_replaced :
    let e := labelsOfIssues redLabels
    let bound := e.bindResults (resultsExpr [.str "A-1"] .any)
    e.HasNoRemoteConstant ∧ bound ≠ e ∧
      e.eval .standard = .ok (.array [.array [.str "red"]]) ∧
      bound.eval .standard = .ok (.array [.array [.str "A-1"]]) := by
  have hlocal : (labelsOfIssues redLabels).HasNoRemoteConstant := (entity?_eq_none_iff _).mp rfl
  refine ⟨hlocal, ?_, rfl, rfl⟩
  -- the two trees have different values
  intro hsame
  have hvalues : (Except.ok (.array [.array [.str "A-1"]]) : Except EvalError Value) =
      .ok (.array [.array [.str "red"]]) := congrArg (eval .standard) hsame
  simp at hvalues

/-! ## Nothing remote remains -/

/-- The names of the steps that the server carries out. -/
def serverStepNames : List String :=
  ["where", "order_by", "order_by_descending", "then_by", "then_by_descending", "skip", "take"]

theorem isServerSideName_iff (name : String) :
    isServerSideName name = true ↔ name ∈ serverStepNames := by
  constructor
  · intro h
    obtain ⟨op, hop, hside⟩ := (Option.any_eq_true _ _).mp h
    -- the operator that is found bears the name
    obtain rfl : op.name = name := by simpa using List.find?_some hop
    cases op with
    | filter | skip | take => decide
    | sort step => cases step <;> decide
    | select | count | any | first | firstOrDefault | toList | distinct => cases hside
  · intro h
    have hall : ∀ name ∈ serverStepNames, isServerSideName name = true := by decide
    exact hall name h

/-- `e.NothingRemote`: no constant of the tree is a remote collection or is declared
    as one, and no call that can run here bears the name of a step of the server. -/
structure NothingRemote (e : Expr) : Prop where
  source : ∀ entity type, ¬ (constant (.source entity) type).Within e
  queryable : ∀ value entity, ¬ (constant value (.queryable entity)).Within e
  step : ∀ target method args, (call target method args).Within e → method.remote = false →
    method.name ∉ serverStepNames

/-- A constant is replaced if it is a remote collection or is declared as one. -/
theorem isRemoteConstant_eq_false_iff (value : Value) (type : DataType) :
    isRemoteConstant value type = false ↔
      (∀ entity, value ≠ .source entity) ∧ ∀ entity, type ≠ .queryable entity := by
  cases value with
  | source entity => simp [isRemoteConstant]
  | _ => cases type <;> simp [isRemoteConstant, DataType.isQueryable]

/-- A call is replaced if it can run here and bears the name of a step. -/
theorem isServerStep_eq_false_iff (method : Method) :
    isServerStep method = false ↔ (method.remote = false → method.name ∉ serverStepNames) := by
  rw [← isServerSideName_iff]
  cases hremote : method.remote <;> simp [isServerStep, hremote]

/-- What is remote in a tree is what the search has answered. -/
theorem nothingRemote_iff (e : Expr) : e.NothingRemote ↔ e.IsUnanswered := by
  constructor
  · rintro ⟨hsource, hqueryable, hstep⟩ t ht
    cases t with
    | constant value type =>
      refine (isRemoteConstant_eq_false_iff value type).mpr ⟨?_, ?_⟩
      · rintro entity rfl
        exact hsource entity type ht
      · rintro entity rfl
        exact hqueryable value entity ht
    | call target method args =>
      exact (isServerStep_eq_false_iff method).mpr (hstep target method args ht)
    | _ => rfl
  · intro hnone
    refine ⟨?_, ?_, ?_⟩
    · intro entity type hw
      exact ((isRemoteConstant_eq_false_iff (.source entity) type).mp (hnone _ hw)).1 entity rfl
    · intro value entity hw
      exact ((isRemoteConstant_eq_false_iff value (.queryable entity)).mp (hnone _ hw)).2 entity rfl
    · intro target method args hw
      exact (isServerStep_eq_false_iff method).mp (hnone _ hw)

theorem bindTarget_eq (target : Option Expr) (results : Expr) :
    bindTarget target results = target.map fun t => t.bindResults results := by
  cases target <;> rfl

/-- A call that only the server can run is kept, whatever its name. -/
theorem bindResults_remoteCall {method : Method} (hremote : method.remote = true)
    (target : Option Expr) (args : List Expr) (results : Expr) :
    (call target method args).bindResults results =
      call (target.map fun t => t.bindResults results) method
        (args.map fun a => a.bindResults results) := by
  have hstep : isServerStep method = false := by simp [isServerStep, hremote]
  rw [bindResults, hstep, bindTarget_eq, bindArgs_eq]
  rfl

/-- **After binding nothing remote is left**: no remote collection and no step of the
    server that could run here.  So binding again changes nothing, and a tree is
    left alone exactly if it had nothing of the kind.  A call of a remote method
    stays where it is, also under the name of a step, and what it is called on is
    bound. -/
theorem bindResults_leaves_nothing_remote (e : Expr) (results : List Value) (element : DataType) :
    let bind := fun e : Expr => e.bindResults (resultsExpr results element)
    (bind e).NothingRemote ∧ bind (bind e) = bind e ∧ (bind e = e ↔ e.NothingRemote) ∧
      ∀ path target method args, Exposed e path (call target method args) →
        method.remote = true →
        (bind e).at? path = some (call (target.map bind) method (args.map bind)) := by
  intro bind
  have hresults := isUnanswered_resultsExpr results element
  have hbound : (bind e).IsUnanswered := bindResults_isUnanswered e hresults
  refine ⟨(nothingRemote_iff _).mpr hbound, bindResults_eq_self _ _ hbound, ?_, ?_⟩
  · rw [nothingRemote_iff]
    exact bindResults_eq_self_iff e hresults
  · intro path target method args hexposed hremote
    show (e.bindResults _).at? path = _
    rw [at?_bindResults hexposed, bindResults_remoteCall hremote]

/-- The number of items of a filter that only the server knows, which is called on
    the issues and on the first of them. -/
def watchedCount : Expr :=
  localCall "count" [call (some (source "Issue")) { name := "where", remote := true }
    [localCall "take" [source "Issue", ofValue (.int 1)]]]

theorem bindResults_leaves_nothing_remote_watchedCount :
    let results := resultsExpr [.str "A-1"] .any
    let filter : Method := { name := "where", remote := true }
    (watchedCount.bindResults results).NothingRemote ∧ ¬ watchedCount.NothingRemote ∧
      (watchedCount.bindResults results).at? [0] = some (call (some results) filter [results]) := by
  obtain ⟨hnone, -, hsame, hremote⟩ :=
    bindResults_leaves_nothing_remote watchedCount [.str "A-1"] .any
  refine ⟨hnone, ?_, hremote [0] _ _ _ (.child rfl rfl (.here _)) rfl⟩
  intro hnothing
  cases hsame.mpr hnothing

end IssueSearch.Expr
