import IssueSearch.Eval.Standard
import IssueSearch.Expr.Chain
import IssueSearch.Proofs.Emission
import IssueSearch.Proofs.Sequences
import Mathlib.Data.List.Forall2
import Mathlib.Data.List.Induction

/-! # The search of a query chain

    The steps of a query share one draft, and the outermost step is visited
    first.  Yet the search is what the steps contribute one after another:
    filters are joined from left to right, an ordering starts anew or refines
    the one before it, paging is said at most once, and what is applied to the
    results later leaves no trace.

    * `conjunction`, `orderClause`: the two parts of a search text.
    * `Outline`: what the steps so far have contributed, and `Outline.extend`,
      the contribution of one step.
    * `Step.writer`: what one step writes after the chain before it.
    * `Chain.visit_reaches`: writing a chain brings the draft from blank to the
      outline of its steps.
    * `Chain.compile_eq_outline`: hence the search of a chain is the search of
      its outline. -/

namespace IssueSearch

/-! ## The parts of a search text -/

/-- Clauses that all have to hold, joined from left to right. -/
def conjunction : List String → String
  | []             => ""
  | clause :: rest =>
    rest.foldl (fun before next => "(" ++ before ++ " AND " ++ next ++ ")") clause

theorem conjunction_concat {clauses : List String} (h : clauses ≠ []) (clause : String) :
    conjunction (clauses ++ [clause]) = "(" ++ conjunction clauses ++ " AND " ++ clause ++ ")" := by
  cases clauses with
  | nil => exact absurd rfl h
  | cons first rest => simp [conjunction, List.foldl_append]

/-- A key to sort by. -/
structure OrderKey where
  text       : String
  descending : Bool

/-- A key as it stands in an order clause. -/
def OrderKey.words (key : OrderKey) : String :=
  if key.descending then key.text ++ " desc" else key.text

/-- The order clause of keys, the most significant first. -/
def orderClause : List OrderKey → String
  | []          => ""
  | key :: rest =>
    rest.foldl (fun before next => before ++ ", " ++ next.words) (" order by " ++ key.words)

theorem orderClause_concat {keys : List OrderKey} (h : keys ≠ []) (key : OrderKey) :
    orderClause (keys ++ [key]) = orderClause keys ++ ", " ++ key.words := by
  cases keys with
  | nil => exact absurd rfl h
  | cons first rest => simp [orderClause, List.foldl_append]

theorem orderClause_eq_empty_iff {keys : List OrderKey} : orderClause keys = "" ↔ keys = [] := by
  induction keys using List.reverseRecOn with
  | nil => simp [orderClause]
  | append_singleton keys key _ =>
    by_cases hkeys : keys = []
    · simp [hkeys, orderClause]
    · simp [orderClause_concat hkeys]

/-! ## What each step contributes -/

/-- The text of a sort key: a searchable property, or a field named by its
    title. -/
def keyText? (fields : FieldTable) : Expr → Option String
  | .member _ p _ => (fields.get? p).map Field.remoteName
  | .call target method args =>
    if method.remote ∧ method.name = Remote.customField then
      (title? (Expr.operands target args)).map fun title => (titledField title).remoteName
    else none
  | _ => none

namespace Step

/-- The predicate of a filtering step. -/
def predicate? : Step → Option Expr
  | filter p => some p
  | _        => none

/-- The count of a step that says where the results start. -/
def skip? : Step → Option UInt32
  | skip n => some n
  | _      => none

/-- The count of a step that says how many results are wanted. -/
def take? : Step → Option UInt32
  | take n => some n
  | _      => none

/-- The sort keys after a step: an ordering that does not refine the keys so
    far replaces them. -/
def sortKeys (fields : FieldTable) (keys : List OrderKey) : Step → List OrderKey
  | sort step key =>
    let next := { text := (keyText? fields key).getD "", descending := step.isDescending }
    if step.refines then keys ++ [next] else [next]
  | _ => keys

end Step

namespace Chain

/-- The predicates of the filtering steps. -/
def predicates (c : Chain) : List Expr := c.steps.filterMap Step.predicate?

/-- The sort keys that are in force after all steps. -/
def sortKeys (fields : FieldTable) (c : Chain) : List OrderKey :=
  c.steps.foldl (Step.sortKeys fields) []

/-- The counts of the steps that say where the results start. -/
def skips (c : Chain) : List UInt32 := c.steps.filterMap Step.skip?

/-- The counts of the steps that say how many results are wanted. -/
def takes (c : Chain) : List UInt32 := c.steps.filterMap Step.take?

/-- The chain without the steps that are applied to the results. -/
def serverSide (c : Chain) : Chain :=
  { c with steps := c.steps.filter fun s => s.operator.isServerSide }

/-- The predicates of the chain hold no further steps for the server, and its
    sort keys name fields. -/
structure IsPlain (fields : FieldTable) (c : Chain) : Prop where
  predicates : ∀ p, Step.filter p ∈ c.steps → p.HasNoServerStep
  keys       : ∀ step key, Step.sort step key ∈ c.steps → (keyText? fields key).isSome

end Chain

/-- What the steps so far contribute to a search. -/
structure Outline where
  clauses    : List String
  keys       : List OrderKey
  startAt    : Option UInt32
  maxResults : Option UInt32

namespace Outline

/-- The outline before the first step. -/
def blank : Outline := { clauses := [], keys := [], startAt := none, maxResults := none }

/-- The search that an outline amounts to. -/
def search (o : Outline) : Search :=
  { text := conjunction o.clauses ++ orderClause o.keys, startAt := o.startAt,
    maxResults := o.maxResults }

/-- The failure of a paging step that is not the first of its kind. -/
def pagedTwice (op : Operator) : SearchError :=
  .unsupported op.name "may appear at most once per query"

/-- The outline after one more step. -/
def extend (ctx : Context) (o : Outline) : Step → Except SearchError Outline
  | .filter p =>
    (p.compile ctx).map fun s => { o with clauses := o.clauses ++ [s.text] }
  | .skip n =>
    if o.startAt.isSome then .error (pagedTwice .skip) else .ok { o with startAt := some n }
  | .take n =>
    if o.maxResults.isSome then .error (pagedTwice .take) else .ok { o with maxResults := some n }
  | s => .ok { o with keys := s.sortKeys ctx.fields o.keys }

end Outline

/-- The outline of a chain of steps. -/
def outline (ctx : Context) (steps : List Step) : Except SearchError Outline :=
  steps.foldlM (Outline.extend ctx) .blank

theorem outline_concat (ctx : Context) (steps : List Step) (s : Step) :
    outline ctx (steps ++ [s]) = outline ctx steps >>= fun o => o.extend ctx s := by
  simp [outline, List.foldlM_append]

/-! ## Drafts of outlines -/

/-- The draft holds what the outline says, and no text is at hand. -/
structure Draft.Reflects (d : Draft) (o : Outline) : Prop where
  out        : d.out = ""
  filter     : d.filter = if o.clauses.isEmpty then none else some (conjunction o.clauses)
  order      : d.order = orderClause o.keys
  startAt    : d.startAt = o.startAt
  maxResults : d.maxResults = o.maxResults

theorem Draft.Reflects.search_eq {d : Draft} {o : Outline} (h : d.Reflects o) :
    d.search = o.search := by
  have hfilter : d.filter.getD "" = conjunction o.clauses := by
    rw [h.filter]
    cases o.clauses with
    | nil => rfl
    | cons clause rest => rfl
  simp [Draft.search, Outline.search, hfilter, h.out, h.order, h.startAt, h.maxResults]

namespace Writer

/-- `w.Reaches d outcome`: started on `d`, the writer ends with a draft of the
    outline, or fails as the outline does. -/
def Reaches (w : Writer Unit) (d : Draft) : Except SearchError Outline → Prop
  | .ok o          => ∃ d', w d = .ok () d' ∧ d'.Reflects o
  | .error failure => ∃ d', w d = .error failure d'

/-- What comes after a writer continues from the outline it reached. -/
theorem Reaches.bind {w v : Writer Unit} {d : Draft} {outcome : Except SearchError Outline}
    {next : Outline → Except SearchError Outline} (hw : w.Reaches d outcome)
    (hv : ∀ o d', d'.Reflects o → v.Reaches d' (next o)) :
    (do w; v).Reaches d (outcome >>= next) := by
  cases outcome with
  | error failure =>
    obtain ⟨d', hwd⟩ := hw
    exact ⟨d', by rw [bind_apply, hwd]⟩
  | ok o =>
    obtain ⟨d', hwd, hreflects⟩ := hw
    -- the second writer starts where the first one stopped
    have hstep : (do w; v) d = v d' := by rw [bind_apply, hwd]
    have hnext := hv o d' hreflects
    show Reaches _ _ (next o)
    cases hout : next o with
    | error failure =>
      rw [hout] at hnext
      obtain ⟨d'', hvd⟩ := hnext
      exact ⟨d'', hstep.trans hvd⟩
    | ok o' =>
      rw [hout] at hnext
      obtain ⟨d'', hvd, hd''⟩ := hnext
      exact ⟨d'', hstep.trans hvd, hd''⟩

/-- A node reaches what stands inside it reaches from a deeper draft. -/
theorem Reaches.node {w : Writer Unit} {outcome : Except SearchError Outline} {o : Outline}
    (hw : ∀ d : Draft, d.Reflects o → w.Reaches d outcome) (kind : String) {d : Draft}
    (hd : d.Reflects o) : (Writer.node kind w).Reaches d outcome := by
  have hinner := hw { d with depth := d.depth + 1, events := d.events ++ [.enter kind d.depth] }
    ⟨hd.out, hd.filter, hd.order, hd.startAt, hd.maxResults⟩
  cases outcome with
  | error failure =>
    obtain ⟨d', hwd⟩ := hinner
    exact ⟨d', by simp only [Writer.node, bind_apply, modify_apply, hwd]⟩
  | ok o' =>
    obtain ⟨d', hwd, h'⟩ := hinner
    refine ⟨{ d' with depth := d'.depth - 1 }, ?_,
      ⟨h'.out, h'.filter, h'.order, h'.startAt, h'.maxResults⟩⟩
    simp only [Writer.node, bind_apply, modify_apply, hwd]

/-- Text written on a clean sheet leaves the draft as it was, apart from the
    separator and the record. -/
theorem capture_of_emits {w : Writer Unit} {s : Separator} {m : Emission Unit} {d : Draft}
    (h : w.Emits s (.ok m)) (hd : d.separator = s) :
    ∃ events, capture w d =
      .ok m.text { d with separator := m.separator, events := d.events ++ events } := by
  obtain ⟨events, _, hwd⟩ := h { d with out := "" } hd
  refine ⟨events, ?_⟩
  simp only [capture, bind_apply, get_apply, modify_apply, pure_apply, hwd]
  simp [Draft.after]

theorem capture_of_emits_error {w : Writer Unit} {s : Separator} {failure : SearchError}
    {d : Draft} (h : w.Emits s (.error failure)) (hd : d.separator = s) :
    ∃ d', capture w d = .error failure d' := by
  obtain ⟨d', hwd⟩ := h { d with out := "" } hd
  exact ⟨d', by simp [capture, hwd]⟩

end Writer

/-! ## One step -/

section Steps

variable {ctx : Context} {d : Draft} {o : Outline}

/-- The text of a sort key does not depend on the separator. -/
theorem emits_sortKey {key : Expr} {text : String} (h : keyText? ctx.fields key = some text)
    (s : Separator) : (key.operand ctx).visit.Emits s (.ok ⟨(), text, s⟩) := by
  cases key with
  | member target p type =>
    obtain ⟨field, hfield, rfl⟩ : ∃ field, ctx.fields.get? p = some field ∧
        field.remoteName = text := by simpa [keyText?] using h
    exact Expr.emits_field ctx hfield s
  | call target method args =>
    obtain ⟨⟨hremote, hname⟩, title, htitle, rfl⟩ :
        (method.remote = true ∧ method.name = Remote.customField) ∧
          ∃ title, title? (Expr.operands target args) = some title ∧
            (titledField title).remoteName = text := by
      simpa [keyText?] using h
    refine Writer.Emits.node ?_ _
    -- the title is looked for in the trees of the operands
    have hexprs : ((Expr.operands target args).map (Expr.operand ctx)).map Operand.expr =
        Expr.operands target args := by
      rw [List.map_map]
      exact List.map_id'' (fun e => Expr.operand_expr ctx e) _
    simp only [Expr.asConstant?, Writer.call, hremote, hname, if_true, Expr.callOperands_eq,
      hexprs, htitle]
    exact Writer.emits_push _ s
  | _ => simp [keyText?] at h

/-- A clause that is added joins the clauses before it. -/
theorem Draft.Reflects.addFilter (hd : d.Reflects o) (clause : String) :
    ∃ d', Writer.addFilter clause d = .ok () d' ∧
      (d'.events = d.events ∧ d'.separator = d.separator) ∧
      d'.Reflects { o with clauses := o.clauses ++ [clause] } := by
  refine ⟨_, rfl, ⟨rfl, rfl⟩, hd.out, ?_, hd.order, hd.startAt, hd.maxResults⟩
  -- the first clause stands alone, a later one joins those before it
  by_cases hclauses : o.clauses = []
  · simp [hd.filter, hclauses, conjunction]
  · simp [hd.filter, hclauses, conjunction_concat hclauses]

/-- The order clause after one more key, from the clause before it. -/
theorem orderClause_extend (keys : List OrderKey) (refines : Bool) (key : OrderKey) :
    orderClause (if refines then keys ++ [key] else [key]) =
      (if refines && orderClause keys != "" then orderClause keys ++ ", " else " order by ") ++
        key.words := by
  cases refines with
  | false => simp [orderClause]
  | true =>
    by_cases hkeys : keys = []
    · simp [hkeys, orderClause]
    · have hne : orderClause keys ≠ "" := orderClause_eq_empty_iff.not.mpr hkeys
      simp [orderClause_concat hkeys, hne]

/-- A key that is added refines the keys before it, or replaces them. -/
theorem Draft.Reflects.addOrder (hd : d.Reflects o) (refines : Bool) (key : OrderKey) :
    ∃ d', Writer.addOrder refines key.descending key.text d = .ok () d' ∧
      (d'.events = d.events ∧ d'.separator = d.separator) ∧
      d'.Reflects { o with keys := if refines then o.keys ++ [key] else [key] } := by
  refine ⟨_, rfl, ⟨rfl, rfl⟩, hd.out, hd.filter, ?_, hd.startAt, hd.maxResults⟩
  rw [orderClause_extend]
  simp only [OrderKey.words, hd.order]
  split <;> split <;> simp [String.append_assoc]

/-- A filtering step adds the text of its predicate on its own. -/
theorem filter_reaches {p : Expr} (hp : p.HasNoServerStep) (hd : d.Reflects o) :
    (do Writer.resetSeparator; Writer.addFilter (← Writer.capture (p.operand ctx).visit)).Reaches d
      (o.extend ctx (.filter p)) := by
  obtain ⟨outcome, hemits⟩ := Expr.operand_isTextual ctx hp .first
  have hcompile := Expr.compile_of_emits ctx hemits
  cases outcome with
  | error failure =>
    obtain ⟨d', hcapture⟩ :=
      Writer.capture_of_emits_error hemits (rfl : { d with separator := .first }.separator = _)
    rw [Outline.extend, hcompile]
    exact ⟨d', by simp [Writer.resetSeparator, hcapture]⟩
  | ok m =>
    obtain ⟨events, hcapture⟩ :=
      Writer.capture_of_emits hemits (rfl : { d with separator := .first }.separator = _)
    rw [Outline.extend, hcompile]
    -- the draft after the predicate still holds what the chain before it says
    have hafter : Draft.Reflects
        { d with separator := m.separator, events := d.events ++ events } o :=
      ⟨hd.out, hd.filter, hd.order, hd.startAt, hd.maxResults⟩
    obtain ⟨d', hadd, _, hd'⟩ := hafter.addFilter m.text
    exact ⟨d', by simpa [Writer.resetSeparator, hcapture] using hadd, hd'⟩

/-- An ordering step replaces or refines the keys so far. -/
theorem sort_reaches {step : SortStep} {key : Expr} (hkey : (keyText? ctx.fields key).isSome)
    (hd : d.Reflects o) :
    (do Writer.addOrder step.refines step.isDescending
          (← Writer.capture (key.operand ctx).visit)).Reaches d
      (o.extend ctx (.sort step key)) := by
  obtain ⟨text, htext⟩ := Option.isSome_iff_exists.mp hkey
  obtain ⟨events, hcapture⟩ := Writer.capture_of_emits (emits_sortKey htext d.separator) rfl
  have hafter : Draft.Reflects
      { d with separator := d.separator, events := d.events ++ events } o :=
    ⟨hd.out, hd.filter, hd.order, hd.startAt, hd.maxResults⟩
  obtain ⟨d', hadd, _, hd'⟩ := hafter.addOrder step.refines ⟨text, step.isDescending⟩
  refine ⟨d', ?_, ?_⟩
  · simp only [Writer.bind_apply, hcapture]
    exact hadd
  · simpa only [Step.sortKeys, htext, Option.getD_some] using hd'

/-- The count of a paging step is read back as it was given. -/
theorem pageCount_countExpr (ctx : Context) (name : String) (n : UInt32) :
    Writer.pageCount name [(Step.countExpr n).operand ctx] = pure n := by
  have hlt : n.toNat < 4294967296 := n.toNat_lt
  have hint : (Int64.ofInt n.toNat).toInt = n.toNat :=
    Int64.toInt_ofInt_of_le (by omega) (by omega)
  have hcount : Number.count? (Int64.ofInt n.toNat).toInt = some n := by
    rw [hint, Number.count?, if_pos (by omega)]
    simp
  have hread : Writer.count? ((Step.countExpr n).operand ctx) = some n := by
    simp only [Writer.count?, Operand.value?, Expr.operand_expr, Step.countExpr, Expr.asConstant?,
      Option.map_some, hcount]
  simp only [Writer.pageCount, List.head?_cons, Option.bind_some, hread]

/-- A paging step says its count after the chain before it is written. -/
theorem pagingStep_countExpr (ctx : Context) (before : Expr) (name : String) (slot : PageSlot)
    (n : UInt32) :
    Writer.pagingStep name slot [before.operand ctx, (Step.countExpr n).operand ctx] = (do
      (before.operand ctx).visit
      Writer.setCount name slot n) := by
  simp only [Writer.pagingStep, Writer.receiver, pure_bind, pageCount_countExpr]

/-- A paging step of a kind may stand in a query once. -/
theorem setCount_reaches {op : Operator} (slot : PageSlot) {n : UInt32} {next : Outline}
    (hnext : (d.withCount n slot).Reflects next) :
    (Writer.setCount op.name slot n).Reaches d
      (if (d.count? slot).isSome then .error (Outline.pagedTwice op) else .ok next) := by
  cases hcount : d.count? slot with
  | some m => exact ⟨d, Writer.setCount_of_some hcount⟩
  | none => exact ⟨_, Writer.setCount_of_none hcount, hnext⟩

/-- What a step writes after the chain before it. -/
def Step.writer (ctx : Context) : Step → Writer Unit
  | filter p => do
    Writer.resetSeparator
    Writer.addFilter (← Writer.capture (p.operand ctx).visit)
  | sort step key => do
    Writer.addOrder step.refines step.isDescending (← Writer.capture (key.operand ctx).visit)
  | skip n => Writer.setCount (Operator.name .skip) .startAt n
  | take n => Writer.setCount (Operator.name .take) .maxResults n
  | _ => pure ()

/-- A step is a node inside which the chain before it is written first. -/
theorem Step.visit_extend (ctx : Context) (entity : String) (before : Expr) (s : Step) :
    ((s.extend entity before).operand ctx).visit =
      Writer.node (s.extend entity before).kind (do
        (before.operand ctx).visit
        s.writer ctx) := by
  -- the call is the step's operator, applied to the chain before it
  show Writer.node _ (Writer.call { name := s.operator.name, remote := false } false
    (before.operand ctx :: Expr.argOperands ctx (s.args entity))) = _
  simp only [Writer.call, Bool.false_eq_true, if_false, Role.ofName_operator]
  refine congrArg _ ?_
  cases s with
  | filter p => rfl
  | sort step key => rfl
  | skip n => exact pagingStep_countExpr ctx _ _ .startAt n
  | take n => exact pagingStep_countExpr ctx _ _ .maxResults n
  | select projection | distinct | count | any | first | firstOrDefault | toList =>
    exact (bind_pure_unit (x := (before.operand ctx).visit)).symm

/-- What a step writes extends the outline of the chain before it. -/
theorem Step.writer_reaches {s : Step} (hpredicate : ∀ p, s = .filter p → p.HasNoServerStep)
    (hkey : ∀ step key, s = .sort step key → (keyText? ctx.fields key).isSome)
    (hd : d.Reflects o) : (s.writer ctx).Reaches d (o.extend ctx s) := by
  cases s with
  | filter p => exact filter_reaches (hpredicate p rfl) hd
  | sort step key => exact sort_reaches (hkey step key rfl) hd
  | skip n =>
    rw [Outline.extend, ← hd.startAt]
    exact setCount_reaches .startAt ⟨hd.out, hd.filter, hd.order, rfl, hd.maxResults⟩
  | take n =>
    rw [Outline.extend, ← hd.maxResults]
    exact setCount_reaches .maxResults ⟨hd.out, hd.filter, hd.order, hd.startAt, rfl⟩
  | select projection | distinct | count | any | first | firstOrDefault | toList =>
    exact ⟨d, rfl, hd⟩

/-- **One step**: written after a chain, a step extends the outline of the
    chain. -/
theorem Step.reaches (entity : String) {before : Expr} {s : Step}
    {outcome : Except SearchError Outline}
    (hpredicate : ∀ p, s = .filter p → p.HasNoServerStep)
    (hkey : ∀ step key, s = .sort step key → (keyText? ctx.fields key).isSome)
    (hbefore : ∀ d : Draft, d.Reflects .blank →
      (before.operand ctx).visit.Reaches d outcome)
    (hd : d.Reflects .blank) :
    ((s.extend entity before).operand ctx).visit.Reaches d
      (outcome >>= fun o => o.extend ctx s) := by
  rw [visit_extend]
  refine Writer.Reaches.node (fun d hd => ?_) _ hd
  exact (hbefore d hd).bind fun o d' hd' => writer_reaches hpredicate hkey hd'

end Steps

/-! ## Whole chains -/

namespace Chain

/-- **Whole chains**: writing a chain brings the draft from blank to the outline
    of its steps. -/
theorem visit_reaches (ctx : Context) {c : Chain} (hc : c.IsPlain ctx.fields) {d : Draft}
    (hd : d.Reflects .blank) :
    (c.toExpr.operand ctx).visit.Reaches d (outline ctx c.steps) := by
  obtain ⟨entity, steps⟩ := c
  -- the tree of a chain grows by its last step, so the induction adds steps there
  induction steps using List.reverseRecOn generalizing d with
  | nil =>
    refine Writer.Reaches.node (fun d hd => ?_) _ hd
    exact ⟨d, rfl, hd⟩
  | append_singleton steps s ih =>
    have hsteps : IsPlain ctx.fields { entity := entity, steps := steps } :=
      ⟨fun p hp => hc.predicates p (List.mem_append_left _ hp),
       fun step key hk => hc.keys step key (List.mem_append_left _ hk)⟩
    have htree : toExpr { entity := entity, steps := steps ++ [s] } =
        s.extend entity (toExpr { entity := entity, steps := steps }) := by
      simp [toExpr, extendAll, List.foldl_append]
    rw [htree, outline_concat]
    refine Step.reaches entity ?_ ?_ (fun d hd => ih hd hsteps) hd
    · rintro p rfl
      exact hc.predicates p (by simp)
    · rintro step key rfl
      exact hc.keys step key (by simp)

/-- The search of a chain is the search of the outline of its steps. -/
theorem compile_eq_outline (ctx : Context) {c : Chain} (hc : c.IsPlain ctx.fields) :
    c.toExpr.compile ctx = (outline ctx c.steps).map Outline.search := by
  have hblank : Draft.Reflects .blank .blank := ⟨rfl, rfl, rfl, rfl, rfl⟩
  have hreaches := visit_reaches ctx hc hblank
  cases hout : outline ctx c.steps with
  | error failure =>
    rw [hout] at hreaches
    obtain ⟨d, hvisit⟩ := hreaches
    rw [Expr.compile_of_visit_error ctx hvisit]
    rfl
  | ok o =>
    rw [hout] at hreaches
    obtain ⟨d, hvisit, hd⟩ := hreaches
    rw [Expr.compile_of_visit_ok ctx hvisit, hd.search_eq]
    rfl

end Chain

/-! ## What an outline says about its chain -/

/-- The predicate has the given text when it is compiled on its own. -/
def CompilesTo (ctx : Context) (p : Expr) (clause : String) : Prop :=
  (p.compile ctx).map Search.text = .ok clause

theorem compilesTo_of_compile {ctx : Context} {p : Expr} {search : Search}
    (h : p.compile ctx = .ok search) : CompilesTo ctx p search.text := by
  rw [CompilesTo, h]
  rfl

theorem exists_compile_of_compilesTo {ctx : Context} {p : Expr} {clause : String}
    (h : CompilesTo ctx p clause) : ∃ search, p.compile ctx = .ok search := by
  rw [CompilesTo] at h
  cases hp : p.compile ctx with
  | error failure => simp [hp, Except.map] at h
  | ok search => exact ⟨search, rfl⟩

/-- The outline says what the chain asks for: the text of each predicate on its
    own, the sort keys in force, and the paging, which is said at most once. -/
structure Outline.Describes (ctx : Context) (o : Outline) (c : Chain) : Prop where
  clauses : List.Forall₂ (CompilesTo ctx) c.predicates o.clauses
  keys    : o.keys = c.sortKeys ctx.fields
  skips   : c.skips = o.startAt.toList
  takes   : c.takes = o.maxResults.toList

/-- The chain with one more step. -/
def Chain.concat (c : Chain) (s : Step) : Chain :=
  { c with steps := c.steps ++ [s] }

/-- **Induction over the steps**: what holds of queries without steps, and
    passes to a query with one more step, holds of every query. -/
theorem Chain.induction_on_steps {P : Chain → Prop}
    (nil : ∀ entity, P { entity := entity, steps := [] })
    (concat : ∀ c s, P c → P (c.concat s)) (c : Chain) : P c := by
  obtain ⟨entity, steps⟩ := c
  induction steps using List.reverseRecOn with
  | nil => exact nil entity
  | append_singleton steps s ih => exact concat { entity := entity, steps := steps } s ih

theorem Chain.toExpr_concat (c : Chain) (s : Step) :
    (c.concat s).toExpr = s.extend c.entity c.toExpr := by
  simp [concat, toExpr, extendAll, List.foldl_append]

theorem Chain.mem_steps_concat {c : Chain} {s t : Step} :
    t ∈ (c.concat s).steps ↔ t ∈ c.steps ∨ t = s := by
  simp [concat]

/-- What a last step adds to what is gathered from all steps. -/
theorem filterMap_concat {α β : Type} (f : α → Option β) (xs : List α) (x : α) :
    (xs ++ [x]).filterMap f = xs.filterMap f ++ (f x).toList := by
  rw [List.filterMap_append, List.filterMap_cons]
  cases f x <;> rfl

section Describing

variable {ctx : Context} {o o' : Outline} {c : Chain} {s : Step}

@[simp] theorem Chain.predicates_concat :
    (c.concat s).predicates = c.predicates ++ s.predicate?.toList :=
  filterMap_concat _ _ _

@[simp] theorem Chain.skips_concat : (c.concat s).skips = c.skips ++ s.skip?.toList :=
  filterMap_concat _ _ _

@[simp] theorem Chain.takes_concat : (c.concat s).takes = c.takes ++ s.take?.toList :=
  filterMap_concat _ _ _

@[simp] theorem Chain.sortKeys_concat (fields : FieldTable) :
    (c.concat s).sortKeys fields = s.sortKeys fields (c.sortKeys fields) := by
  simp [concat, sortKeys, List.foldl_append]

/-- What a step adds to the outline, if it adds anything at all. -/
theorem Outline.extend_eq_ok (hs : o.extend ctx s = .ok o') :
    (∃ clauses, List.Forall₂ (CompilesTo ctx) s.predicate?.toList clauses ∧
      o'.clauses = o.clauses ++ clauses) ∧
    o'.keys = s.sortKeys ctx.fields o.keys ∧
    o'.startAt.toList = o.startAt.toList ++ s.skip?.toList ∧
    o'.maxResults.toList = o.maxResults.toList ++ s.take?.toList := by
  cases s with
  | filter p =>
    cases hp : p.compile ctx with
    | error failure => simp [Outline.extend, hp, Except.map] at hs
    | ok search =>
      obtain rfl : { o with clauses := o.clauses ++ [search.text] } = o' := by
        simpa [Outline.extend, hp, Except.map] using hs
      have hclause : CompilesTo ctx p search.text := compilesTo_of_compile hp
      refine ⟨⟨[search.text], .cons hclause .nil, rfl⟩, ?_⟩
      simp [Step.sortKeys, Step.skip?, Step.take?]
  | skip n =>
    -- a second count is refused, so the slot was empty
    cases hstart : o.startAt with
    | some m => simp [Outline.extend, hstart] at hs
    | none =>
      obtain rfl : { o with startAt := some n } = o' := by
        simpa [Outline.extend, hstart] using hs
      simp [Step.predicate?, Step.sortKeys, Step.skip?, Step.take?]
  | take n =>
    cases hmax : o.maxResults with
    | some m => simp [Outline.extend, hmax] at hs
    | none =>
      obtain rfl : { o with maxResults := some n } = o' := by
        simpa [Outline.extend, hmax] using hs
      simp [Step.predicate?, Step.sortKeys, Step.skip?, Step.take?]
  | sort step key =>
    obtain rfl : { o with keys := Step.sortKeys ctx.fields o.keys (.sort step key) } = o' := by
      simpa [Outline.extend] using hs
    simp [Step.predicate?, Step.skip?, Step.take?]
  | select projection | distinct | count | any | first | firstOrDefault | toList =>
    obtain rfl : o = o' := by simpa [Outline.extend, Step.sortKeys] using hs
    simp [Step.predicate?, Step.sortKeys, Step.skip?, Step.take?]

/-- The outline after a step describes the chain with that step. -/
theorem Outline.Describes.concat (h : o.Describes ctx c) (hs : o.extend ctx s = .ok o') :
    o'.Describes ctx (c.concat s) := by
  obtain ⟨⟨clauses, hclauses, hall⟩, hkeys, hskip, htake⟩ := extend_eq_ok hs
  refine ⟨?_, ?_, ?_, ?_⟩
  · rw [Chain.predicates_concat, hall]
    exact List.rel_append h.clauses hclauses
  · rw [hkeys, h.keys, Chain.sortKeys_concat]
  · rw [Chain.skips_concat, hskip, h.skips]
  · rw [Chain.takes_concat, htake, h.takes]

/-- A step has an outline if its predicate compiles and it does not say the
    paging again. -/
theorem Outline.exists_extend (h : o.Describes ctx c)
    (hp : ∀ p ∈ (c.concat s).predicates, ∃ search, p.compile ctx = .ok search)
    (hskips : (c.concat s).skips.length ≤ 1) (htakes : (c.concat s).takes.length ≤ 1) :
    ∃ o', o.extend ctx s = .ok o' := by
  cases s with
  | filter p =>
    obtain ⟨search, hsearch⟩ := hp p (by simp [Step.predicate?])
    exact ⟨_, by rw [Outline.extend, hsearch]; rfl⟩
  | skip n =>
    have hnone : o.startAt = none := by
      simpa [h.skips, Step.skip?] using hskips
    exact ⟨_, by rw [Outline.extend, hnone]; rfl⟩
  | take n =>
    have hnone : o.maxResults = none := by
      simpa [h.takes, Step.take?] using htakes
    exact ⟨_, by rw [Outline.extend, hnone]; rfl⟩
  | sort step key => exact ⟨_, rfl⟩
  | select projection | distinct | count | any | first | firstOrDefault | toList => exact ⟨_, rfl⟩

end Describing

namespace Chain

variable {ctx : Context} {c : Chain}

/-- The outline of the steps describes the chain. -/
theorem outline_describes {o : Outline} (h : outline ctx c.steps = .ok o) : o.Describes ctx c := by
  obtain ⟨entity, steps⟩ := c
  induction steps using List.reverseRecOn generalizing o with
  | nil =>
    obtain rfl : Outline.blank = o := by simpa [outline, pure, Except.pure] using h
    exact ⟨.nil, rfl, rfl, rfl⟩
  | append_singleton steps s ih =>
    rw [outline_concat] at h
    obtain ⟨before, hbefore, hs⟩ := bind_eq_ok.mp h
    exact (ih hbefore).concat hs

/-- A chain whose predicates compile and which says the paging at most once has
    an outline. -/
theorem exists_outline (hp : ∀ p ∈ c.predicates, ∃ search, p.compile ctx = .ok search)
    (hskips : c.skips.length ≤ 1) (htakes : c.takes.length ≤ 1) :
    ∃ o, outline ctx c.steps = .ok o := by
  obtain ⟨entity, steps⟩ := c
  induction steps using List.reverseRecOn with
  | nil => exact ⟨.blank, rfl⟩
  | append_singleton steps s ih =>
    -- a part of the chain asks for no more than the whole
    let before : Chain := { entity := entity, steps := steps }
    have hwhole : (⟨entity, steps ++ [s]⟩ : Chain) = before.concat s := rfl
    rw [hwhole] at hp hskips htakes
    obtain ⟨o, ho⟩ := ih
      (fun p hmem => hp p (by rw [predicates_concat]; exact List.mem_append_left _ hmem))
      (by rw [skips_concat, List.length_append] at hskips; exact Nat.le_of_add_right_le hskips)
      (by rw [takes_concat, List.length_append] at htakes; exact Nat.le_of_add_right_le htakes)
    obtain ⟨o', ho'⟩ := Outline.exists_extend (outline_describes (c := before) ho) hp hskips htakes
    exact ⟨o', by rw [outline_concat, ho]; exact ho'⟩

/-- Steps that are applied to the results leave the outline as it is. -/
theorem outline_serverSide (ctx : Context) (c : Chain) :
    outline ctx c.serverSide.steps = outline ctx c.steps := by
  have hsame : ∀ (o : Outline) (s : Step), s.operator.isServerSide = false →
      o.extend ctx s = .ok o := by
    intro o s hs
    cases s with
    | filter _ | sort _ _ | skip _ | take _ => simp [Step.operator, Operator.isServerSide] at hs
    | select _ | distinct | count | any | first | firstOrDefault | toList => rfl
  have hfold : ∀ (steps : List Step) (o : Outline),
      (steps.filter fun s => s.operator.isServerSide).foldlM (Outline.extend ctx) o =
        steps.foldlM (Outline.extend ctx) o := by
    intro steps
    induction steps with
    | nil => exact fun o => rfl
    | cons s rest ih =>
      intro o
      cases hs : s.operator.isServerSide with
      | true => simp [hs, ih]
      | false =>
        rw [List.filter_cons_of_neg (by simp [hs]), ih, List.foldlM_cons, hsame o s hs]
        rfl
  exact hfold c.steps .blank

theorem IsPlain.serverSide {fields : FieldTable} (h : c.IsPlain fields) :
    c.serverSide.IsPlain fields :=
  ⟨fun p hp => h.predicates p (List.mem_of_mem_filter hp),
   fun step key hk => h.keys step key (List.mem_of_mem_filter hk)⟩

theorem compile_toExpr_eq_ok (hc : c.IsPlain ctx.fields) {search : Search} :
    c.toExpr.compile ctx = .ok search ↔
      ∃ o, outline ctx c.steps = .ok o ∧ o.search = search := by
  rw [compile_eq_outline ctx hc]
  cases outline ctx c.steps <;> simp [Except.map]

/-- **The search of a chain, step by step**: it exists exactly when every
    predicate compiles on its own and each kind of paging is said at most once.
    Its text joins the texts of the predicates in order and ends with the order
    clause of the keys in force, its paging is what the chain says, and steps
    that are applied to the results contribute nothing. -/
theorem compile_toExpr (ctx : Context) (c : Chain) (hc : c.IsPlain ctx.fields) :
    ((∃ search, c.toExpr.compile ctx = .ok search) ↔
      (∀ p ∈ c.predicates, ∃ search, p.compile ctx = .ok search) ∧
        c.skips.length ≤ 1 ∧ c.takes.length ≤ 1) ∧
    (∀ search, c.toExpr.compile ctx = .ok search →
      ∃ clauses, List.Forall₂ (CompilesTo ctx) c.predicates clauses ∧
        search =
          { text       := conjunction clauses ++ orderClause (c.sortKeys ctx.fields)
            startAt    := c.skips.head?
            maxResults := c.takes.head? }) ∧
    c.serverSide.toExpr.compile ctx = c.toExpr.compile ctx := by
  refine ⟨⟨?_, ?_⟩, ?_, ?_⟩
  · rintro ⟨search, hsearch⟩
    obtain ⟨o, ho, _⟩ := (compile_toExpr_eq_ok hc).mp hsearch
    have hdescribes := outline_describes ho
    refine ⟨fun p hp => ?_, ?_, ?_⟩
    · obtain ⟨clause, _, hclause⟩ := exists_of_mem_of_forall₂ hdescribes.clauses hp
      exact exists_compile_of_compilesTo hclause
    · rw [hdescribes.skips]
      exact Option.length_toList_le
    · rw [hdescribes.takes]
      exact Option.length_toList_le
  · rintro ⟨hp, hskips, htakes⟩
    obtain ⟨o, ho⟩ := exists_outline hp hskips htakes
    exact ⟨o.search, (compile_toExpr_eq_ok hc).mpr ⟨o, ho, rfl⟩⟩
  · intro search hsearch
    obtain ⟨o, ho, rfl⟩ := (compile_toExpr_eq_ok hc).mp hsearch
    have hdescribes := outline_describes ho
    refine ⟨o.clauses, hdescribes.clauses, ?_⟩
    simp [Outline.search, hdescribes.keys, hdescribes.skips, hdescribes.takes]
  · rw [compile_eq_outline ctx hc, compile_eq_outline ctx hc.serverSide, outline_serverSide]

/-- A context with two searchable fields. -/
def votingContext : Context :=
  { fields := .ofList
      [({ owner := "Issue", name := "Status" },
          { remoteName := "status", abilities := .ofList [], type := .string }),
       ({ owner := "Issue", name := "Votes" },
          { remoteName := "votes", abilities := .ofList [], type := .int32 })]
    library := .standard
    options := .usual }

/-- One item of the query below. -/
def votedItem : Expr := .parameter (itemParam "Issue")

/-- A query with every kind of step for the server, and two steps for later
    between them. -/
def votedIssues : Chain :=
  { entity := "Issue"
    steps :=
      [.filter (.binary .equal (votedItem.field "Status") (.ofValue (.str "Open"))),
       .skip 20,
       .sort .orderBy (votedItem.field "Votes"),
       .distinct,
       .filter (.binary .greaterThan (votedItem.field "Votes") (.ofValue (.int 3))),
       .sort .thenByDescending (votedItem.customField "Team"),
       .take 10,
       .select (votedItem.field "Status")] }

theorem compile_toExpr_votedIssues :
    votedIssues.IsPlain votingContext.fields ∧
    votedIssues.toExpr.compile votingContext = .ok
      { text       := "(status = \"Open\" AND votes > 3) order by votes, \"Team\" desc"
        startAt    := some 20
        maxResults := some 10 } ∧
    ∃ clauses, List.Forall₂ (CompilesTo votingContext) votedIssues.predicates clauses ∧
      "(status = \"Open\" AND votes > 3) order by votes, \"Team\" desc" =
        conjunction clauses ++ orderClause (votedIssues.sortKeys votingContext.fields) := by
  have hplain : votedIssues.IsPlain votingContext.fields := by
    constructor
    · simp [votedIssues, votedItem, Expr.field, Expr.typedField, Expr.ofValue]
    · intro step key hmem
      obtain ⟨rfl, rfl⟩ | ⟨rfl, rfl⟩ :
          (step = .orderBy ∧ key = votedItem.field "Votes") ∨
            (step = .thenByDescending ∧ key = votedItem.customField "Team") := by
        simpa [votedIssues] using hmem
      · rfl
      · rfl
  obtain ⟨clauses, hclauses, hsearch⟩ := (compile_toExpr votingContext votedIssues hplain).2.1 _ rfl
  exact ⟨hplain, rfl, clauses, hclauses, congrArg Search.text hsearch⟩

end Chain

end IssueSearch
