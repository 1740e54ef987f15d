import IssueSearch.Proofs.Chains
import IssueSearch.Proofs.Congruence
import IssueSearch.Proofs.Scopes

/-! # What the paging of a search means

    The search of a query says which of its results are wanted: where they
    start, and how many.  Where in the query this was said is lost.  So it means
    what the query means only if filters come first, then the start, and then
    the number of results.

    * `Writer.KeepsPaging`: writing a tree without paging leaves the paging of
      the draft alone.
    * `Chain.visit_pages`: writing a query fills in the counts of its paging
      steps.
    * `Step.onList`, `extendAll_eval`: what filters and paging do to a list.
    * `Chain.eval_eq_page`: the value of a query on a list is the page that its
      search asks for. -/

namespace IssueSearch

/-! ## Drafts whose paging is kept -/

namespace Writer

/-- Whenever the writer succeeds, the paging is as before. -/
def KeepsPaging {α : Type} (w : Writer α) : Prop :=
  ∀ d a f, w d = .ok a f → f.startAt = d.startAt ∧ f.maxResults = d.maxResults

section KeepsPaging

variable {α β : Type}

theorem keepsPaging_modify {change : Draft → Draft}
    (h : ∀ d, (change d).startAt = d.startAt ∧ (change d).maxResults = d.maxResults) :
    (modify change : Writer Unit).KeepsPaging := by
  intro d a f hf
  cases hf
  exact h d

theorem KeepsPaging.bind {w : Writer α} {k : α → Writer β} (hw : w.KeepsPaging)
    (hk : ∀ a, (k a).KeepsPaging) : (w >>= k).KeepsPaging := by
  intro d b f hf
  obtain ⟨a, d', hd, hf⟩ := ok_of_bind hf
  obtain ⟨hstart, hmax⟩ := hw d a d' hd
  obtain ⟨hstart', hmax'⟩ := hk a d' b f hf
  exact ⟨hstart'.trans hstart, hmax'.trans hmax⟩

theorem keepsPaging_get : (get : Writer Draft).KeepsPaging := by
  intro d a f hf
  cases hf
  exact ⟨rfl, rfl⟩

theorem keepsPaging_pure (a : α) : (pure a : Writer α).KeepsPaging := by
  intro d b f hf
  cases hf
  exact ⟨rfl, rfl⟩

/-- Every writer without paging keeps the paging. -/
theorem keepsPaging_congruence :
    Congruence fun {α} (w w' : Writer α) => w = w' ∧ w.KeepsPaging where
  pure a := ⟨rfl, keepsPaging_pure a⟩
  throw failure := ⟨rfl, fun d a f hf => by cases hf⟩
  bind := by
    rintro α β w w' k k' ⟨rfl, hw⟩ hk
    obtain rfl : k = k' := funext fun a => (hk a).1
    exact ⟨rfl, hw.bind fun a => (hk a).2⟩
  push fragment := by
    refine ⟨rfl, keepsPaging_modify fun d => ?_⟩
    split <;> exact ⟨rfl, rfl⟩
  setSeparator s := ⟨rfl, keepsPaging_modify fun d => ⟨rfl, rfl⟩⟩
  nextSeparator := by
    refine ⟨rfl, fun d a f hf => ?_⟩
    cases hf
    exact ⟨rfl, rfl⟩
  node kind := by
    rintro w w' ⟨rfl, hw⟩
    exact ⟨rfl, KeepsPaging.bind (keepsPaging_modify (by simp)) fun _ => hw.bind fun _ =>
      keepsPaging_modify (by simp)⟩
  capture := by
    rintro w w' ⟨rfl, hw⟩
    exact ⟨rfl, keepsPaging_get.bind fun _ => KeepsPaging.bind (keepsPaging_modify (by simp))
      fun _ => hw.bind fun _ => keepsPaging_get.bind fun _ =>
        KeepsPaging.bind (keepsPaging_modify (by simp)) fun _ => keepsPaging_pure _⟩
  addFilter clause := ⟨rfl, keepsPaging_modify fun d => ⟨rfl, rfl⟩⟩
  addOrder refines descending key := ⟨rfl, keepsPaging_modify fun d => ⟨rfl, rfl⟩⟩

end KeepsPaging

/-- Whenever the writer succeeds, it has filled in the given counts.  A count
    that was there before stays, so there is at most one of a kind. -/
def Pages (w : Writer Unit) (skips takes : List UInt32) : Prop :=
  ∀ d f, w d = .ok () f → f.startAt.toList = d.startAt.toList ++ skips ∧
    f.maxResults.toList = d.maxResults.toList ++ takes

section Pages

variable {v w : Writer Unit} {skips skips' takes takes' : List UInt32}

theorem KeepsPaging.pages (h : w.KeepsPaging) : w.Pages [] [] := by
  intro d f hf
  obtain ⟨hstart, hmax⟩ := h d () f hf
  rw [hstart, hmax, List.append_nil, List.append_nil]
  exact ⟨rfl, rfl⟩

theorem Pages.bind (hv : v.Pages skips takes) (hw : w.Pages skips' takes') :
    (do v; w).Pages (skips ++ skips') (takes ++ takes') := by
  intro d f hf
  obtain ⟨_, d', hd, hf⟩ := ok_of_bind hf
  obtain ⟨hstart, hmax⟩ := hv d d' hd
  obtain ⟨hstart', hmax'⟩ := hw d' f hf
  rw [hstart', hmax', hstart, hmax, List.append_assoc, List.append_assoc]
  exact ⟨rfl, rfl⟩

theorem Pages.node (h : w.Pages skips takes) (kind : String) :
    (Writer.node kind w).Pages skips takes := by
  intro d f hf
  obtain ⟨d', hd, rfl⟩ := ok_of_node hf
  have hpages := h _ d' hd
  exact hpages

end Pages

end Writer

/-! ## The paging of a query -/

section Steps

variable {ctx : Context}

theorem Expr.visit_keepsPaging (ctx : Context) {e : Expr} (h : e.HasNoPaging) :
    (e.operand ctx).visit.KeepsPaging ∧ (e.operand ctx).visitBody.KeepsPaging :=
  have hrelated := e.visit_related Writer.keepsPaging_congruence ctx h
  ⟨hrelated.visit.2, hrelated.visitBody.2⟩

/-- What a step writes fills in its count. -/
theorem Step.writer_pages (entity : String) {s : Step}
    (hargs : ∀ a ∈ s.args entity, a.HasNoPaging) :
    (s.writer ctx).Pages s.skip?.toList s.take?.toList := by
  have hR := Writer.keepsPaging_congruence
  cases s with
  | filter p =>
    have hbody := (Expr.visit_keepsPaging ctx (hargs (itemLambda entity p) (by simp [args]))).2
    have hclause := hR.bind (hR.setSeparator .first) fun _ =>
      hR.bind (hR.capture ⟨rfl, hbody⟩) fun clause => hR.addFilter clause
    exact hclause.2.pages
  | sort step key =>
    have hbody := (Expr.visit_keepsPaging ctx (hargs (itemLambda entity key) (by simp [args]))).2
    have hkey := hR.bind (hR.capture ⟨rfl, hbody⟩) fun key =>
      hR.addOrder step.refines step.isDescending key
    exact hkey.2.pages
  | skip n =>
    -- a count is filled in where there is none
    intro d f hf
    obtain ⟨hnone, rfl⟩ := Writer.ok_of_setCount hf
    have hstart : d.startAt = none := hnone
    simp [Draft.withCount, hstart, skip?, take?]
  | take n =>
    intro d f hf
    obtain ⟨hnone, rfl⟩ := Writer.ok_of_setCount hf
    have hmax : d.maxResults = none := hnone
    simp [Draft.withCount, hmax, skip?, take?]
  | select projection | distinct | count | any | first | firstOrDefault | toList =>
    -- a step on the results writes nothing but what it is applied to
    exact (hR.pure ()).2.pages

/-- **One step**: written after a chain, a step fills in its count. -/
theorem Step.extend_pages (entity : String) {before : Expr} {s : Step} {skips takes : List UInt32}
    (hargs : ∀ a ∈ s.args entity, a.HasNoPaging)
    (hbefore : (before.operand ctx).visit.Pages skips takes) :
    ((s.extend entity before).operand ctx).visit.Pages (skips ++ s.skip?.toList)
      (takes ++ s.take?.toList) := by
  rw [visit_extend]
  exact (hbefore.bind (writer_pages entity hargs)).node _

end Steps

namespace Chain

variable {ctx : Context} {c : Chain}

/-- **Whole queries**: writing a query fills in the counts of its paging
    steps. -/
theorem visit_pages (ctx : Context) (c : Chain)
    (h : ∀ s ∈ c.steps, ∀ a ∈ s.args c.entity, a.HasNoPaging) :
    (c.toExpr.operand ctx).visit.Pages c.skips c.takes := by
  induction c using induction_on_steps with
  | nil entity =>
    refine Writer.Pages.node ?_ _
    exact (Writer.keepsPaging_pure ()).pages
  | concat c s ih =>
    rw [toExpr_concat, skips_concat, takes_concat]
    have hbefore := ih fun t ht => h t (mem_steps_concat.mpr (Or.inl ht))
    exact Step.extend_pages c.entity (h s (mem_steps_concat.mpr (Or.inr rfl))) hbefore

/-- The paging of the search of a query is what its paging steps say. -/
theorem paging_of_compile (h : ∀ s ∈ c.steps, ∀ a ∈ s.args c.entity, a.HasNoPaging)
    {search : Search} (hcompile : c.toExpr.compile ctx = .ok search) :
    search.startAt.toList = c.skips ∧ search.maxResults.toList = c.takes := by
  obtain ⟨d, hvisit, rfl⟩ := Expr.visit_of_compile ctx hcompile
  exact visit_pages ctx c h .blank d hvisit

end Chain

/-! ## The value of a query -/

/-- Is the outcome that of a predicate that holds? -/
def yieldsTrue : Except EvalError Value → Bool
  | .ok (.bool b) => b
  | _             => false

/-- Items that were kept are those on which the predicate holds. -/
theorem keep_eq_filter {operation : String} {predicate : ItemFunction} {items kept : List Value}
    (h : Sequence.keep operation predicate items = .ok kept) :
    kept = items.filter fun item => yieldsTrue (predicate item) := by
  induction items generalizing kept with
  | nil =>
    cases h
    rfl
  | cons item rest ih =>
    obtain ⟨b, hb, h⟩ := bind_eq_ok.mp h
    obtain ⟨others, hothers, h⟩ := bind_eq_ok.mp h
    cases h
    -- the predicate gave a truth value
    have hitem : yieldsTrue (predicate item) = b := by
      obtain ⟨v, hv, hb⟩ := bind_eq_ok.mp hb
      rw [hv]
      cases v with
      | bool b' =>
        cases hb
        rfl
      | _ => cases hb
    rw [List.filter_cons, hitem, ← ih hothers]

/-- Does the predicate hold of an item of the entity? -/
def Expr.accepts (lib : Library) (entity : String) (p : Expr) (item : Value) : Bool :=
  yieldsTrue (p.evalIn lib [((itemParam entity).name, item)])

namespace Step

/-- Is it a filter or a paging step? -/
def isPageStep : Step → Bool
  | filter _ | skip _ | take _ => true
  | _ => false

/-- What a filter or a paging step makes of a list. -/
def onList (lib : Library) (entity : String) (items : List Value) : Step → List Value
  | filter p => items.filter (p.accepts lib entity)
  | skip n   => items.drop n.toNat
  | take n   => items.take n.toNat
  | _        => items

variable {lib : Library}

/-- The count of a paging step has the value that was given. -/
theorem pageCount_eval (op : Operator) (n : UInt32) (scope : Scope) :
    Meaning.pageCount op (some ((countExpr n).meaning lib)) scope = .ok n.toNat := by
  have hlt : n.toNat < 4294967296 := n.toNat_lt
  have hint : (Int64.ofInt n.toNat).toInt = n.toNat :=
    Int64.toInt_ofInt_of_le (by omega) (by omega)
  show (if 0 ≤ (Int64.ofInt n.toNat).toInt then Except.ok (Int64.ofInt n.toNat).toInt.toNat
    else _) = _
  rw [hint, if_pos (by omega), Int.toNat_natCast]

/-- A step that does not sort works on the items of what it is applied to. -/
theorem eval_extend {s : Step} (hsort : ∀ step, s.operator ≠ .sort step) (entity : String)
    (before : Expr) :
    (s.extend entity before).eval lib =
      Meaning.items s.operator.name (before.meaning lib).value [] >>=
        Meaning.onItems s.operator ((s.args entity).map (Expr.meaning lib)).head? [] := by
  rw [← Meaning.operator_cons hsort]
  simp [extend, Expr.eval, Expr.evalIn, Expr.meaning, Expr.operandsMeaning_eq, Expr.operands,
    Meaning.call, Meaning.plain, Meaning.callValue, Role.ofName?_name]

/-- **One step**: it works on a list. -/
theorem extend_eval {s : Step} (hs : s.isPageStep = true) {entity : String} {before : Expr}
    {v : Value} (h : (s.extend entity before).eval lib = .ok v) :
    ∃ items, before.eval lib = .ok (.array items) ∧ v = .array (s.onList lib entity items) := by
  have hsort : ∀ step, s.operator ≠ .sort step := by
    intro step hstep
    cases s with
    | sort _ _ => cases hs
    | _ => cases hstep
  rw [eval_extend hsort] at h
  obtain ⟨items, hitems, h⟩ := bind_eq_ok.mp h
  refine ⟨items, ?_, ?_⟩
  · -- what the step is applied to is a list
    obtain ⟨w, hw, hitems⟩ := bind_eq_ok.mp hitems
    cases w with
    | array xs =>
      cases hitems
      exact hw
    | _ => cases hitems
  · cases s with
    | filter p =>
      obtain ⟨predicate, hpredicate, h⟩ := bind_eq_ok.mp h
      obtain ⟨kept, hkept, h⟩ := bind_eq_ok.mp h
      cases h
      cases hpredicate
      rw [keep_eq_filter hkept]
      rfl
    | skip n =>
      obtain ⟨count, hcount, h⟩ := bind_eq_ok.mp h
      rw [show ((args entity (skip n)).map (Expr.meaning lib)).head? =
        some ((countExpr n).meaning lib) from rfl, pageCount_eval] at hcount
      cases hcount
      cases h
      rfl
    | take n =>
      obtain ⟨count, hcount, h⟩ := bind_eq_ok.mp h
      rw [show ((args entity (take n)).map (Expr.meaning lib)).head? =
        some ((countExpr n).meaning lib) from rfl, pageCount_eval] at hcount
      cases hcount
      cases h
      rfl
    | _ => cases hs

end Step

/-- **A sequence of steps** on a list, one after another. -/
theorem extendAll_eval {lib : Library} {steps : List Step}
    (hsteps : ∀ s ∈ steps, s.isPageStep = true) {entity : String} {start : Expr}
    {items : List Value} (hstart : start.eval lib = .ok (.array items)) {v : Value}
    (h : (extendAll entity start steps).eval lib = .ok v) :
    v = .array (steps.foldl (Step.onList lib entity) items) := by
  induction steps using List.reverseRecOn generalizing v with
  | nil =>
    rw [show extendAll entity start [] = start from rfl, hstart] at h
    cases h
    rfl
  | append_singleton steps s ih =>
    have htree : extendAll entity start (steps ++ [s]) =
        s.extend entity (extendAll entity start steps) := by
      simp [extendAll, List.foldl_append]
    rw [htree] at h
    obtain ⟨before, hbefore, rfl⟩ := Step.extend_eval (hsteps s (by simp)) h
    have hall := ih (fun t ht => hsteps t (List.mem_append_left _ ht)) hbefore
    cases hall
    rw [List.foldl_append]
    rfl

/-! ## Pages -/

namespace Expr

@[simp] theorem hasNoPaging_binary (op : BinaryOp) (left right : Expr) :
    (binary op left right).HasNoPaging ↔ left.HasNoPaging ∧ right.HasNoPaging := by
  rw [hasNoPaging_iff]
  simp [isPagingStep, children]

@[simp] theorem hasNoPaging_member (target : Expr) (p : Property) (type : DataType) :
    (member target p type).HasNoPaging ↔ target.HasNoPaging := by
  rw [hasNoPaging_iff]
  simp [isPagingStep, children]

@[simp] theorem hasNoPaging_constant (value : Value) (type : DataType) :
    (constant value type).HasNoPaging := by
  rw [hasNoPaging_iff]
  simp [isPagingStep, children]

@[simp] theorem hasNoPaging_parameter (param : Param) : (parameter param).HasNoPaging := by
  rw [hasNoPaging_iff]
  simp [isPagingStep, children]

end Expr

/-- A function of an item has no paging if its body has none. -/
theorem Expr.HasNoPaging.itemLambda (entity : String) {body : Expr} (h : body.HasNoPaging) :
    (itemLambda entity body).HasNoPaging := by
  have hlambda : (lambda [itemParam entity] body).HasNoPaging :=
    (hasNoPaging_iff _).mpr ⟨rfl, by simpa [children] using h⟩
  exact (hasNoPaging_iff _).mpr ⟨rfl, by simpa [IssueSearch.itemLambda, children] using hlambda⟩

/-- Of filters and paging steps only a filter may have paging in its operands. -/
theorem Step.args_hasNoPaging (entity : String) {s : Step} (hs : s.isPageStep = true)
    (h : ∀ p, s = .filter p → p.HasNoPaging) : ∀ a ∈ s.args entity, a.HasNoPaging := by
  intro a ha
  cases s with
  | filter p =>
    rw [List.mem_singleton.mp ha]
    exact (h p rfl).itemLambda entity
  | skip n | take n =>
    rw [List.mem_singleton.mp ha]
    exact Expr.hasNoPaging_constant _ _
  | _ => cases hs

/-- The items that a search asks for, of all that it would find. -/
def Search.page (search : Search) (items : List Value) : List Value :=
  let rest := items.drop (search.startAt.getD 0).toNat
  match search.maxResults with
  | some n => rest.take n.toNat
  | none   => rest

/-- The place of a step in a page: filters come first, then the start, and then
    the number of items. -/
def Step.place : Step → Nat
  | filter _ => 0
  | skip _   => 1
  | _        => 2

namespace Chain

/-- The query is made of filters, a start and a number of items, in this order,
    and its filters have no paging of their own. -/
structure IsPage (c : Chain) : Prop where
  steps      : ∀ s ∈ c.steps, s.isPageStep = true
  order      : c.steps.Pairwise fun s t => s.place ≤ t.place
  predicates : ∀ p, Step.filter p ∈ c.steps → p.HasNoPaging

/-- Do all filters of the query hold of the item? -/
def accepts (lib : Library) (c : Chain) (item : Value) : Bool :=
  c.predicates.all fun p => p.accepts lib c.entity item

variable {c : Chain}

theorem skips_eq_nil (h : ∀ s ∈ c.steps, s.place ≤ 0) : c.skips = [] := by
  rw [skips, List.filterMap_eq_nil_iff]
  intro s hs
  have hplace := h s hs
  cases s <;> simp [Step.place, Step.skip?] at hplace ⊢

theorem takes_eq_nil (h : ∀ s ∈ c.steps, s.place ≤ 1) : c.takes = [] := by
  rw [takes, List.filterMap_eq_nil_iff]
  intro s hs
  have hplace := h s hs
  cases s <;> simp [Step.place, Step.take?] at hplace ⊢

/-- An item is accepted by a query with one more filter if it is accepted without
    it, and the filter holds. -/
theorem accepts_concat (lib : Library) (s : Step) (item : Value) :
    (c.concat s).accepts lib item =
      (c.accepts lib item && s.predicate?.toList.all fun p => p.accepts lib c.entity item) := by
  rw [accepts, predicates_concat, List.all_append]
  rfl

/-- Steps in the order of a page filter, drop and take. -/
theorem foldl_onList (lib : Library) (c : Chain) (hsteps : ∀ s ∈ c.steps, s.isPageStep = true)
    (horder : c.steps.Pairwise fun s t => s.place ≤ t.place) (items : List Value) :
    c.steps.foldl (Step.onList lib c.entity) items =
      c.takes.foldl (fun xs n => xs.take n.toNat)
        (c.skips.foldl (fun xs n => xs.drop n.toNat) (items.filter (c.accepts lib))) := by
  induction c using induction_on_steps with
  | nil entity =>
    have hall : accepts lib { entity := entity, steps := [] } = fun _ => true := rfl
    simp [takes, skips, hall]
  | concat c s ih =>
    obtain ⟨horder', _, hlast⟩ := List.pairwise_append.mp horder
    have hbefore := ih (fun t ht => hsteps t (mem_steps_concat.mpr (Or.inl ht))) horder'
    have hplaces : ∀ t ∈ c.steps, t.place ≤ s.place := fun t ht => hlast t ht s (by simp)
    have haccepts : (c.concat s).accepts lib = fun item =>
        (c.accepts lib item && s.predicate?.toList.all fun p => p.accepts lib c.entity item) :=
      funext fun item => accepts_concat lib s item
    have hfoldl : (c.concat s).steps.foldl (Step.onList lib (c.concat s).entity) items =
        Step.onList lib c.entity (c.steps.foldl (Step.onList lib c.entity) items) s := by
      simp [concat, List.foldl_append]
    rw [hfoldl, hbefore, takes_concat, skips_concat, haccepts]
    -- what the last step finds before it depends on its place
    cases s with
    | filter p =>
      have htakes : c.takes = [] :=
        takes_eq_nil fun t ht => Nat.le_trans (hplaces t ht) (Nat.zero_le 1)
      rw [htakes, skips_eq_nil hplaces]
      simp [Step.onList, Step.skip?, Step.take?, Step.predicate?, Bool.and_comm]
    | skip n =>
      rw [takes_eq_nil hplaces]
      simp [Step.onList, Step.skip?, Step.take?, Step.predicate?]
    | take n => simp [Step.onList, Step.skip?, Step.take?, Step.predicate?]
    | _ => cases hsteps _ (mem_steps_concat.mpr (Or.inr rfl))

/-- **The value of a query on a list is the page that its search asks for**: the
    items that its filters accept, from the start that was said and as many as
    were asked for. -/
theorem eval_eq_page (ctx : Context) (lib : Library) (c : Chain) (hc : c.IsPage) {search : Search}
    (hcompile : c.toExpr.compile ctx = .ok search) (items : List Value) (type : DataType)
    {v : Value}
    (heval : (extendAll c.entity (.constant (.array items) type) c.steps).eval lib = .ok v) :
    v = .array (search.page (items.filter (c.accepts lib))) := by
  have hargs : ∀ s ∈ c.steps, ∀ a ∈ s.args c.entity, a.HasNoPaging := by
    intro s hs
    refine Step.args_hasNoPaging c.entity (hc.steps s hs) ?_
    rintro p rfl
    exact hc.predicates p hs
  obtain ⟨hstart, hmax⟩ := paging_of_compile hargs hcompile
  rw [extendAll_eval hc.steps rfl heval, foldl_onList lib c hc.steps hc.order, ← hstart, ← hmax]
  unfold Search.page
  cases search.startAt <;> cases search.maxResults <;> simp

/-- More votes than none. -/
def voted : Expr :=
  .binary .greaterThan (votedItem.field "Votes") (.ofValue (.int 0))

/-- An issue with the given number of votes. -/
def issueWithVotes (votes : Int64) : Value :=
  .record "Issue" none [("Votes", .int votes)]

/-- The second of the issues that have votes. -/
def secondVoted : Chain :=
  { entity := "Issue", steps := [.filter voted, .skip 1, .take 1] }

theorem eval_eq_page_secondVoted :
    let items := [3, 0, 4, 5].map issueWithVotes
    let search : Search := { text := "votes > 0", startAt := some 1, maxResults := some 1 }
    secondVoted.IsPage ∧ secondVoted.toExpr.compile votingContext = .ok search ∧
      (extendAll "Issue" (.constant (.array items) .any) secondVoted.steps).eval .standard =
        .ok (.array [issueWithVotes 4]) ∧
      Value.array [issueWithVotes 4] =
        .array (search.page (items.filter (secondVoted.accepts .standard))) := by
  have hpage : secondVoted.IsPage := by
    refine ⟨by simp [secondVoted, Step.isPageStep], by simp [secondVoted, Step.place], ?_⟩
    intro p hp
    obtain rfl : p = voted := by simpa [secondVoted] using hp
    simp [voted, votedItem, Expr.field, Expr.typedField, Expr.ofValue]
  exact ⟨hpage, rfl, rfl, eval_eq_page votingContext .standard secondVoted hpage rfl _ .any rfl⟩

/-- **Elsewhere in a query paging means something else.** A query that takes
    before it skips, one that skips before it filters, and one that pages within
    a filter: none of them has the value that the paging of its search says. -/
theorem page_depends_on_place :
    let items := [0, 3, 4].map issueWithVotes
    let paged := Expr.call none { name := "any", remote := false }
      [.call none { name := "skip", remote := false }
        [.ofValue (.array [.int 1, .int 2]), .ofValue (.int 1)]]
    let value (c : Chain) :=
      (extendAll "Issue" (.constant (.array items) .any) c.steps).eval .standard
    let page (c : Chain) := (c.toExpr.compile votingContext).map fun search =>
      search.page (items.filter (c.accepts .standard))
    let taken : Chain := { entity := "Issue", steps := [.take 1, .skip 1] }
    let skipped : Chain := { entity := "Issue", steps := [.skip 1, .filter voted] }
    let filtered : Chain := { entity := "Issue", steps := [.filter paged] }
    (value taken = .ok (.array []) ∧ page taken = .ok [issueWithVotes 3]) ∧
      (value skipped = .ok (.array [issueWithVotes 3, issueWithVotes 4]) ∧
        page skipped = .ok [issueWithVotes 4]) ∧
      value filtered = .ok (.array items) ∧
        page filtered = .ok [issueWithVotes 3, issueWithVotes 4] :=
  ⟨⟨rfl, rfl⟩, ⟨rfl, rfl⟩, rfl, rfl⟩

end Chain

end IssueSearch
