import IssueSearch.Proofs.Binding
import IssueSearch.Proofs.FoldedForms
import IssueSearch.Session

/-! # The answer to a query

    A query is folded, its search is sent, and what is left of it is evaluated
    on the records that come back.  If the steps of the server come first, the
    answer is that of the other steps, as they were given, on those records.

    * `Stage.fold_applyAll`: folding leaves the stages over a remote collection
      in place and folds their operands.
    * `Expr.StaysHere.isUnanswered`: in an operand that stays here folding leaves
      nothing for the results to replace.
    * `Stage.bindResults_fold_agree`: what is left after the search agrees, on
      the results, with the stages that were given.
    * `Session.execute_applies_later_stages`: the answer to a query. -/

namespace IssueSearch

variable {lib : Library}

/-! ## Folding stages -/

/-- The stage with its operands folded. -/
structure Stage.FoldsTo (lib : Library) (s s' : Stage) : Prop where
  operator : s'.operator = s.operator
  onTarget : s'.onTarget = s.onTarget
  args     : List.Forall₂ (Expr.FoldsTo lib) s.args s'.args

namespace Stage

/-- A stage over a tree that is not closed is not closed. -/
theorem isClosed_on {s : Stage} {before : Expr} (h : before.isClosed = false) :
    (s.on before).isClosed = false := by
  by_contra hon
  have hbefore := Expr.isClosed_of_mem_children (c := before) (Bool.not_eq_false _ ▸ hon)
    (by simp [children_on])
  rw [h] at hbefore
  cases hbefore

theorem isClosed_applyAll (stages : List Stage) {start : Expr} (h : start.isClosed = false) :
    (applyAll stages start).isClosed = false := by
  induction stages using List.reverseRecOn with
  | nil => exact h
  | append_singleton stages s ih =>
    rw [applyAll_concat]
    exact isClosed_on ih

/-- **One stage**: it stays in place, with the operands folded. -/
theorem fold_on {s : Stage} {before e' : Expr} (hbefore : before.isClosed = false)
    (h : (s.on before).FoldsTo lib e') :
    ∃ s' before', before.FoldsTo lib before' ∧ s.FoldsTo lib s' ∧ e' = s'.on before' := by
  obtain ⟨r, hr, rfl⟩ := h
  cases Expr.foldStep_of_fold hr with
  | constant hconstant =>
    obtain ⟨value, type, heq⟩ := hconstant
    have hchildren : before :: s.args = [] := by rw [← children_on, heq]; rfl
    cases hchildren
  | value v _ hclosed _ =>
    rw [isClosed_on hbefore] at hclosed
    cases hclosed
  | below rs _ _ hrs =>
    rw [children_on] at hrs
    obtain ⟨first, others, hfirst, hothers, rfl⟩ := List.forall₂_cons_left_iff.mp hrs
    refine ⟨{ s with args := others.map Folded.tree }, first.tree, ⟨first, hfirst, rfl⟩,
      ⟨rfl, rfl, ?_⟩, ?_⟩
    · rw [List.forall₂_map_right_iff]
      exact hothers.imp fun a r har => ⟨r, har, rfl⟩
    · rw [List.map_cons, withChildren_on]

/-- **A sequence of stages**: each of them stays in place. -/
theorem fold_applyAll (stages : List Stage) {start e' : Expr} (hstart : start.isClosed = false)
    (h : (applyAll stages start).FoldsTo lib e') :
    ∃ stages' start', start.FoldsTo lib start' ∧ List.Forall₂ (FoldsTo lib) stages stages' ∧
      e' = applyAll stages' start' := by
  induction stages using List.reverseRecOn generalizing e' with
  | nil => exact ⟨[], e', h, .nil, rfl⟩
  | append_singleton stages s ih =>
    rw [applyAll_concat] at h
    obtain ⟨s', before', hbefore, hs, rfl⟩ := fold_on (isClosed_applyAll stages hstart) h
    obtain ⟨stages', start', hstart', hstages, rfl⟩ := ih hbefore
    refine ⟨stages' ++ [s'], start', hstart', ?_, (applyAll_concat ..).symm⟩
    exact List.rel_append hstages (.cons hs .nil)

/-- The folded stages are carried out by the same side. -/
theorem isServerSide_of_foldsTo {stages stages' : List Stage} {side : Bool}
    (h : List.Forall₂ (FoldsTo lib) stages stages') (hside : ∀ s ∈ stages, s.isServerSide = side) :
    ∀ s' ∈ stages', s'.isServerSide = side := by
  intro s' hs'
  obtain ⟨s, hs, hfolds⟩ := exists_of_mem_of_forall₂ h.flip hs'
  rw [isServerSide, hfolds.operator]
  exact hside s hs

end Stage

/-! ## Operands that stay here -/

namespace Expr

/-- Every constant in the tree is of the given kind. -/
def AllConstants (P : Value → DataType → Prop) (e : Expr) : Prop :=
  ∀ t : Expr, t.Within e → ∀ value type, t = constant value type → P value type

section Constants

variable {P : Value → DataType → Prop}

/-- The constants of a tree are the node itself, if it is one, and those below
    it. -/
theorem allConstants_iff (e : Expr) :
    e.AllConstants P ↔ (∀ value type, e = constant value type → P value type) ∧
      ∀ c ∈ e.children, c.AllConstants P :=
  forall_within_iff e

@[simp] theorem allConstants_constant (value : Value) (type : DataType) :
    (constant value type).AllConstants P ↔ P value type := by
  rw [allConstants_iff]
  simp [children]

@[simp] theorem allConstants_parameter (param : Param) : (parameter param).AllConstants P := by
  rw [allConstants_iff]
  simp [children]

@[simp] theorem allConstants_binary (op : BinaryOp) (left right : Expr) :
    (binary op left right).AllConstants P ↔ left.AllConstants P ∧ right.AllConstants P := by
  rw [allConstants_iff]
  simp [children]

@[simp] theorem allConstants_member (target : Expr) (p : Property) (type : DataType) :
    (member target p type).AllConstants P ↔ target.AllConstants P := by
  rw [allConstants_iff]
  simp [children]

@[simp] theorem allConstants_convert (operand : Expr) (type : DataType) :
    (convert operand type).AllConstants P ↔ operand.AllConstants P := by
  rw [allConstants_iff]
  simp [children]

@[simp] theorem allConstants_itemLambda (entity : String) (body : Expr) :
    (itemLambda entity body).AllConstants P ↔ body.AllConstants P := by
  rw [itemLambda, allConstants_iff]
  simp only [children, List.forall_mem_singleton]
  rw [allConstants_iff]
  simp [children]

end Constants

@[simp] theorem hasNoServerStep_itemLambda (entity : String) (body : Expr) :
    (itemLambda entity body).HasNoServerStep ↔ body.HasNoServerStep := by
  rw [itemLambda, hasNoServerStep_iff]
  simp only [children, List.forall_mem_singleton]
  rw [hasNoServerStep_iff]
  simp [children]

/-- Nothing in the tree is for a search to answer, neither as it is given nor
    once it is folded: it has no step for the server and no remote collection
    in a constant, and nothing in it becomes a constant that is declared to be
    one. -/
structure StaysHere (lib : Library) (e : Expr) : Prop where
  steps  : e.HasNoServerStep
  values : e.AllConstants fun value _ => value.IsLocal
  types  : ∀ e' : Expr, e.FoldsTo lib e' → e'.AllConstants fun _ type => type.isQueryable = false

/-- A constant of a local value stands for a remote collection only if it is
    declared to. -/
theorem isRemoteConstant_of_isLocal {v : Value} (hv : v.IsLocal) (type : DataType) :
    isRemoteConstant v type = type.isQueryable := by
  have hsource := Value.isSource_of_isLocal hv
  cases v with
  | source entity => cases hsource
  | _ => rfl

/-- Whether a node is answered does not depend on what lies below it. -/
theorem isAnswered_withChildren (e : Expr) (cs : List Expr) :
    (e.withChildren cs).isAnswered = e.isAnswered := by
  unfold withChildren
  split <;> rfl

/-- **Folding puts nothing in the way of the results.** -/
theorem StaysHere.isUnanswered (hlib : lib.IsLocal) {e e' : Expr} (h : e.StaysHere lib)
    (hfolds : e.FoldsTo lib e') : e'.IsUnanswered := by
  intro t' ht'
  obtain ⟨t, ht, r, hr, rfl⟩ := FoldsTo.part e e' t' hfolds ht'
  cases foldStep_of_fold hr with
  | constant hconstant =>
    obtain ⟨value, type, rfl⟩ := hconstant
    exact (isRemoteConstant_of_isLocal (h.values _ ht value type rfl) type).trans
      (h.types e' hfolds _ ht' value type rfl)
  | value v _ hclosed hv =>
    -- what is computed from local values is local
    have hhides : t.HidesNoSource :=
      fun value type hw => (h.values _ (hw.trans ht) value type rfl).hidesNoSource
    have hlocal : v.IsLocal := (meaning_isLocal hlib t hclosed hhides).value [] v hv
    exact (isRemoteConstant_of_isLocal hlocal _).trans (h.types e' hfolds _ ht' v _ rfl)
  | below rs hnode _ _ =>
    rw [isAnswered_withChildren]
    cases t with
    | constant value type => exact absurd ⟨value, type, rfl⟩ hnode
    | call target method args => exact h.steps target method args ht
    | _ => rfl

/-- A tree agrees with its folded form, if that holds nothing for a search to
    answer. -/
theorem FoldsTo.agree {e e' : Expr} (h : e.FoldsTo lib e') (he' : e'.IsUnanswered) :
    (e.meaning lib).Agree (e'.meaning lib) := by
  obtain ⟨r, hr, rfl⟩ := h
  refine fold_agree (fun _ e' => e'.IsUnanswered) ?_ ?_ e r hr he'
  · intro e v _ _ hconstant
    have hremote : isRemoteConstant v (e.staticType.orElse v.typeOf) = false := hconstant _ .self
    cases v with
    | source entity => cases hremote
    | _ => rfl
  · intro e cs hlen hnode
    have hbelow := ((isUnanswered_iff _).mp hnode).2
    rw [children_withChildren hlen] at hbelow
    exact List.forall₂_iff_zip.mpr ⟨hlen, fun hmem => hbelow _ (List.of_mem_zip hmem).2⟩

end Expr

/-! ## Stages that agree -/

namespace Stage

/-- The meaning of a stage is that of a call, in either style. -/
theorem meaning_on (s : Stage) (before : Expr) :
    (s.on before).meaning lib =
      .call lib { name := s.operator.name, remote := false }
        (before.meaning lib :: s.args.map (Expr.meaning lib)) := by
  unfold on
  split <;> simp [Expr.meaning, Expr.operandsMeaning_eq, Expr.operands]

/-- A stage agrees with the stage whose operands are folded. -/
theorem on_agree {s s' : Stage} (h : s.FoldsTo lib s') (hargs : ∀ a' ∈ s'.args, a'.IsUnanswered)
    {before before' : Expr} (hbefore : (before.meaning lib).Agree (before'.meaning lib)) :
    ((s.on before).meaning lib).Agree ((s'.on before').meaning lib) := by
  have hoperands : List.Forall₂ (fun a a' => (a.meaning lib).Agree (a'.meaning lib))
      s.args s'.args := by
    have hflipped := forall₂_imp_of_mem h.args.flip fun a' ha' a hfolds =>
      Expr.FoldsTo.agree hfolds (hargs a' ha')
    exact hflipped.flip
  rw [meaning_on, meaning_on, h.operator]
  refine Meaning.call_related agree_comparison lib _ (.cons hbefore ?_)
  rwa [List.forall₂_map_left_iff, List.forall₂_map_right_iff]

theorem applyAll_agree {stages stages' : List Stage}
    (h : List.Forall₂ (FoldsTo lib) stages stages')
    (hargs : ∀ s' ∈ stages', ∀ a' ∈ s'.args, a'.IsUnanswered) {start start' : Expr}
    (hstart : (start.meaning lib).Agree (start'.meaning lib)) :
    ((applyAll stages start).meaning lib).Agree ((applyAll stages' start').meaning lib) := by
  induction h generalizing start start' with
  | nil => exact hstart
  | @cons s s' rest rest' hs _ ih =>
    exact ih (fun t ht => hargs t (List.mem_cons_of_mem s' ht))
      (on_agree hs (hargs s' (by simp)) hstart)

end Stage

/-- Stages of the server are answered together with what they are applied to. -/
theorem Stage.bindResults_serverSide {stages : List Stage}
    (h : ∀ s ∈ stages, s.isServerSide = true) {start results : Expr}
    (hstart : start.bindResults results = results) :
    (applyAll stages start).bindResults results = results := by
  have hnone : stages.rtakeWhile (fun s => !s.isServerSide) = [] := by
    rw [List.rtakeWhile_eq_nil_iff]
    intro hne
    simp [h _ (List.getLast_mem hne)]
  rw [bindResults_applyAll _ _ _ hstart, hnone]
  rfl

/-- Other stages are left alone, if their operands are. -/
theorem Stage.bindResults_later {stages : List Stage}
    (h : ∀ s ∈ stages, s.isServerSide = false) (hargs : ∀ s ∈ stages, ∀ a ∈ s.args, a.IsUnanswered)
    {start results : Expr} (hstart : start.bindResults results = results) :
    (applyAll stages start).bindResults results = applyAll stages results := by
  have hall : stages.rtakeWhile (fun s => !s.isServerSide) = stages := by
    rw [List.rtakeWhile_eq_self_iff]
    intro s hs
    simp [h s hs]
  have hkeep : stages.map (Stage.bind results) = stages :=
    (List.map_congr_left fun s hs => bind_eq_self (hargs s hs) results).trans (List.map_id' _)
  rw [bindResults_applyAll _ _ _ hstart, hall, hkeep]

/-- **What is left after the search**: of stages of the server followed by
    others, the others remain, and on the results they agree with the stages
    that were given. -/
theorem Stage.bindResults_fold_agree (hlib : lib.IsLocal) (entity : String)
    {before later : List Stage} (hbefore : ∀ s ∈ before, s.isServerSide = true)
    (hlater : ∀ s ∈ later, s.isServerSide = false)
    (hargs : ∀ s ∈ later, ∀ a ∈ s.args, a.StaysHere lib) {folded : Expr}
    (hfold : (applyAll (before ++ later) (.source entity)).FoldsTo lib folded)
    {start results : Expr} (hstart : (start.meaning lib).Agree (results.meaning lib)) :
    ((applyAll later start).meaning lib).Agree ((folded.bindResults results).meaning lib) := by
  have hsource : (Expr.source entity).isClosed = false := rfl
  rw [applyAll_append] at hfold
  obtain ⟨later', base, hbase, hlater', rfl⟩ :=
    fold_applyAll later (isClosed_applyAll before hsource) hfold
  obtain ⟨before', source', ⟨r, hr, rfl⟩, hbefore', rfl⟩ := fold_applyAll before hsource hbase
  cases hr
  -- the results take the place of everything up to the last stage of the server
  have hanswered : (applyAll before' (.source entity)).bindResults results = results :=
    bindResults_serverSide (isServerSide_of_foldsTo hbefore' hbefore) rfl
  have hargs' : ∀ s' ∈ later', ∀ a' ∈ s'.args, a'.IsUnanswered := by
    intro s' hs' a' ha'
    obtain ⟨s, hs, hfolds⟩ := exists_of_mem_of_forall₂ hlater'.flip hs'
    obtain ⟨a, ha, hfold⟩ := exists_of_mem_of_forall₂ hfolds.args.flip ha'
    exact (hargs s hs a ha).isUnanswered hlib hfold
  have hleft : (applyAll later' (applyAll before' (.source entity))).bindResults results =
      applyAll later' results :=
    bindResults_later (isServerSide_of_foldsTo hlater' hlater) hargs' hanswered
  show ((applyAll later start).meaning lib).Agree
    (((applyAll later' (applyAll before' (.source entity))).bindResults results).meaning lib)
  rw [hleft]
  exact applyAll_agree hlater' hargs' hstart

/-! ## Sessions -/

namespace Session

/-- Asking for fields sends no search. -/
theorem requests_fields (setup : SessionSetup) (s : Session) :
    (s.fields setup).2.requests = s.requests := by
  unfold fields
  split
  · rfl
  · split <;> rfl

/-- Preparing a query sends no search. -/
theorem requests_prepare (setup : SessionSetup) (s : Session) (e : Expr) :
    (s.prepare setup e).2.requests = s.requests := by
  have hfields := requests_fields setup s
  unfold prepare
  split
  · rfl
  · -- only asking for the fields changes the session
    split
    · rename_i heq
      rwa [heq] at hfields
    · rename_i heq
      rw [heq] at hfields
      dsimp only
      split <;> exact hfields

section Answers

variable {setup : SessionSetup} {s : Session} {e folded : Expr} {search : Search}

/-- What a session searches for is the folded query. -/
theorem foldsTo_of_prepare (h : (s.prepare setup e).1 = .ok (folded, search)) :
    e.FoldsTo setup.library folded := by
  unfold prepare at h
  split at h
  · cases h
  · rename_i r hr
    split at h
    · cases h
    · dsimp only at h
      split at h
      · cases h
        exact ⟨r, hr, rfl⟩
      · cases h

/-- A query that has a search was prepared. -/
theorem prepare_of_compile (h : (s.compile setup e).1 = .ok search) :
    ∃ folded, (s.prepare setup e).1 = .ok (folded, search) := by
  unfold compile at h
  split at h
  · rename_i folded' search' s' hprepare
    cases h
    exact ⟨folded', by rw [hprepare]⟩
  · cases h

/-- **The search of a query** is answered by the server as it is put on record. -/
theorem execute_of_prepare (h : (s.prepare setup e).1 = .ok (folded, search)) :
    s.execute setup e =
      (answer setup.library folded (search.request setup.paging)
          (setup.server.search s.requests.length (search.request setup.paging)),
        { (s.prepare setup e).2 with
          requests := s.requests ++ [search.request setup.paging] }) := by
  have hrequests := requests_prepare setup s e
  obtain ⟨s', hs'⟩ : ∃ s', s.prepare setup e = (.ok (folded, search), s') :=
    ⟨_, Prod.ext h rfl⟩
  rw [hs'] at hrequests
  dsimp only at hrequests
  unfold execute send
  rw [hs', ← hrequests]

/-- A query that is not prepared is not sent. -/
theorem execute_of_prepare_error {failure : SessionError}
    (h : (s.prepare setup e).1 = .error failure) :
    s.execute setup e = (.error failure, (s.prepare setup e).2) := by
  obtain ⟨s', hs'⟩ : ∃ s', s.prepare setup e = (.error failure, s') := ⟨_, Prod.ext h rfl⟩
  unfold execute
  rw [hs']

/-- The answer to a query is what is left of it on the records of its search. -/
theorem execute_eq_ok_iff (hprepare : (s.prepare setup e).1 = .ok (folded, search))
    {records : List Record}
    (hsearch : setup.server.search s.requests.length (search.request setup.paging) = .ok records)
    (v : Value) :
    (s.execute setup e).1 = .ok v ↔ complete setup.library folded records = .ok v := by
  rw [execute_of_prepare hprepare, hsearch]
  show (complete setup.library folded records).mapError SessionError.results = .ok v ↔ _
  cases complete setup.library folded records <;> simp [Except.mapError]

end Answers

/-- **The answer to a query** whose steps for the server come first is that of
    the other steps, as they were given, on the records of the search. -/
theorem execute_applies_later_stages (setup : SessionSetup) (s : Session) (entity : String)
    (before later : List Stage) (hbefore : ∀ t ∈ before, t.isServerSide = true)
    (hlater : ∀ t ∈ later, t.isServerSide = false) (hlib : setup.library.IsLocal)
    (hargs : ∀ t ∈ later, ∀ a ∈ t.args, a.StaysHere setup.library) {search : Search}
    (hcompile :
      (s.compile setup (Stage.applyAll (before ++ later) (.source entity))).1 = .ok search)
    {records : List Record}
    (hsearch : setup.server.search s.requests.length (search.request setup.paging) = .ok records)
    (element : DataType) (v : Value) :
    (s.execute setup (Stage.applyAll (before ++ later) (.source entity))).1 = .ok v ↔
      (Stage.applyAll later (resultsExpr (records.map Record.toValue) element)).eval setup.library =
        .ok v := by
  obtain ⟨folded, hprepare⟩ := prepare_of_compile hcompile
  have hfolds := foldsTo_of_prepare hprepare
  rw [execute_eq_ok_iff hprepare hsearch]
  -- the declared type of the items does not matter to evaluation
  have hresults : ((resultsExpr (records.map Record.toValue) element).meaning setup.library).Agree
      ((resultsExpr (records.map Record.toValue) (elementType folded)).meaning setup.library) :=
    Meaning.related_refl agree_comparison _
  have hagree := Stage.bindResults_fold_agree hlib entity hbefore hlater hargs hfolds hresults
  exact (hagree.value []).ok_iff v

/-- A server that knows two fields, and finds the same two issues each time. -/
def twoIssues : SessionSetup :=
  { server :=
      { fields := fun _ => .ok Chain.votingContext.fields
        search := fun _ _ => .ok
          [{ typeName := "Issue", display := none, fields := [("Votes", .int 3)] },
           { typeName := "Issue", display := none, fields := [("Votes", .int 4)] }] }
    library := .standard
    options := .usual
    paging  := .usual }

/-- The number of votes, and two more. -/
def raisedVotes : Expr :=
  .binary .add (Chain.votedItem.field "Votes")
    (.binary .add (.ofValue (.int 1)) (.ofValue (.int 1)))

/-- The same with the two captured numbers added up. -/
def raisedVotesFolded : Expr :=
  .binary .add (Chain.votedItem.field "Votes") (.ofValue (.int 2))

theorem raisedVotes_staysHere : (itemLambda "Issue" raisedVotes).StaysHere .standard where
  steps := by
    simp [raisedVotes, Chain.votedItem, Expr.field, Expr.typedField, Expr.ofValue]
  values := by
    simp [raisedVotes, Chain.votedItem, Expr.field, Expr.typedField, Expr.ofValue]
  types := by
    rintro e' ⟨r, hr, rfl⟩
    have hfold : (itemLambda "Issue" raisedVotes).fold .standard =
        .ok { tree := itemLambda "Issue" raisedVotesFolded, changed := true } := rfl
    rw [hfold] at hr
    cases hr
    simp [raisedVotesFolded, Chain.votedItem, Expr.field, Expr.typedField, Expr.ofValue,
      Value.typeOf, DataType.isQueryable]

/-- The open issues, and for each of them two votes more than it has. -/
theorem execute_applies_raisedVotes :
    let before := [(Step.filter (.binary .equal (Chain.votedItem.field "Status")
      (.ofValue (.str "Open")))).stage "Issue"]
    let later := [(Step.select raisedVotes).stage "Issue"]
    (∀ t ∈ before, t.isServerSide = true) ∧ (∀ t ∈ later, t.isServerSide = false) ∧
      twoIssues.library.IsLocal ∧ (∀ t ∈ later, ∀ a ∈ t.args, a.StaysHere .standard) ∧
      (start.compile twoIssues (Stage.applyAll (before ++ later) (.source "Issue"))).1 =
        .ok { text := "status = \"Open\"", startAt := none, maxResults := none } ∧
      (start.execute twoIssues (Stage.applyAll (before ++ later) (.source "Issue"))).1 =
        .ok (.array [.int 5, .int 6]) := by
  intro before later
  have hbefore : ∀ t ∈ before, t.isServerSide = true := by simp [before]; rfl
  have hlater : ∀ t ∈ later, t.isServerSide = false := by simp [later]; rfl
  have hargs : ∀ t ∈ later, ∀ a ∈ t.args, a.StaysHere .standard := by
    simpa [later, Step.stage, Step.args] using raisedVotes_staysHere
  refine ⟨hbefore, hlater, Library.standard_isLocal, hargs, rfl, ?_⟩
  exact (execute_applies_later_stages twoIssues start "Issue" before later hbefore hlater
    Library.standard_isLocal hargs rfl rfl .any _).mpr rfl

/-- **A closed part that is declared to be a remote collection** is not left
    here: once it is folded, the results take its place.  The projection has
    neither a step for the server nor a remote collection among its constants,
    and on the records it yields a number for each; yet the answer is the
    records themselves, once for each of them. -/
theorem execute_replaces_declared_collection :
    let projection := Expr.convert (.constant (.int 5) .int64) (.queryable "Issue")
    let later := [(Step.select projection).stage "Issue"]
    let records := [Value.record "Issue" none [("Votes", .int 3)],
      Value.record "Issue" none [("Votes", .int 4)]]
    projection.HasNoServerStep ∧
      (projection.AllConstants fun value type => value.IsLocal ∧ type.isQueryable = false) ∧
      (Stage.applyAll later (resultsExpr records .any)).eval .standard =
        .ok (.array [.int 5, .int 5]) ∧
      (start.execute twoIssues (Stage.applyAll later (.source "Issue"))).1 =
        .ok (.array [.array records, .array records]) := by
  refine ⟨?_, ?_, rfl, rfl⟩
  · rw [Expr.hasNoServerStep_iff]
    simp [Expr.children]
  · simp [DataType.isQueryable]

end Session

end IssueSearch
