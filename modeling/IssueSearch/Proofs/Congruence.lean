import IssueSearch.Proofs.Emission
import Mathlib.Data.List.Forall2

/-! # Relations between writers

    A writer is put together from few elementary ones.  A relation that those
    respect, and that passes to what is written one after another, passes to
    every writer of a node: operands that are related make nodes that are
    related, as long as the node sees the same in them.

    * `Writer.Congruence`: the closure conditions, one for each way to make a
      writer.  Paging is left out; not every relation respects it.
    * `Writer.Congruence.binary`, `Writer.Congruence.call` and so on: the
      writers of nodes, one lemma for each.
    * `Expr.visit_related`: a relation that relates each writer of a tree
      without paging to itself.  So a property of writers, taken as a relation
      of equal writers, is shown for all trees at once. -/

namespace IssueSearch

/-- Of the operands of a call, those that are written.  A filter or an ordering
    writes what it is applied to and its function, a step on the results only
    what it is applied to, and the title of a field is read off its operands. -/
def Method.written {α : Type} (method : Method) (operands : List α) : List α :=
  if method.remote then
    if method.name = Remote.customField then [] else operands
  else
    match Role.ofName method.name with
    | .operator .filter | .operator (.sort _)      => operands.take 2
    | .operator _ | .presence _                    => operands.take 1
    | .membership _ | .history _ | .qualifier _    => operands
    | .other                                       => []

theorem Method.written_map {α β : Type} (method : Method) (f : α → β) (operands : List α) :
    method.written (operands.map f) = (method.written operands).map f := by
  unfold written
  repeat' split
  all_goals simp

theorem Method.mem_of_mem_written {α : Type} {method : Method} {operands : List α} {a : α}
    (h : a ∈ method.written operands) : a ∈ operands := by
  unfold written at h
  repeat' split at h
  all_goals first | exact h | exact List.mem_of_mem_take h | cases h

theorem Method.forall₂_written {α β : Type} {R : α → β → Prop} (method : Method) {as : List α}
    {bs : List β} (h : List.Forall₂ R as bs) :
    List.Forall₂ R (method.written as) (method.written bs) := by
  unfold written
  repeat' split
  all_goals first | exact h | exact List.forall₂_take _ h | exact .nil

namespace Writer

/-- A relation between writers that is respected by everything a writer without
    paging is made of. -/
structure Congruence (R : ∀ {α : Type}, Writer α → Writer α → Prop) : Prop where
  pure {α : Type} (a : α) : R (pure a : Writer α) (pure a)
  throw {α : Type} (failure : SearchError) : R (throw failure : Writer α) (throw failure)
  bind {α β : Type} {w w' : Writer α} {k k' : α → Writer β} :
    R w w' → (∀ a, R (k a) (k' a)) → R (w >>= k) (w' >>= k')
  push (fragment : String) : R (push fragment) (push fragment)
  setSeparator (s : Separator) :
    R (modify fun d => { d with separator := s }) (modify fun d => { d with separator := s })
  nextSeparator : R nextSeparator nextSeparator
  node (kind : String) {w w' : Writer Unit} : R w w' → R (node kind w) (node kind w')
  capture {w w' : Writer Unit} : R w w' → R (capture w) (capture w')
  addFilter (clause : String) : R (addFilter clause) (addFilter clause)
  addOrder (refines descending : Bool) (key : String) :
    R (addOrder refines descending key) (addOrder refines descending key)

end Writer

/-- Two operands whose writers are related. -/
structure Operand.Related (R : ∀ {α : Type}, Writer α → Writer α → Prop) (o o' : Operand) :
    Prop where
  visit     : R o.visit o'.visit
  visitBody : R o.visitBody o'.visitBody

namespace Writer.Congruence

variable {R : ∀ {α : Type}, Writer α → Writer α → Prop} (hR : Congruence R)

include hR

/-! ## Elementary writers -/

theorem unsupported {α : Type} (symbol reason : String) :
    R (Writer.unsupported symbol reason : Writer α) (Writer.unsupported symbol reason) :=
  hR.throw _

theorem constant (escaping : Bool) (value : Value) (type : DataType) :
    R (Writer.constant escaping value type) (Writer.constant escaping value type) := by
  unfold Writer.constant
  split
  · exact hR.pure ()
  · exact hR.pure ()
  · exact hR.pure ()
  · exact hR.bind hR.nextSeparator fun lead => hR.bind (hR.setSeparator _) fun _ =>
      hR.bind (hR.push lead) fun _ => hR.push _
  · exact hR.bind hR.nextSeparator fun lead => hR.bind (hR.push lead) fun _ => hR.push _

/-- What follows a receiver works on receivers that are related.  Without
    operands nothing follows. -/
theorem receiver {β : Type} (name : String) {operands operands' : List Operand}
    {k k' : Operand × List Operand → Writer β}
    (h : List.Forall₂ (Operand.Related R) (operands.take 1) (operands'.take 1))
    (hk : ∀ first first' rest rest', operands = first :: rest → operands' = first' :: rest' →
      first.Related R first' → R (k (first, rest)) (k' (first', rest'))) :
    R (Writer.receiver name operands >>= k) (Writer.receiver name operands' >>= k') := by
  match operands, operands', h with
  | [], [], _ => exact hR.throw (.unsupported name "missing receiver")
  | first :: rest, first' :: rest', .cons hfirst _ =>
    simp only [Writer.receiver, pure_bind]
    exact hk first first' rest rest' rfl rfl hfirst

/-! ## Operators -/

section Operators

variable {left left' right right' : Operand}

theorem connective (word : String) (hleft : left.Related R left')
    (hright : right.Related R right') :
    R (Writer.connective word left right) (Writer.connective word left' right') :=
  hR.bind (hR.push "(") fun _ => hR.bind hleft.visit fun _ => hR.bind (hR.push word) fun _ =>
    hR.bind hright.visit fun _ => hR.push ")"

theorem comparison (word : String) (hleft : left.Related R left')
    (hright : right.Related R right') :
    R (Writer.comparison word left right) (Writer.comparison word left' right') :=
  hR.bind hleft.visit fun _ => hR.bind (hR.push word) fun _ => hR.bind (hR.setSeparator _) fun _ =>
    hright.visit

/-- An equality sees which field its left operand names, and whether its right
    operand is a list or asks for absence. -/
theorem equality (fields : FieldTable) (op : BinaryOp) (negated : Bool)
    (hleft : left.Related R left') (hright : right.Related R right')
    (hfield : fields.resolve left'.expr = fields.resolve left.expr)
    (hdate : left'.expr.staticType.isDate = left.expr.staticType.isDate)
    (hlist : isList right' = isList right)
    (habsence : ∀ field, fields.resolve left.expr = .ok field →
      absence? (field.type.isDate || left.expr.staticType.isDate) negated right'.expr.asConstant? =
        absence? (field.type.isDate || left.expr.staticType.isDate) negated
          right.expr.asConstant?) :
    R (Writer.equality fields op negated left right)
      (Writer.equality fields op negated left' right') := by
  unfold Writer.equality
  rw [hfield, hlist, hdate]
  cases hresolve : fields.resolve left.expr with
  | error failure => exact hR.throw failure
  | ok field =>
    simp only [Writer.ofExcept, pure_bind]
    by_cases hright' : isList right = true
    · rw [if_pos hright', if_pos hright']
      exact hR.unsupported _ _
    · rw [if_neg hright', if_neg hright']
      refine hR.bind hleft.visit fun _ => ?_
      rw [habsence field hresolve]
      split
      · exact hR.push _
      · exact hR.bind (hR.push _) fun _ => hR.bind (hR.setSeparator _) fun _ => hright.visit

/-- An operator, once its equality is related if it is one. -/
theorem binary (ctx : Context) (op : BinaryOp) (hleft : left.Related R left')
    (hright : right.Related R right')
    (hequality : ∀ negated, op = (if negated then .notEqual else .equal) →
      R (Writer.equality ctx.fields op negated left right)
        (Writer.equality ctx.fields op negated left' right')) :
    R (Writer.binary ctx op left right) (Writer.binary ctx op left' right') := by
  cases op with
  | and | andAlso | or | orElse => exact hR.connective _ hleft hright
  | equal => exact hequality false rfl
  | notEqual => exact hequality true rfl
  | lessThan | lessThanOrEqual | greaterThan | greaterThanOrEqual =>
    exact hR.comparison _ hleft hright
  | add | subtract | multiply | divide | modulo => exact hR.unsupported _ _

end Operators

/-! ## Calls -/

section Calls

variable {operands operands' : List Operand}

omit hR in
/-- Operands that are related to the second are related to the first. -/
theorem take_one (h : List.Forall₂ (Operand.Related R) (operands.take 2) (operands'.take 2)) :
    List.Forall₂ (Operand.Related R) (operands.take 1) (operands'.take 1) := by
  simpa [List.take_take] using List.forall₂_take 1 h

theorem filterStep (name : String)
    (h : List.Forall₂ (Operand.Related R) (operands.take 2) (operands'.take 2)) :
    R (Writer.filterStep name operands) (Writer.filterStep name operands') := by
  refine hR.receiver name (take_one h) fun source source' rest rest' heq heq' hsource => ?_
  subst heq heq'
  refine hR.bind hsource.visit fun _ => ?_
  match rest, rest', h with
  | [], [], _ => exact hR.unsupported _ _
  | predicate :: _, predicate' :: _, .cons _ (.cons hpredicate _) =>
    exact hR.bind (hR.setSeparator _) fun _ => hR.bind (hR.capture hpredicate.visitBody)
      fun clause => hR.addFilter clause

theorem sortStep (name : String) (step : SortStep)
    (h : List.Forall₂ (Operand.Related R) (operands.take 2) (operands'.take 2)) :
    R (Writer.sortStep name step operands) (Writer.sortStep name step operands') := by
  refine hR.receiver name (take_one h) fun source source' rest rest' heq heq' hsource => ?_
  subst heq heq'
  refine hR.bind hsource.visit fun _ => ?_
  match rest, rest', h with
  | [], [], _ => exact hR.unsupported _ _
  | key :: _, key' :: _, .cons _ (.cons hkey _) =>
    exact hR.bind (hR.capture hkey.visitBody) fun key => hR.addOrder _ _ key

theorem laterStep (name : String)
    (h : List.Forall₂ (Operand.Related R) (operands.take 1) (operands'.take 1)) :
    R (Writer.laterStep name operands) (Writer.laterStep name operands') :=
  hR.receiver name h fun _ _ _ _ _ _ hsource => hsource.visit

theorem presence (p : Presence)
    (h : List.Forall₂ (Operand.Related R) (operands.take 1) (operands'.take 1)) :
    R (Writer.presence p operands) (Writer.presence p operands') :=
  hR.receiver p.name h fun _ _ _ _ _ _ hsubject =>
    hR.bind hsubject.visit fun _ => hR.push p.words

/-- A list sees which of its items are literals. -/
theorem listItems
    (h : List.Forall₂ (fun o o' => o.Related R o' ∧ o'.value?.isNone = o.value?.isNone)
      operands operands') :
    R (Writer.listItems operands) (Writer.listItems operands') := by
  induction h with
  | nil => exact hR.pure ()
  | @cons item item' rest rest' hitem _ ih =>
    obtain ⟨hvisit, hbare⟩ := hitem
    have hboth : R (do item.visit; Writer.listItems rest)
        (do item'.visit; Writer.listItems rest') := hR.bind hvisit.visit fun _ => ih
    unfold Writer.listItems
    rw [hbare]
    by_cases hnone : item.value?.isNone = true
    · rw [if_pos hnone, if_pos hnone]
      exact hR.bind hR.nextSeparator fun lead => hR.bind (hR.push lead) fun _ => hboth
    · rw [if_neg hnone, if_neg hnone]
      exact hboth

theorem membership (m : Membership) (h : List.Forall₂ (Operand.Related R) operands operands')
    (hitems : List.Forall₂ (fun o o' => o.Related R o' ∧ o'.value?.isNone = o.value?.isNone)
      operands.tail operands'.tail)
    (hempty : operands'.tail.all Operand.isEmptyList = operands.tail.all Operand.isEmptyList) :
    R (Writer.membership m operands) (Writer.membership m operands') := by
  refine hR.receiver m.name (List.forall₂_take 1 h) fun field field' items items' heq heq' hfield =>
    ?_
  subst heq heq'
  dsimp only [List.tail_cons] at hitems hempty ⊢
  rw [hempty]
  by_cases hall : items.all Operand.isEmptyList = true
  · rw [if_pos hall, if_pos hall]
    exact hR.unsupported _ _
  · rw [if_neg hall, if_neg hall]
    exact hR.bind hfield.visit fun _ => hR.bind (hR.push _) fun _ =>
      hR.bind (hR.setSeparator _) fun _ => hR.bind (hR.listItems hitems) fun _ => hR.push ")"

theorem qualifiers (h : List.Forall₂ (Operand.Related R) operands operands') :
    R (Writer.qualifiers operands) (Writer.qualifiers operands') := by
  induction h with
  | nil => exact hR.pure ()
  | cons hq _ ih =>
    exact hR.bind (hR.push " ") fun _ => hR.bind (hR.setSeparator _) fun _ =>
      hR.bind hq.visit fun _ => ih

/-- A past value is seen to be absent or not. -/
theorem pastValue {value value' : Operand} (h : value.Related R value')
    (hnull : value'.value? = some .null ↔ value.value? = some .null) :
    R (Writer.pastValue value) (Writer.pastValue value') := by
  by_cases hv : value.value? = some .null
  · unfold Writer.pastValue
    rw [hv, hnull.mpr hv]
    exact hR.push _
  · have hpast : ∀ o : Operand, o.value? ≠ some .null → Writer.pastValue o = o.visit := by
      intro o ho
      unfold Writer.pastValue
      split
      · rename_i heq
        exact absurd heq ho
      · rfl
    rw [hpast value hv, hpast value' (fun hv' => hv (hnull.mp hv'))]
    exact h.visit

theorem history (past : History) (h : List.Forall₂ (Operand.Related R) operands operands')
    (hnull : past ≠ .changed → ∀ value ∈ operands.tail.head?, ∀ value' ∈ operands'.tail.head?,
      (value'.value? = some .null ↔ value.value? = some .null)) :
    R (Writer.history past operands) (Writer.history past operands') := by
  refine hR.receiver past.name (List.forall₂_take 1 h)
    fun field field' rest rest' heq heq' hfield => ?_
  subst heq heq'
  obtain ⟨_, hrest⟩ := List.forall₂_cons.mp h
  refine hR.bind hfield.visit fun _ => ?_
  cases past with
  | changed => exact hR.bind (hR.push _) fun _ => hR.qualifiers hrest
  | was | wasNot =>
    cases hrest with
    | nil => exact hR.unsupported _ _
    | cons hvalue hmore =>
      have hvalues := hnull (by simp) _ rfl _ rfl
      exact hR.bind (hR.push _) fun _ => hR.bind (hR.setSeparator _) fun _ =>
        hR.bind (hR.pastValue hvalue hvalues) fun _ => hR.qualifiers hmore

theorem bounds (q : Qualifier) (h : List.Forall₂ (Operand.Related R) operands operands') :
    R (Writer.bounds q operands) (Writer.bounds q operands') := by
  -- a period has two bounds, any other restriction one
  match operands, operands', h with
  | [], [], .nil => cases q <;> exact hR.pure ()
  | [low], [low'], .cons hlow .nil =>
    cases q with
    | during => exact hR.pure ()
    | after | before | byUser | onDate | fromValue | toValue => exact hlow.visit
  | [low, high], [low', high'], .cons hlow (.cons hhigh .nil) =>
    cases q with
    | during =>
      exact hR.bind (hR.push "(") fun _ => hR.bind hlow.visit fun _ =>
        hR.bind hhigh.visit fun _ => hR.push ")"
    | after | before | byUser | onDate | fromValue | toValue => exact hR.pure ()
  | _ :: _ :: _ :: _, _ :: _ :: _ :: _, .cons _ (.cons _ (.cons _ _)) =>
    cases q <;> exact hR.pure ()

theorem subject {o? o?' : Option Operand} (h : Option.Rel (Operand.Related R) o? o?') :
    R (Writer.subject o?) (Writer.subject o?') := by
  cases h with
  | none => exact hR.pure ()
  | some ho => exact hR.bind ho.visit fun _ => hR.push " "

omit hR in
/-- Operands that are related are split alike. -/
theorem splitSubject (q : Qualifier) (hasTarget : Bool)
    (h : List.Forall₂ (Operand.Related R) operands operands') :
    Option.Rel (Operand.Related R) (Writer.splitSubject q hasTarget operands).1
        (Writer.splitSubject q hasTarget operands').1 ∧
      List.Forall₂ (Operand.Related R) (Writer.splitSubject q hasTarget operands).2
        (Writer.splitSubject q hasTarget operands').2 := by
  cases h with
  | nil => exact ⟨.none, .nil⟩
  | @cons o o' rest rest' ho hrest =>
    unfold Writer.splitSubject
    dsimp only
    rw [hrest.length_eq]
    by_cases hsplit : (hasTarget || decide (q.arity ≤ rest'.length)) = true
    · rw [if_pos hsplit, if_pos hsplit]
      exact ⟨.some ho, hrest⟩
    · rw [if_neg hsplit, if_neg hsplit]
      exact ⟨.none, .cons ho hrest⟩

theorem qualifier (q : Qualifier) (hasTarget : Bool)
    (h : List.Forall₂ (Operand.Related R) operands operands') :
    R (Writer.qualifier q hasTarget operands) (Writer.qualifier q hasTarget operands') := by
  obtain ⟨hsubject, hlimits⟩ := splitSubject q hasTarget h
  unfold Writer.qualifier
  dsimp only
  rw [hlimits.length_eq]
  split
  · exact hR.unsupported _ _
  · exact hR.bind (hR.subject hsubject) fun _ => hR.bind (hR.push _) fun _ =>
      hR.bind (hR.push " ") fun _ => hR.bind (hR.setSeparator _) fun _ => hR.bounds q hlimits

theorem remoteFunction (name : String) (h : List.Forall₂ (Operand.Related R) operands operands') :
    R (Writer.remoteFunction name operands) (Writer.remoteFunction name operands') := by
  cases h with
  | nil => exact hR.bind (hR.push _) fun _ => hR.bind (hR.push "(") fun _ => hR.push ")"
  | cons harg hrest =>
    cases hrest with
    | nil =>
      exact hR.bind (hR.push _) fun _ => hR.bind (hR.push "(") fun _ =>
        hR.bind (hR.setSeparator _) fun _ => hR.bind harg.visit fun _ => hR.push ")"
    | cons _ _ => exact hR.unsupported _ _

/-- A call.  What depends on more than the writers of its operands is asked for:
    the title of a field, paging, lists, and past values. -/
theorem call (method : Method) (hasTarget : Bool)
    (h : List.Forall₂ (Operand.Related R) (method.written operands) (method.written operands'))
    (htitle : method.remote = true → method.name = Remote.customField →
      title? (operands'.map Operand.expr) = title? (operands.map Operand.expr))
    (hpaging : method.remote = false → ∀ op, Role.ofName method.name = .operator op →
      op = .skip ∨ op = .take → ∀ slot, R (Writer.pagingStep method.name slot operands)
        (Writer.pagingStep method.name slot operands'))
    (hmembership : method.remote = false → ∀ m, Role.ofName method.name = .membership m →
      R (Writer.membership m operands) (Writer.membership m operands'))
    (hhistory : method.remote = false → ∀ past, Role.ofName method.name = .history past →
      R (Writer.history past operands) (Writer.history past operands')) :
    R (Writer.call method hasTarget operands) (Writer.call method hasTarget operands') := by
  cases hremote : method.remote with
  | true =>
    simp only [Writer.call, hremote, if_true]
    by_cases hname : method.name = Remote.customField
    · rw [if_pos hname, if_pos hname, htitle hremote hname]
      split
      · exact hR.push _
      · exact hR.throw _
    · rw [if_neg hname, if_neg hname]
      simp only [Method.written, hremote, if_true, if_neg hname] at h
      exact hR.remoteFunction _ h
  | false =>
    simp only [Writer.call, hremote, Bool.false_eq_true, if_false]
    simp only [Method.written, hremote, Bool.false_eq_true, if_false] at h
    cases hrole : Role.ofName method.name with
    | operator op =>
      rw [hrole] at h
      cases op with
      | filter => exact hR.filterStep _ h
      | sort step => exact hR.sortStep _ step h
      | skip => exact hpaging hremote .skip hrole (Or.inl rfl) .startAt
      | take => exact hpaging hremote .take hrole (Or.inr rfl) .maxResults
      | select | count | any | first | firstOrDefault | toList | distinct => exact hR.laterStep _ h
    | presence p =>
      rw [hrole] at h
      exact hR.presence p h
    | membership m => exact hmembership hremote m hrole
    | history past => exact hhistory hremote past hrole
    | qualifier q =>
      rw [hrole] at h
      exact hR.qualifier q hasTarget h
    | other => exact hR.unsupported _ _

end Calls

/-! ## Other nodes -/

/-- A constructor sees the values of its arguments. -/
theorem construct (ctx : Context) (name : String) {args args' : List Operand}
    (h : constants? args' = constants? args) :
    R (Writer.construct ctx name args) (Writer.construct ctx name args') := by
  unfold Writer.construct
  rw [h]
  split
  · exact hR.unsupported _ _
  · split
    · exact hR.constant _ _ _
    · exact hR.unsupported _ _
    · exact hR.throw _

/-- A node, seen as a literal or not alike. -/
theorem ofNode (ctx : Context) {e e' : Expr} {w w' : Writer Unit} (h : R w w')
    (hkind : e'.kind = e.kind) (hconstant : e'.asConstant? = e.asConstant?) :
    (Operand.ofNode ctx e w).Related R (Operand.ofNode ctx e' w') := by
  have hvisit : R (Operand.ofNode ctx e w).visit (Operand.ofNode ctx e' w').visit := by
    unfold Operand.ofNode
    dsimp only
    rw [hkind, hconstant]
    refine hR.node _ ?_
    split
    · exact hR.constant _ _ _
    · exact h
  exact ⟨hvisit, hvisit⟩

end Writer.Congruence

/-! ## Trees without paging -/

/-- A relation that is respected relates a writer without paging to itself. -/
theorem Writer.Composed.related {R : ∀ {α : Type}, Writer α → Writer α → Prop}
    (hR : Writer.Congruence R) {powers : Powers} {α : Type} {w : Writer α}
    (h : w.Composed powers) (hpages : ¬ powers.pages) : R w w := by
  induction h with
  | pure a => exact hR.pure a
  | throw _ => exact hR.throw _
  | bind _ _ ihw ihk => exact hR.bind ihw ihk
  | push fragment => exact hR.push fragment
  | setSeparator s => exact hR.setSeparator s
  | nextSeparator => exact hR.nextSeparator
  | node kind _ ih => exact hR.node kind ih
  | setCount _ _ hp _ => exact absurd hp hpages
  | capture _ _ ih => exact hR.capture ih
  | addFilter clause _ => exact hR.addFilter clause
  | addOrder refines descending key _ => exact hR.addOrder refines descending key

namespace Expr

/-- The tree has no paging among its parts. -/
def HasNoPaging (e : Expr) : Prop :=
  ∀ t : Expr, t.Within e → t.isPagingStep = false

theorem hasNoPaging_iff (e : Expr) :
    e.HasNoPaging ↔ e.isPagingStep = false ∧ ∀ c ∈ e.children, c.HasNoPaging :=
  forall_within_iff e

/-- **A relation that is respected relates every tree without paging to
    itself.** -/
theorem visit_related {R : ∀ {α : Type}, Writer α → Writer α → Prop} (hR : Writer.Congruence R)
    (ctx : Context) (e : Expr) (h : e.HasNoPaging) :
    (e.operand ctx).Related R (e.operand ctx) := by
  have hparts : e.AllParts (Powers.Suffice { Powers.all with pages := False } ctx) := by
    intro t ht
    refine ⟨fun _ _ => trivial, fun hpaging => ?_, fun _ => trivial⟩
    exact absurd hpaging (Bool.eq_false_iff.mp (h t ht))
  have hcomposed := e.operand_composed hparts
  exact ⟨hcomposed.visit.related hR id, hcomposed.visitBody.related hR id⟩

end Expr

end IssueSearch
