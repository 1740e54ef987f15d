import IssueSearch.Proofs.Chains
import IssueSearch.Proofs.Tokens

/-! # Brackets and quotes that match

    A search text is scanned from left to right.  A quote opens or closes a
    literal, inside a literal a backslash takes the next character as it is,
    and parentheses count outside literals only.

    * `Scan.step`, `Scan.run`: the scan, which fails where a parenthesis is
      closed that was never opened.
    * `WellBracketed`: the scan ends outside any literal, with nothing left
      open.
    * `Draft.At`: the text at hand leaves so many parentheses open, and the
      filter and the order collected so far are well bracketed.
    * `Writer.Leads`: what a writer does to the number of open parentheses,
      with a rule for every way to make a writer.
    * `Expr.compile_wellBracketed`: with quotes escaped, the search of every
      tree is well bracketed. -/

namespace IssueSearch

/-! ## The scan -/

/-- Where a scan stands: outside any literal, inside one, or inside one right
    after a backslash. -/
inductive Place where
  | outside
  | inside
  | escaped
deriving DecidableEq

/-- The state of a scan. -/
structure Scan where
  place : Place
  /-- How many parentheses are open. -/
  depth : Nat
deriving DecidableEq

namespace Scan

/-- The scan before the first character. -/
def start : Scan := { place := .outside, depth := 0 }

/-- One character of the scan.  It fails at a parenthesis that closes nothing. -/
def step (s : Scan) (c : Char) : Option Scan :=
  match s.place with
  | .outside =>
    if c = '"' then some { s with place := .inside }
    else if c = '(' then some { s with depth := s.depth + 1 }
    else if c = ')' then if s.depth = 0 then none else some { s with depth := s.depth - 1 }
    else some s
  | .inside =>
    if c = '"' then some { s with place := .outside }
    else if c = '\\' then some { s with place := .escaped }
    else some s
  | .escaped => some { s with place := .inside }

/-- The scan of several characters. -/
def run (s : Scan) (cs : List Char) : Option Scan :=
  cs.foldlM step s

@[simp] theorem run_nil (s : Scan) : s.run [] = some s := rfl

@[simp] theorem run_cons (s : Scan) (c : Char) (cs : List Char) :
    s.run (c :: cs) = (s.step c).bind fun t => t.run cs := rfl

theorem run_append (s : Scan) (xs ys : List Char) :
    s.run (xs ++ ys) = (s.run xs).bind fun t => t.run ys :=
  List.foldlM_append

/-- With more parentheses open beforehand, as many more are open afterwards. -/
theorem step_deeper {s t : Scan} {c : Char} (h : s.step c = some t) (extra : Nat) :
    ({ s with depth := s.depth + extra } : Scan).step c =
      some { t with depth := t.depth + extra } := by
  obtain ⟨place, depth⟩ := s
  cases place with
  | outside =>
    -- the depth is looked at only where a parenthesis is closed
    by_cases hclose : c = ')'
    · subst hclose
      cases depth with
      | zero => simp [step] at h
      | succ n =>
        obtain rfl : { place := .outside, depth := n } = t := by simpa [step] using h
        simp [step, Nat.add_right_comm]
    · simp only [step, hclose, if_false] at h ⊢
      grind
  | inside =>
    simp only [step] at h ⊢
    grind
  | escaped =>
    obtain rfl : { place := .inside, depth := depth } = t := by simpa [step] using h
    rfl

theorem run_deeper {s t : Scan} {cs : List Char} (h : s.run cs = some t) (extra : Nat) :
    ({ s with depth := s.depth + extra } : Scan).run cs =
      some { t with depth := t.depth + extra } := by
  induction cs generalizing s with
  | nil =>
    obtain rfl : s = t := by simpa using h
    rfl
  | cons c rest ih =>
    obtain ⟨next, hstep, hrest⟩ := Option.bind_eq_some_iff.mp h
    rw [run_cons, step_deeper hstep extra]
    exact ih hrest

end Scan

/-! ## Texts -/

/-- Outside literals the text takes the number of open parentheses from the
    first number to the second, and it ends outside literals. -/
def Passes (text : String) (k m : Nat) : Prop :=
  Scan.run { place := .outside, depth := k } text.toList =
    some { place := .outside, depth := m }

instance (text : String) (k m : Nat) : Decidable (Passes text k m) :=
  inferInstanceAs (Decidable (_ = _))

/-- Every literal of the text ends, and every parenthesis outside literals is
    closed exactly once and after it was opened. -/
def WellBracketed (text : String) : Prop := Passes text 0 0

instance (text : String) : Decidable (WellBracketed text) :=
  inferInstanceAs (Decidable (Passes text 0 0))

theorem Passes.append {s t : String} {k l m : Nat} (hs : Passes s k l) (ht : Passes t l m) :
    Passes (s ++ t) k m := by
  unfold Passes at *
  rw [String.toList_append, Scan.run_append, hs]
  exact ht

theorem Passes.deeper {t : String} {k m : Nat} (h : Passes t k m) (extra : Nat) :
    Passes t (k + extra) (m + extra) :=
  Scan.run_deeper h extra

/-- A text that is well bracketed may stand anywhere outside literals. -/
theorem WellBracketed.passes {t : String} (h : WellBracketed t) (k : Nat) : Passes t k k := by
  simpa using Passes.deeper h k

theorem WellBracketed.append {s t : String} (hs : WellBracketed s) (ht : WellBracketed t) :
    WellBracketed (s ++ t) :=
  Passes.append hs ht

theorem wellBracketed_empty : WellBracketed "" := rfl

theorem passes_open (k : Nat) : Passes "(" k (k + 1) := rfl

theorem passes_close (k : Nat) : Passes ")" (k + 1) k := rfl

/-- A text in parentheses. -/
theorem WellBracketed.parenthesised {t : String} (h : WellBracketed t) :
    WellBracketed ("(" ++ t ++ ")") :=
  ((passes_open 0).append (h.passes 1)).append (passes_close 0)

/-! ### Names and literals -/

/-- The name has no quote, no backslash and no parenthesis. -/
def IsPlainName (name : String) : Prop :=
  ∀ c ∈ name.toList, c ≠ '"' ∧ c ≠ '\\' ∧ c ≠ '(' ∧ c ≠ ')'

instance (name : String) : Decidable (IsPlainName name) :=
  List.decidableBAll (fun c => c ≠ '"' ∧ c ≠ '\\' ∧ c ≠ '(' ∧ c ≠ ')') name.toList

/-- The title has no quote and no backslash. -/
def IsPlainTitle (title : String) : Prop :=
  ∀ c ∈ title.toList, c ≠ '"' ∧ c ≠ '\\'

instance (title : String) : Decidable (IsPlainTitle title) :=
  List.decidableBAll (fun c => c ≠ '"' ∧ c ≠ '\\') title.toList

/-- A plain name leaves the scan where it is. -/
theorem IsPlainName.wellBracketed {name : String} (h : IsPlainName name) :
    WellBracketed name := by
  have hrun : ∀ cs : List Char, (∀ c ∈ cs, c ≠ '"' ∧ c ≠ '\\' ∧ c ≠ '(' ∧ c ≠ ')') →
      Scan.start.run cs = some Scan.start := by
    intro cs hcs
    induction cs with
    | nil => rfl
    | cons c rest ih =>
      obtain ⟨hquote, _, hopen, hclose⟩ := hcs c List.mem_cons_self
      have hstep : Scan.start.step c = some Scan.start := by
        simp [Scan.step, Scan.start, hquote, hopen, hclose]
      rw [Scan.run_cons, hstep]
      exact ih fun d hd => hcs d (List.mem_cons_of_mem c hd)
  exact hrun name.toList h

/-- Escaped characters stay inside the literal they stand in. -/
theorem Scan.run_escape (k : Nat) (cs : List Char) :
    ({ place := .inside, depth := k } : Scan).run (Literal.escape cs) =
      some { place := .inside, depth := k } := by
  induction cs with
  | nil => rfl
  | cons c rest ih =>
    by_cases hc : c = '"' ∨ c = '\\'
    · have hbackslash : Scan.step { place := .inside, depth := k } '\\' =
          some { place := .escaped, depth := k } := rfl
      have htaken : Scan.step { place := .escaped, depth := k } c =
          some { place := .inside, depth := k } := rfl
      -- the backslash in front keeps the character from ending the literal
      rw [Literal.escape, if_pos hc, run_cons, hbackslash, Option.bind_some, run_cons, htaken]
      exact ih
    · obtain ⟨hquote, hslash⟩ := not_or.mp hc
      have hstep : Scan.step { place := .inside, depth := k } c =
          some { place := .inside, depth := k } := by
        simp [Scan.step, hquote, hslash]
      rw [Literal.escape, if_neg hc, run_cons, hstep]
      exact ih

theorem wellBracketed_quoted (s : String) : WellBracketed (Literal.quoted true s) := by
  have hopen : Scan.step { place := .outside, depth := 0 } '"' =
      some { place := .inside, depth := 0 } := rfl
  unfold WellBracketed Passes
  rw [Literal.quoted_toList, Scan.run_cons, hopen, Option.bind_some, Scan.run_append,
    Scan.run_escape]
  rfl

/-- Unescaped, a quote in the text ends the literal too early. -/
example : ¬ WellBracketed (Literal.quoted false "say \"(\"") := by decide

/-- A title in quotes needs no escaping. -/
theorem IsPlainTitle.wellBracketed {title : String} (h : IsPlainTitle title) :
    WellBracketed (titledField title).remoteName := by
  have hquoted : (titledField title).remoteName = Literal.quoted true title := by
    simp [titledField, Literal.quoted, Literal.escape_eq_self h]
  rw [hquoted]
  exact wellBracketed_quoted title

theorem wellBracketed_intText (n : Int) : WellBracketed (Number.intText n) := by
  have hdigit : ∀ c : Char, c.isDigit = true → c ≠ '"' ∧ c ≠ '\\' ∧ c ≠ '(' ∧ c ≠ ')' := by
    intro c hc
    refine ⟨?_, ?_, ?_, ?_⟩ <;> rintro rfl <;> exact absurd hc (by decide)
  have hnat : ∀ m : Nat, IsPlainName (Number.natText m) := by
    intro m c hc
    rw [Number.natText, String.toList_ofList] at hc
    exact hdigit c (Nat.isDigit_of_mem_toDigits (by decide) (by decide) hc)
  unfold Number.intText
  split
  · exact WellBracketed.append (by decide) (hnat _).wellBracketed
  · exact (hnat _).wellBracketed

theorem wellBracketed_item (type : DataType) (value : Value) :
    WellBracketed (Literal.item true type value) := by
  rw [Token.item_eq_text]
  cases Token.ofValue type value with
  | quoted content => exact wellBracketed_quoted content
  | number n => exact wellBracketed_intText n

theorem wellBracketed_separator (s : Separator) : WellBracketed s.text := by
  cases s <;> decide

theorem wellBracketed_list (type : DataType) (items : List Value) :
    WellBracketed (Literal.list true type items) := by
  have hitems : ∀ s, WellBracketed (Literal.itemsFrom true type s items) := by
    induction items with
    | nil => exact fun _ => wellBracketed_empty
    | cons value rest ih =>
      intro s
      exact ((wellBracketed_separator s).append (wellBracketed_item type value)).append (ih .later)
  exact hitems .first

theorem wellBracketed_scalar (type : DataType) (value : Value) :
    WellBracketed (Literal.scalar true type value) := by
  unfold Literal.scalar
  split
  · exact wellBracketed_empty
  · exact wellBracketed_empty
  · exact wellBracketed_list _ _
  · exact wellBracketed_item _ _

/-- The server's names of its functions are plain. -/
theorem isPlainName_writtenName {name : String} (h : IsPlainName name) :
    IsPlainName (Remote.writtenName name) := by
  have htable : ∀ row ∈ Remote.plainFunctions ++ Remote.unaryFunctions, IsPlainName row.2 := by
    decide
  unfold Remote.writtenName
  cases hserver : Remote.serverName? name with
  | none => exact h
  | some written =>
    obtain ⟨before, after, heq, _⟩ := List.lookup_eq_some_iff.mp hserver
    exact htable (name, written) (by rw [heq]; simp)

/-! ## Writers -/

/-- The text at hand leaves `k` parentheses open, and the filter and the order
    clause are well bracketed. -/
structure Draft.At (d : Draft) (k : Nat) : Prop where
  out    : Passes d.out 0 k
  filter : ∀ clause ∈ d.filter, WellBracketed clause
  order  : WellBracketed d.order

theorem Draft.blank_at : Draft.blank.At 0 where
  out := wellBracketed_empty
  filter := by rintro _ ⟨⟩
  order := wellBracketed_empty

theorem Draft.At.withCount {d : Draft} {k : Nat} (h : d.At k) (n : UInt32) (slot : PageSlot) :
    (d.withCount n slot).At k := by
  cases slot <;> exact ⟨h.out, h.filter, h.order⟩

/-- The search of a draft that leaves nothing open. -/
theorem Draft.At.search {d : Draft} (h : d.At 0) : WellBracketed d.search.text := by
  have hfilter : WellBracketed (d.filter.getD "") := by
    cases hd : d.filter with
    | none => exact wellBracketed_empty
    | some clause => exact h.filter clause hd
  exact (hfilter.append h.out).append h.order

namespace Writer

variable {α β : Type} {k l m : Nat}

/-- From a draft that leaves `k` parentheses open the writer leads to one that
    leaves `m` open, and to a result with the given property, unless it
    fails. -/
def Leads (w : Writer α) (k m : Nat) (Q : α → Prop) : Prop :=
  ∀ (d f : Draft) (a : α), d.At k → w d = .ok a f → f.At m ∧ Q a

/-- The writer closes what it opens. -/
def IsBalanced (w : Writer Unit) : Prop :=
  ∀ k, w.Leads k k fun _ => True

/-! ### Elementary writers -/

theorem leads_pure {a : α} {Q : α → Prop} (h : Q a) : (pure a : Writer α).Leads k k Q := by
  intro d f b hd hrun
  cases hrun
  exact ⟨hd, h⟩

theorem leads_throw (failure : SearchError) (Q : α → Prop) :
    (throw failure : Writer α).Leads k m Q := by
  intro d f a _ hrun
  cases hrun

theorem leads_unsupported (symbol reason : String) (Q : α → Prop) :
    (unsupported symbol reason : Writer α).Leads k m Q :=
  leads_throw _ Q

theorem leads_ofExcept (outcome : Except SearchError α) :
    (ofExcept outcome).Leads k k fun _ => True := by
  cases outcome with
  | ok a => exact leads_pure trivial
  | error failure => exact leads_throw failure _

theorem Leads.bind {w : Writer α} {c : α → Writer β} {Q : α → Prop} {R : β → Prop}
    (hw : w.Leads k l Q) (hc : ∀ a, Q a → (c a).Leads l m R) : (w >>= c).Leads k m R := by
  intro d f b hd hrun
  obtain ⟨a, g, hfirst, hrest⟩ := ok_of_bind hrun
  obtain ⟨hg, ha⟩ := hw d g a hd hfirst
  exact hc a ha g f b hg hrest

/-- Two writers in succession, where the first one has no result to speak of. -/
theorem Leads.seq {v : Writer Unit} {w : Writer β} {R : β → Prop}
    (hv : v.Leads k l fun _ => True) (hw : w.Leads l m R) : (do v; w).Leads k m R :=
  hv.bind fun _ _ => hw

theorem Leads.ite {c : Prop} [Decidable c] {v w : Writer α} {Q : α → Prop}
    (hv : v.Leads k m Q) (hw : w.Leads k m Q) : (if c then v else w).Leads k m Q := by
  split
  · exact hv
  · exact hw

/-- A change of the draft. -/
theorem leads_modify {change : Draft → Draft} (h : ∀ d : Draft, d.At k → (change d).At m) :
    (modify change : Writer Unit).Leads k m fun _ => True := by
  intro d f _ hd hrun
  cases hrun
  exact ⟨h d hd, trivial⟩

theorem leads_push {fragment : String} (h : Passes fragment k m) :
    (push fragment).Leads k m fun _ => True := by
  refine leads_modify fun d hd => ?_
  split
  · -- an empty piece leaves everything as it is
    rename_i hempty
    subst hempty
    obtain rfl : k = m := by simpa [Passes] using h
    exact hd
  · exact ⟨hd.out.append h, hd.filter, hd.order⟩

theorem isBalanced_push {fragment : String} (h : WellBracketed fragment) :
    (push fragment).IsBalanced :=
  fun k => leads_push (h.passes k)

/-- Nothing but the separator is changed. -/
theorem leads_setSeparator (s : Separator) :
    (modify fun d => { d with separator := s } : Writer Unit).Leads k k fun _ => True :=
  leads_modify fun _ hd => ⟨hd.out, hd.filter, hd.order⟩

theorem leads_resetSeparator : resetSeparator.Leads k k fun _ => True :=
  leads_setSeparator .first

theorem leads_nextSeparator : nextSeparator.Leads k k WellBracketed := by
  intro d f lead hd hrun
  cases hrun
  exact ⟨⟨hd.out, hd.filter, hd.order⟩, wellBracketed_separator _⟩

theorem IsBalanced.node {w : Writer Unit} (h : w.IsBalanced) (kind : String) :
    (Writer.node kind w).IsBalanced := by
  intro k
  unfold Writer.node
  -- the depth of the node and the record are no part of the text
  exact Leads.seq (leads_modify fun _ hd => ⟨hd.out, hd.filter, hd.order⟩)
    ((h k).seq (leads_modify fun _ hd => ⟨hd.out, hd.filter, hd.order⟩))

/-- What is written on a clean sheet is well bracketed, and the text at hand is
    left alone. -/
theorem IsBalanced.capture {w : Writer Unit} (h : w.IsBalanced) :
    (Writer.capture w).Leads k k WellBracketed := by
  intro d f inner hd hrun
  obtain ⟨g, hw, rfl, rfl⟩ := ok_of_capture hrun
  -- a step inside the clause may still add to the filter and the order
  have hclean : ({ d with out := "" } : Draft).At 0 :=
    ⟨wellBracketed_empty, hd.filter, hd.order⟩
  obtain ⟨hg, -⟩ := h 0 _ g () hclean hw
  exact ⟨⟨hd.out, hg.filter, hg.order⟩, hg.out⟩

theorem leads_addFilter {clause : String} (h : WellBracketed clause) :
    (addFilter clause).Leads k k fun _ => True := by
  refine leads_modify fun d hd => ⟨hd.out, ?_, hd.order⟩
  rintro _ ⟨⟩
  split
  · rename_i before hbefore
    have hboth := ((hd.filter before hbefore).append
      (show WellBracketed " AND " by decide)).append h
    simpa [String.append_assoc] using hboth.parenthesised
  · exact h

theorem leads_addOrder (refines descending : Bool) {key : String} (h : WellBracketed key) :
    (addOrder refines descending key).Leads k k fun _ => True := by
  refine leads_modify fun d hd => ⟨hd.out, hd.filter, ?_⟩
  have hclause : WellBracketed
      (if refines && d.order != "" then d.order ++ ", " ++ key else " order by " ++ key) := by
    split
    · exact (hd.order.append (by decide)).append h
    · exact WellBracketed.append (by decide) h
  dsimp only
  split
  · exact hclause.append (by decide)
  · exact hclause

theorem isBalanced_constant (value : Value) (type : DataType) :
    (constant true value type).IsBalanced := by
  intro k
  unfold constant
  split
  · exact leads_pure trivial
  · exact leads_pure trivial
  · exact leads_pure trivial
  · -- a list, whose items are separated from each other as well
    exact leads_nextSeparator.bind fun lead hlead => (leads_setSeparator _).seq
      ((isBalanced_push hlead k).seq (isBalanced_push (wellBracketed_list _ _) k))
  · exact leads_nextSeparator.bind fun lead hlead =>
      (isBalanced_push hlead k).seq (isBalanced_push (wellBracketed_scalar _ _) k)

end Writer

/-- However the operand is written, what is opened is closed. -/
structure Operand.IsBalanced (o : Operand) : Prop where
  visit     : o.visit.IsBalanced
  visitBody : o.visitBody.IsBalanced

namespace Writer

variable {k : Nat} {left right : Operand} {operands : List Operand}

/-- What follows a receiver may rely on its operands. -/
theorem leads_receiver {β : Type} {m : Nat} {R : β → Prop} {name : String}
    {c : Operand × List Operand → Writer β} (h : ∀ o ∈ operands, o.IsBalanced)
    (hc : ∀ first rest, first.IsBalanced → (∀ o ∈ rest, o.IsBalanced) →
      (c (first, rest)).Leads k m R) :
    (receiver name operands >>= c).Leads k m R := by
  cases operands with
  | nil =>
    have hnone : (receiver name []).Leads k k fun _ => False := leads_unsupported _ _ _
    exact hnone.bind fun _ hfalse => hfalse.elim
  | cons first rest =>
    rw [receiver, pure_bind]
    exact hc first rest (h first List.mem_cons_self) fun o ho => h o (List.mem_cons_of_mem first ho)

/-! ### Operators -/

/-- Whatever stands between parentheses is one level deeper. -/
theorem isBalanced_connective {word : String} (hword : WellBracketed word)
    (hleft : left.IsBalanced) (hright : right.IsBalanced) :
    (connective word left right).IsBalanced := by
  intro k
  have hinside : (do left.visit; push word; right.visit; push ")").Leads (k + 1) k
      fun _ => True :=
    (hleft.visit (k + 1)).seq ((isBalanced_push hword (k + 1)).seq
      ((hright.visit (k + 1)).seq (leads_push (passes_close k))))
  exact (leads_push (passes_open k)).seq hinside

theorem isBalanced_comparison {word : String} (hword : WellBracketed word)
    (hleft : left.IsBalanced) (hright : right.IsBalanced) :
    (comparison word left right).IsBalanced := fun k =>
  (hleft.visit k).seq ((isBalanced_push hword k).seq
    (leads_resetSeparator.seq (hright.visit k)))

theorem wellBracketed_presence (p : Presence) : WellBracketed p.words := by
  cases p <;> decide

theorem wellBracketed_equalityWord (isText negated : Bool) :
    WellBracketed (equalityWord isText negated) := by
  cases isText <;> cases negated <;> decide

theorem isBalanced_equality (fields : FieldTable) (op : BinaryOp) (negated : Bool)
    (hleft : left.IsBalanced) (hright : right.IsBalanced) :
    (equality fields op negated left right).IsBalanced := by
  intro k
  unfold equality
  refine (leads_ofExcept _).bind fun field _ => .ite (leads_unsupported _ _ _) ?_
  refine (hleft.visit k).seq ?_
  dsimp only
  split
  · exact isBalanced_push (wellBracketed_presence _) k
  · exact (isBalanced_push (wellBracketed_equalityWord _ _) k).seq
      (leads_resetSeparator.seq (hright.visit k))

theorem isBalanced_binary (ctx : Context) (op : BinaryOp) (hleft : left.IsBalanced)
    (hright : right.IsBalanced) : (binary ctx op left right).IsBalanced := by
  cases op with
  | and | andAlso => exact isBalanced_connective (by decide) hleft hright
  | or | orElse =>
    refine isBalanced_connective ?_ hleft hright
    split <;> decide
  | equal | notEqual => exact isBalanced_equality _ _ _ hleft hright
  | lessThan | lessThanOrEqual | greaterThan | greaterThanOrEqual =>
    exact isBalanced_comparison (by decide) hleft hright
  | add | subtract | multiply | divide | modulo => exact fun k => leads_unsupported _ _ _

/-! ### Steps of a query -/

theorem isBalanced_filterStep (name : String) (h : ∀ o ∈ operands, o.IsBalanced) :
    (filterStep name operands).IsBalanced := by
  intro k
  refine leads_receiver h fun source rest hsource hrest => (hsource.visit k).seq ?_
  cases rest with
  | nil => exact leads_unsupported _ _ _
  | cons predicate _ =>
    have hpredicate := hrest predicate List.mem_cons_self
    exact leads_resetSeparator.seq
      (hpredicate.visitBody.capture.bind fun clause hclause => leads_addFilter hclause)

theorem isBalanced_sortStep (name : String) (step : SortStep)
    (h : ∀ o ∈ operands, o.IsBalanced) : (sortStep name step operands).IsBalanced := by
  intro k
  refine leads_receiver h fun source rest hsource hrest => (hsource.visit k).seq ?_
  cases rest with
  | nil => exact leads_unsupported _ _ _
  | cons key _ =>
    have hkey := hrest key List.mem_cons_self
    exact hkey.visitBody.capture.bind fun text htext => leads_addOrder _ _ htext

theorem leads_setCount (name : String) (slot : PageSlot) (n : UInt32) :
    (setCount name slot n).Leads k k fun _ => True := by
  intro d f u hd hrun
  obtain ⟨_, rfl⟩ := ok_of_setCount hrun
  exact ⟨hd.withCount n slot, trivial⟩

/-- A paging step writes what it is applied to.  The count that it takes and
    fills in is no text. -/
theorem isBalanced_pagingStep (name : String) (slot : PageSlot)
    (h : ∀ o ∈ operands, o.IsBalanced) : (pagingStep name slot operands).IsBalanced := by
  intro k
  refine leads_receiver h fun source rest hsource _ => (hsource.visit k).seq ?_
  have hcount : (pageCount name rest).Leads k k fun _ => True := by
    unfold pageCount
    split
    · exact leads_pure trivial
    · exact leads_unsupported _ _ _
  exact hcount.bind fun n _ => leads_setCount name slot n

theorem isBalanced_operator (name : String) (op : Operator) (h : ∀ o ∈ operands, o.IsBalanced) :
    (operator name op operands).IsBalanced := by
  cases op with
  | filter => exact isBalanced_filterStep name h
  | sort step => exact isBalanced_sortStep name step h
  | skip => exact isBalanced_pagingStep name .startAt h
  | take => exact isBalanced_pagingStep name .maxResults h
  | select | count | any | first | firstOrDefault | toList | distinct =>
    exact fun k => leads_receiver h fun source _ hsource _ => hsource.visit k

/-! ### Words -/

theorem isBalanced_presence (p : Presence) (h : ∀ o ∈ operands, o.IsBalanced) :
    (presence p operands).IsBalanced := fun k =>
  leads_receiver h fun _ _ hsubject _ =>
    (hsubject.visit k).seq (isBalanced_push (wellBracketed_presence p) k)

theorem isBalanced_listItems (h : ∀ o ∈ operands, o.IsBalanced) :
    (listItems operands).IsBalanced := by
  intro k
  induction operands with
  | nil => exact leads_pure trivial
  | cons item rest ih =>
    have hitem := h item List.mem_cons_self
    have hrest := ih fun o ho => h o (List.mem_cons_of_mem item ho)
    have hboth : (do item.visit; listItems rest).Leads k k fun _ => True :=
      (hitem.visit k).seq hrest
    unfold listItems
    exact .ite (leads_nextSeparator.bind fun lead hlead => (isBalanced_push hlead k).seq hboth)
      hboth

/-- The words before a list open the parenthesis that follows the list. -/
theorem passes_membership (m : Membership) (k : Nat) : Passes m.words k (k + 1) := by
  have hwords : Passes m.words 0 1 := by cases m <;> decide
  simpa [Nat.add_comm] using hwords.deeper k

theorem isBalanced_membership (m : Membership) (h : ∀ o ∈ operands, o.IsBalanced) :
    (membership m operands).IsBalanced := by
  intro k
  refine leads_receiver h fun field items hfield hitems => .ite (leads_unsupported _ _ _) ?_
  have hlist : (do resetSeparator; listItems items; push ")").Leads (k + 1) k fun _ => True :=
    leads_resetSeparator.seq ((isBalanced_listItems hitems (k + 1)).seq
      (leads_push (passes_close k)))
  exact (hfield.visit k).seq ((leads_push (passes_membership m k)).seq hlist)

theorem isBalanced_qualifiers (h : ∀ o ∈ operands, o.IsBalanced) :
    (qualifiers operands).IsBalanced := by
  intro k
  induction operands with
  | nil => exact leads_pure trivial
  | cons q rest ih =>
    have hq := h q List.mem_cons_self
    have hrest := ih fun o ho => h o (List.mem_cons_of_mem q ho)
    exact (isBalanced_push (by decide) k).seq (leads_resetSeparator.seq ((hq.visit k).seq hrest))

theorem isBalanced_pastValue {value : Operand} (h : value.IsBalanced) :
    (pastValue value).IsBalanced := by
  unfold pastValue
  split
  · exact isBalanced_push (by decide)
  · exact h.visit

theorem isBalanced_history (past : History) (h : ∀ o ∈ operands, o.IsBalanced) :
    (history past operands).IsBalanced := by
  intro k
  have hwords : WellBracketed past.words := by cases past <;> decide
  refine leads_receiver h fun field rest hfield hrest => (hfield.visit k).seq ?_
  cases past with
  | changed => exact (isBalanced_push hwords k).seq (isBalanced_qualifiers hrest k)
  | was | wasNot =>
    cases rest with
    | nil => exact leads_unsupported _ _ _
    | cons value more =>
      have hvalue := hrest value List.mem_cons_self
      have hmore := isBalanced_qualifiers fun o ho => hrest o (List.mem_cons_of_mem value ho)
      exact (isBalanced_push hwords k).seq (leads_resetSeparator.seq
        ((isBalanced_pastValue hvalue k).seq (hmore k)))

theorem isBalanced_bounds (q : Qualifier) (h : ∀ o ∈ operands, o.IsBalanced) :
    (bounds q operands).IsBalanced := by
  intro k
  unfold bounds
  split
  · rename_i low high
    have hlow := h low (by simp)
    have hhigh := h high (by simp)
    exact (leads_push (passes_open k)).seq ((hlow.visit (k + 1)).seq
      ((hhigh.visit (k + 1)).seq (leads_push (passes_close k))))
  · exact leads_pure trivial
  · rename_i bound _
    exact (h bound (by simp)).visit k
  · exact leads_pure trivial

theorem isBalanced_subject {o? : Option Operand} (h : ∀ o ∈ o?, o.IsBalanced) :
    (subject o?).IsBalanced := by
  intro k
  cases o? with
  | none => exact leads_pure trivial
  | some o => exact ((h o rfl).visit k).seq (isBalanced_push (by decide) k)

theorem isBalanced_qualifier (q : Qualifier) (hasTarget : Bool)
    (h : ∀ o ∈ operands, o.IsBalanced) : (qualifier q hasTarget operands).IsBalanced := by
  intro k
  have hname : WellBracketed q.name := by cases q <;> decide
  obtain ⟨hsubject, hlimits⟩ := mem_of_splitSubject q hasTarget operands
  refine .ite (leads_unsupported _ _ _) ?_
  refine (isBalanced_subject (fun o ho => h o (hsubject o ho)) k).seq ?_
  refine (isBalanced_push hname k).seq ((isBalanced_push (by decide) k).seq ?_)
  exact leads_resetSeparator.seq (isBalanced_bounds q (fun o ho => h o (hlimits o ho)) k)

theorem isBalanced_remoteFunction {name : String} (hname : IsPlainName name)
    (h : ∀ o ∈ operands, o.IsBalanced) : (remoteFunction name operands).IsBalanced := by
  intro k
  have hwritten := isBalanced_push (isPlainName_writtenName hname).wellBracketed k
  have hopen := leads_push (passes_open k)
  have hclose := leads_push (passes_close k)
  match operands, h with
  | [], _ => exact hwritten.seq (hopen.seq hclose)
  | [arg], h =>
    exact hwritten.seq (hopen.seq (leads_resetSeparator.seq
      (((h arg (by simp)).visit (k + 1)).seq hclose)))
  | _ :: _ :: _, _ => exact leads_unsupported _ _ _

end Writer

/-! ## Trees -/

namespace Expr

/-- What the node hands to the server in words of its own is plain: the name of
    a remote function, and the title of a field. -/
def HasPlainName : Expr → Prop
  | call target method args =>
    method.remote = true → IsPlainName method.name ∧
      (method.name = Remote.customField →
        ∀ title ∈ title? (operands target args), IsPlainTitle title)
  | _ => True

/-- All nodes of the tree name what they name plainly. -/
def HasPlainNames (e : Expr) : Prop :=
  e.AllParts HasPlainName

end Expr

namespace Writer

theorem isBalanced_call {ctx : Context} {target : Option Expr} {method : Method}
    {args : List Expr} (hasTarget : Bool) (hname : (Expr.call target method args).HasPlainName)
    (h : ∀ c ∈ Expr.operands target args, (c.operand ctx).IsBalanced) :
    (call method hasTarget ((Expr.operands target args).map (Expr.operand ctx))).IsBalanced := by
  have hoperands : ∀ o ∈ (Expr.operands target args).map (Expr.operand ctx), o.IsBalanced :=
    List.forall_mem_map.mpr h
  have hexprs : ((Expr.operands target args).map (Expr.operand ctx)).map Operand.expr =
      Expr.operands target args := by
    simp [Function.comp_def, Expr.operand_expr]
  unfold call
  split
  · -- for the server: the title of a field, or a function by its name
    rename_i hremote
    obtain ⟨hplain, htitle⟩ := hname hremote
    split
    · rename_i hcustom
      rw [hexprs]
      split
      · rename_i title heq
        exact isBalanced_push (htitle hcustom title heq).wellBracketed
      · exact fun k => leads_throw _ _
    · exact isBalanced_remoteFunction hplain hoperands
  · split
    · exact isBalanced_operator _ _ hoperands
    · exact isBalanced_presence _ hoperands
    · exact isBalanced_membership _ hoperands
    · exact isBalanced_history _ hoperands
    · exact isBalanced_qualifier _ _ hoperands
    · exact fun k => leads_unsupported _ _ _

variable {ctx : Context}

theorem isBalanced_member (hescaping : ctx.options.escaping = true)
    (hfields : ∀ row ∈ ctx.fields.rows, IsPlainName row.2.remoteName) (e : Expr) (p : Property) :
    (member ctx e p).IsBalanced := by
  unfold member
  rw [hescaping]
  split
  · rename_i field hfield
    obtain ⟨before, after, heq, _⟩ := List.lookup_eq_some_iff.mp hfield
    have hplain : IsPlainName field.remoteName := hfields (p, field) (by rw [heq]; simp)
    exact isBalanced_push hplain.wellBracketed
  · split
    · exact isBalanced_constant _ _
    · exact fun k => leads_throw _ _
    · exact fun k => leads_throw _ _

theorem isBalanced_construct (hescaping : ctx.options.escaping = true) (name : String)
    (args : List Operand) : (construct ctx name args).IsBalanced := by
  unfold construct
  rw [hescaping]
  split
  · exact fun k => leads_unsupported _ _ _
  · split
    · exact isBalanced_constant _ _
    · exact fun k => leads_unsupported _ _ _
    · exact fun k => leads_throw _ _

end Writer

theorem Operand.isBalanced_ofNode {ctx : Context} (hescaping : ctx.options.escaping = true)
    (e : Expr) {w : Writer Unit} (h : w.IsBalanced) : (Operand.ofNode ctx e w).IsBalanced := by
  have hvisit : (Operand.ofNode ctx e w).visit.IsBalanced := by
    refine Writer.IsBalanced.node ?_ _
    split
    · rw [hescaping]
      exact Writer.isBalanced_constant _ _
    · exact h
  exact ⟨hvisit, hvisit⟩

namespace Expr

/-- Every tree closes what it opens, however it is written. -/
theorem operand_isBalanced {ctx : Context} (hescaping : ctx.options.escaping = true)
    (hfields : ∀ row ∈ ctx.fields.rows, IsPlainName row.2.remoteName) {e : Expr}
    (h : e.HasPlainNames) : (e.operand ctx).IsBalanced := by
  induction e using induction_on_children with
  | step e ih =>
    obtain ⟨hname, hbelow⟩ := (allParts_iff e).mp h
    have hchildren : ∀ c ∈ e.children, (c.operand ctx).IsBalanced :=
      fun c hc => ih c hc (hbelow c hc)
    have hnode : ∀ w : Writer Unit, w.IsBalanced → (Operand.ofNode ctx e w).IsBalanced :=
      fun w hw => Operand.isBalanced_ofNode hescaping e hw
    cases e with
    | binary op left right =>
      exact hnode _ (Writer.isBalanced_binary ctx op (hchildren left (by simp [children]))
        (hchildren right (by simp [children])))
    | call target method args =>
      refine hnode _ ?_
      rw [callOperands_eq]
      exact Writer.isBalanced_call _ hname hchildren
    | member target p type => exact hnode _ (Writer.isBalanced_member hescaping hfields _ p)
    | constant value type =>
      refine hnode _ ?_
      rw [hescaping]
      exact Writer.isBalanced_constant _ _
    | convert inner type => exact hnode _ (hchildren inner (by simp [children])).visit
    | construct name args => exact hnode _ (Writer.isBalanced_construct hescaping name _)
    | parameter param => exact hnode _ fun k => Writer.leads_unsupported _ _ _
    | lambda params body =>
      have hbody := hchildren body (by simp [children])
      -- as the operand of a step a function is written as its body
      exact ⟨(hnode _ hbody.visit).visit, hbody.visit⟩
    | quote inner =>
      have hinner := hchildren inner (by simp [children])
      exact ⟨(hnode _ hinner.visit).visit, hinner.visitBody⟩

/-- **Brackets and quotes match**: with quotes escaped, and with names that hold
    none of the characters that matter to the scan, every search text leaves
    the scan outside any literal and with every parenthesis closed, however
    odd the tree. -/
theorem compile_wellBracketed (ctx : Context) (e : Expr) (hescaping : ctx.options.escaping = true)
    (hfields : ∀ row ∈ ctx.fields.rows, IsPlainName row.2.remoteName) (hnames : e.HasPlainNames)
    (search : Search) (h : e.compile ctx = .ok search) : WellBracketed search.text := by
  obtain ⟨d, hvisit, rfl⟩ := visit_of_compile ctx h
  have hbalanced := (operand_isBalanced hescaping hfields hnames).visit
  obtain ⟨hd, -⟩ := hbalanced 0 .blank d () Draft.blank_at hvisit
  exact hd.search

/-- The sample context, with quotes escaped. -/
def escapedVoting : Context :=
  { Chain.votingContext with options := { tightOr := false, escaping := true } }

/-- A filter whose predicate holds another filter, and a title and a value with
    characters that would open and close something outside literals. -/
def nestedFilter : Expr :=
  let voted := Step.extend "Issue" (source "Issue")
    (.filter (.binary .greaterThan (Chain.votedItem.field "Votes") (ofValue (.int 3))))
  Step.extend "Issue" (source "Issue")
    (.filter (.binary .andAlso
      (.binary .equal (Chain.votedItem.customField "Team (a") (ofValue (.str ")\"\\(")))
      voted))

theorem compile_wellBracketed_nestedFilter :
    (∀ row ∈ escapedVoting.fields.rows, IsPlainName row.2.remoteName) ∧
    nestedFilter.HasPlainNames ∧
    nestedFilter.compile escapedVoting = .ok
      { text       := "(votes > 3 AND (\"Team (a\" ~ \")\\\"\\\\(\" AND ))"
        startAt    := none
        maxResults := none } ∧
    WellBracketed "(votes > 3 AND (\"Team (a\" ~ \")\\\"\\\\(\" AND ))" := by
  have hfields : ∀ row ∈ escapedVoting.fields.rows, IsPlainName row.2.remoteName := by decide
  have hcustom : IsPlainName Remote.customField := by decide
  have htitle : IsPlainTitle "Team (a" := by decide
  have hnames : nestedFilter.HasPlainNames := by
    simp [HasPlainNames, nestedFilter, Step.extend, Step.args, itemLambda, source, ofValue, field,
      typedField, customField, Chain.votedItem, operands, HasPlainName, title?, asConstant?,
      hcustom, htitle]
  exact ⟨hfields, hnames, rfl,
    compile_wellBracketed escapedVoting nestedFilter rfl hfields hnames _ rfl⟩

end Expr

end IssueSearch
