import IssueSearch.Proofs.Commas

/-! # Lists in a search text

    A field may be tested against a list of constants and of functions of the
    server.  Each item is written as it is on its own, and a comma stands before
    it if the item before it left one.  A function with an argument starts its
    own list, and what that list leaves is left to the next item.

    * `Operand.IsItem`: how an item is written, and what it leaves.
    * `Expr.listText`: the texts of items with the separators that they leave.
    * `Expr.compile_membership`: the text of a list, and when it is the texts of
      its items with commas between them. -/

namespace IssueSearch

/-! ## Items -/

namespace Operand

/-- As an item of a list the operand is written as the text after a separator, and
    leaves the given separator to the next item. -/
inductive IsItem (o : Operand) (text : String) : Separator → Prop
  /-- It takes the separator itself. -/
  | constant (hvalue : o.value?.isNone = false)
      (hemits : ∀ s, o.visit.Emits s (.ok ⟨(), s.text ++ text, .later⟩)) : IsItem o text .later
  /-- The separator is taken for it. -/
  | other {next : Separator} (hvalue : o.value?.isNone = true)
      (hemits : o.visit.Emits .later (.ok ⟨(), text, next⟩)) : IsItem o text next

/-- An item is followed by what the separator it leaves makes of the others. -/
theorem IsItem.writes {o : Operand} {rest : List Operand} {text more : String} {next : Separator}
    (h : o.IsItem text next) (hrest : (Writer.listItems rest).Writes next more) (s : Separator) :
    (Writer.listItems (o :: rest)).Writes s (s.text ++ text ++ more) := by
  unfold Writer.listItems
  cases h with
  | constant hvalue hemits =>
    rw [hvalue, if_neg (by simp)]
    exact (hemits s).writes (k := fun _ => Writer.listItems rest) hrest
  | other hvalue hemits =>
    rw [hvalue, if_pos rfl]
    have hitem := hemits.writes (k := fun _ => Writer.listItems rest) hrest
    have hlead := (Writer.emits_push s.text .later).writes
      (k := fun _ => do o.visit; Writer.listItems rest) hitem
    have hall := (Writer.emits_nextSeparator s).writes
      (k := fun lead => do Writer.push lead; o.visit; Writer.listItems rest) hlead
    simpa [String.append_assoc] using hall

end Operand

namespace Expr

/-- An item of a list: a constant that leaves something behind, or a function of
    the server whose operands hold no step for the server. -/
inductive IsListItem : Expr → Prop
  | constant {e : Expr} {value : Value} {type : DataType}
      (hconst : e.asConstant? = some (value, type)) (hvalue : value.isBlank = false) :
      IsListItem e
  | function {target : Option Expr} {method : Method} {args : List Expr}
      (hremote : method.remote = true)
      (hoperands : ∀ c ∈ operands target args, c.HasNoServerStep) :
      IsListItem (call target method args)

/-- What the item of a list leaves to the next item. -/
def leaves (ctx : Context) (e : Expr) : Separator := Separator.later.after (e.marks ctx)

/-- The texts of items, each after the separator that the item before it leaves. -/
def listText (ctx : Context) : Separator → List (Expr × String) → String
  | _, []             => ""
  | s, (e, t) :: rest => s.text ++ t ++ listText ctx (e.leaves ctx) rest

section Lists

variable {ctx : Context}

/-- The function of the server starts its list anew, if it has an argument. -/
theorem joins_remote {target : Option Expr} {method : Method} {args : List Expr}
    (h : method.remote = true) : Mark.joins ((call target method args).marks ctx) = false := by
  simp only [marks_call, Method.marks, h, if_true]
  split
  · rfl
  · cases operands target args <;> rfl

theorem hasNoServerStep_remote {target : Option Expr} {method : Method} {args : List Expr}
    (hremote : method.remote = true) (h : ∀ c ∈ operands target args, c.HasNoServerStep) :
    (call target method args).HasNoServerStep := by
  rw [hasNoServerStep_iff]
  refine ⟨?_, h⟩
  rintro _ method' _ ⟨⟩
  simp [isServerStep, hremote]

/-- A constant that leaves something behind is written after its separator. -/
theorem emits_constant {e : Expr} {value : Value} {type : DataType}
    (hconst : e.asConstant? = some (value, type)) (hvalue : value.isBlank = false)
    (s : Separator) :
    (e.operand ctx).visit.Emits s
      (.ok ⟨(), s.text ++ Literal.scalar ctx.options.escaping type value, .later⟩) := by
  rw [visit_of_asConstant? hconst, Writer.constant_eq_literal, Literal.written?_eq, hvalue]
  exact (Writer.emits_separated _ s).node _

/-- An item of a list is written as its text on its own. -/
theorem IsListItem.isItem {e : Expr} (h : e.IsListItem) {text : String}
    (htext : CompilesTo ctx e text) : (e.operand ctx).IsItem text (e.leaves ctx) := by
  obtain ⟨search, hsearch⟩ := exists_compile_of_compilesTo htext
  obtain rfl : search.text = text := by simpa [CompilesTo, hsearch, Except.map] using htext
  cases h with
  | @constant _ value type hconst hvalue =>
    have hleaves : e.leaves ctx = .later := by
      rw [leaves, marks_of_asConstant? ctx hconst, Value.marks, hvalue]
      rfl
    have hemits : ∀ s, (e.operand ctx).visit.Emits s _ := emits_constant hconst hvalue
    have htext : Literal.scalar ctx.options.escaping type value = search.text := by
      rw [compile_of_emits ctx (hemits .first)] at hsearch
      cases hsearch
      simp [Separator.text]
    rw [hleaves, ← htext]
    exact .constant (by simp [value?_operand, hconst]) hemits
  | function hremote hoperands =>
    have hsteps := hasNoServerStep_remote hremote hoperands
    obtain ⟨t, hemits, ht, -, hkeeps⟩ :=
      writes_of_compile (operand_follows ctx hsteps).visit hsearch
    refine .other ?_ ?_
    · simp [value?_operand, asConstant?]
    · rw [← ht, ← hkeeps (joins_remote hremote)]
      exact hemits .later

/-- Items are written one after another, each after the separator left to it. -/
theorem writes_listText {items : List (Expr × String)}
    (h : ∀ i ∈ items, i.1.IsListItem ∧ CompilesTo ctx i.1 i.2) (s : Separator) :
    (Writer.listItems (items.map fun i => i.1.operand ctx)).Writes s (listText ctx s items) := by
  induction items generalizing s with
  | nil => exact ⟨s, Writer.emits_pure () s⟩
  | cons i rest ih =>
    obtain ⟨hitem, htext⟩ := h i List.mem_cons_self
    exact (hitem.isItem htext).writes (ih (fun j hj => h j (List.mem_cons_of_mem i hj)) _) s

theorem IsListItem.not_isEmptyList {e : Expr} (h : e.IsListItem) :
    (e.operand ctx).isEmptyList = false := by
  cases h with
  | @constant _ value type hconst hvalue =>
    simp only [Operand.isEmptyList, value?_operand, hconst, Option.map_some]
    split
    · rename_i hempty
      cases hempty
      cases hvalue
    · rfl
  | function => simp [Operand.isEmptyList, value?_operand, asConstant?]

theorem listText_cons_cons (i j : Expr × String) (rest : List (Expr × String)) :
    listText ctx .first (i :: j :: rest) =
      i.2 ++ (i.1.leaves ctx).text ++ listText ctx .first (j :: rest) := by
  simp [listText, Separator.text, String.append_assoc]

/-- A list has at most the commas that belong between its items. -/
theorem listText_length_le (items : List (Expr × String)) :
    (listText ctx .first items).length ≤ (", ".intercalate (items.map Prod.snd)).length := by
  induction items with
  | nil => simp [listText]
  | cons i rest ih =>
    cases rest with
    | nil => simp [listText, Separator.text]
    | cons j rest =>
      have hlead : (i.1.leaves ctx).text.length ≤ ", ".length := by
        cases i.1.leaves ctx <;> decide
      rw [listText_cons_cons]
      simp only [List.map_cons, String.intercalate_cons_cons, String.length_append] at ih ⊢
      omega

/-- A list has all of these commas if every item leaves one to the next. -/
theorem listText_eq_iff (items : List (Expr × String)) :
    listText ctx .first items = ", ".intercalate (items.map Prod.snd) ↔
      ∀ i ∈ items.dropLast, i.1.leaves ctx = .later := by
  induction items with
  | nil => simp [listText]
  | cons i rest ih =>
    cases rest with
    | nil => simp [listText, Separator.text]
    | cons j rest =>
      rw [listText_cons_cons, List.map_cons, List.map_cons, String.intercalate_cons_cons,
        ← List.map_cons, List.dropLast_cons_cons, List.forall_mem_cons, ← ih]
      cases hleaves : i.1.leaves ctx with
      | first =>
        -- without its comma the text is too short, whatever comes later
        have hle := @listText_length_le ctx (j :: rest)
        constructor
        · intro heq
          have hlength := congrArg String.length heq
          simp only [String.length_append, Separator.text] at hlength
          have hcomma : ", ".length = 2 := rfl
          have hempty : "".length = 0 := rfl
          omega
        · rintro ⟨hlater, -⟩
          cases hlater
      | later => simp [Separator.text, String.append_right_inj]

/-- **Lists**: a test of a field against constants and functions of the server
    that have a search on their own has one too.  Its text is theirs, each after
    what the item before it leaves; and these are commas exactly if no item but
    the last one starts the list anew. -/
theorem compile_membership (ctx : Context) (n : FieldNode ctx.fields) (m : Membership)
    {target : Option Expr} {args : List Expr} (items : List (Expr × String)) (hne : items ≠ [])
    (hoperands : operands target args = n.expr :: items.map Prod.fst)
    (hitems : ∀ i ∈ items, i.1.IsListItem ∧ CompilesTo ctx i.1 i.2) :
    (call target { name := m.name, remote := false } args).compile ctx =
        .ok { text       := n.field.remoteName ++ m.words ++ listText ctx .first items ++ ")"
              startAt    := none
              maxResults := none } ∧
      (listText ctx .first items = ", ".intercalate (items.map Prod.snd) ↔
        ∀ i ∈ items.dropLast, i.1.leaves ctx = .later) := by
  refine ⟨?_, listText_eq_iff items⟩
  have hwrites : ((call target { name := m.name, remote := false } args).operand ctx).visit.Writes
      .first (n.field.remoteName ++ (m.words ++ (listText ctx .first items ++ ")"))) := by
    refine writes_call ?_
    rw [hoperands, Writer.call_membership, List.map_cons, List.map_map]
    -- an item is no list without items, so the list is not refused
    obtain ⟨i, rest, rfl⟩ := List.exists_cons_of_ne_nil hne
    have hfirst : (i.1.operand ctx).isEmptyList = false :=
      (hitems i List.mem_cons_self).1.not_isEmptyList
    show Writer.Writes (if ((i :: rest).map (operand ctx ∘ Prod.fst)).all Operand.isEmptyList then _
      else _) _ _
    rw [if_neg (by simp [hfirst])]
    exact (writes_field n .first).bind fun _ => (Writer.writes_push m.words _).bind fun s =>
      Writer.writes_resetSeparator ((writes_listText hitems .first).bind (Writer.writes_push ")")) s
  obtain ⟨next, hemits⟩ := hwrites
  rw [compile_of_emits ctx hemits]
  simp [Except.map, String.append_assoc]

end Lists

/-- The state of an issue. -/
def statusNode : FieldNode Chain.votingContext.fields :=
  { target   := Chain.votedItem
    property := { owner := "Issue", name := "Status" }
    type     := .any
    field    := { remoteName := "status", abilities := .ofList [], type := .string }
    found    := rfl }

/-- A text, a function, a list and a function of a text, each with its text on
    its own. -/
def mixedItems : List (Expr × String) :=
  [(ofValue (.str "Open"), "\"Open\""),
   (remoteFunction "current_user" none, "currentUser()"),
   (ofValue (.array [.int 3, .str "Done"]), "3, \"Done\""),
   (remoteFunction "members_of" (some (ofValue (.str "devs"))), "membersOf(\"devs\")"),
   (ofValue (.bool true), "\"true\"")]

theorem mixedItems_isListItem : ∀ i ∈ mixedItems,
    i.1.IsListItem ∧ CompilesTo Chain.votingContext i.1 i.2 := by
  have hconstant : ∀ (value : Value) (text : String), value.isBlank = false →
      CompilesTo Chain.votingContext (ofValue value) text →
      (ofValue value).IsListItem ∧ CompilesTo Chain.votingContext (ofValue value) text :=
    fun value text hvalue htext => ⟨.constant rfl hvalue, htext⟩
  simp only [mixedItems, List.forall_mem_cons, List.not_mem_nil, false_imp_iff, implies_true,
    and_true]
  refine ⟨hconstant _ _ rfl rfl, ⟨.function rfl ?_, rfl⟩, hconstant _ _ rfl rfl,
    ⟨.function rfl ?_, rfl⟩, hconstant _ _ rfl rfl⟩
  · simp [operands]
  · simp [operands, ofValue]

theorem compile_membership_mixedItems :
    (∀ i ∈ mixedItems.dropLast, i.1.leaves Chain.votingContext = .later) ∧
    (call (some statusNode.expr) { name := "not_in", remote := false }
      (mixedItems.map Prod.fst)).compile Chain.votingContext = .ok
      { text :=
          "status not in (\"Open\", currentUser(), 3, \"Done\", membersOf(\"devs\"), \"true\")"
        startAt    := none
        maxResults := none } := by
  have hleaves : ∀ i ∈ mixedItems.dropLast, i.1.leaves Chain.votingContext = .later := by
    simp only [mixedItems, List.dropLast_cons_cons, List.dropLast_singleton, List.forall_mem_cons,
      List.not_mem_nil, false_imp_iff, implies_true, and_true]
    exact ⟨rfl, rfl, rfl, rfl⟩
  have hoperands : operands (some statusNode.expr) (mixedItems.map Prod.fst) =
      statusNode.expr :: mixedItems.map Prod.fst := rfl
  obtain ⟨hsearch, hcommas⟩ := compile_membership Chain.votingContext statusNode .notIn mixedItems
    (by simp [mixedItems]) hoperands mixedItems_isListItem
  rw [hcommas.mpr hleaves] at hsearch
  exact ⟨hleaves, hsearch⟩

/-- **A function starts the list anew that it stands in**: after a function whose
    argument is written without a literal, the comma before the next item is
    missing. -/
theorem list_loses_comma :
    let text (e : Expr) := (e.compile Chain.votingContext).toOption.map Search.text
    let members (arg : Expr) := remoteFunction "members_of" (some arg)
    let isIn (items : List Expr) := statusNode.expr.invoke "in" items
    text (members (Chain.votedItem.field "Votes")) = some "membersOf(votes)" ∧
      text (ofValue (.str "Open")) = some "\"Open\"" ∧
      text (isIn [members (Chain.votedItem.field "Votes"), ofValue (.str "Open")]) =
        some "status in (membersOf(votes)\"Open\")" ∧
      text (isIn [members (remoteFunction "current_user" none), ofValue (.str "Open")]) =
        some "status in (membersOf(currentUser())\"Open\")" ∧
      text (isIn [members (ofValue .null), ofValue (.str "Open")]) =
        some "status in (membersOf()\"Open\")" :=
  ⟨rfl, rfl, rfl, rfl, rfl⟩

end Expr

end IssueSearch
