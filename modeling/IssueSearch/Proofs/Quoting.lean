import IssueSearch.Proofs.Brackets
import IssueSearch.Proofs.Phrases

/-! # Texts that stay inside their quotes

    A search text is read from left to right: a quote begins a literal, a
    backslash in a literal takes the next character as it is, and the next other
    quote ends the literal.  A constant text is escaped and is read back as it
    was given, whatever it holds.  The title of a field is put in quotes as it
    is.

    * `Lexeme.scan`: the literals of a text, and the characters outside them.
    * `Literal.plain_of_readQuoted`: which texts can be read back without having
      been escaped.
    * `Expr.AsksTitle`: a question to a titled field with a text as its operand.
    * `Expr.compile_titled`: what is read from the text of such a question, and
      for which titles this is the title, the operator and the operand. -/

namespace IssueSearch

/-! ## Reading quoted texts -/

namespace Literal

/-- A quoted text is read by one character, or by a backslash and the character
    after it. -/
@[elab_as_elim]
theorem quoted_induction {motive : List Char → Prop} (nil : motive [])
    (quote : ∀ rest, motive ('"' :: rest)) (slash : motive ['\\'])
    (escaped : ∀ c rest, motive rest → motive ('\\' :: c :: rest))
    (other : ∀ c rest, c ≠ '"' → c ≠ '\\' → motive rest → motive (c :: rest))
    (cs : List Char) : motive cs := by
  refine readQuoted.induct motive nil quote slash escaped ?_ cs
  intro c rest hquote hlast hslash hrest
  refine other c rest hquote ?_ hrest
  rintro rfl
  cases rest with
  | nil => exact hlast rfl rfl
  | cons d rest => exact hslash d rest rfl rfl

theorem readQuoted_slash (c : Char) (rest : List Char) :
    readQuoted ('\\' :: c :: rest) = (readQuoted rest).map fun r => (c :: r.1, r.2) := rfl

theorem readQuoted_cons {c : Char} (hquote : c ≠ '"') (hslash : c ≠ '\\') (rest : List Char) :
    readQuoted (c :: rest) = (readQuoted rest).map fun r => (c :: r.1, r.2) := by
  simp [readQuoted, hslash]

theorem read_cons_eq_some {read : Option (List Char × List Char)} {c a : Char}
    {content more : List Char}
    (h : read.map (fun r => (c :: r.1, r.2)) = some (a :: content, more)) :
    c = a ∧ read = some (content, more) := by
  obtain ⟨⟨content', more'⟩, rfl, hr⟩ := Option.map_eq_some_iff.mp h
  cases hr
  exact ⟨rfl, rfl⟩

/-- A text in quotes is not read as itself with more in front of it: whatever is
    read, the rest of the text would again be read with more in front of it. -/
theorem readQuoted_ne_append (text ahead rest more : List Char) (hne : ahead ≠ [])
    (hquotes : '"' ∉ ahead) : readQuoted (text ++ '"' :: rest) ≠ some (ahead ++ text, more) := by
  induction text using quoted_induction generalizing ahead with
  | nil => simp [readQuoted, hne.symm]
  | quote text => simp [readQuoted]
  | slash =>
    intro h
    obtain ⟨a, ahead, rfl⟩ := List.exists_cons_of_ne_nil hne
    -- the backslash takes the closing quote, and nothing in front is a quote
    obtain ⟨rfl, -⟩ := read_cons_eq_some h
    exact hquotes List.mem_cons_self
  | escaped c text ih =>
    intro h
    obtain ⟨a, ahead, rfl⟩ := List.exists_cons_of_ne_nil hne
    obtain ⟨rfl, hread⟩ := read_cons_eq_some h
    refine ih (ahead ++ ['\\', c]) (by simp) ?_ (by simpa using hread)
    simp_all
  | other c text hquote hslash ih =>
    intro h
    obtain ⟨a, ahead, rfl⟩ := List.exists_cons_of_ne_nil hne
    rw [List.cons_append, readQuoted_cons hquote hslash] at h
    obtain ⟨rfl, hread⟩ := read_cons_eq_some h
    refine ih (ahead ++ [c]) (by simp) ?_ (by simpa using hread)
    simp_all

/-- **Quotes without escapes**: a text in quotes that is read as itself holds no
    quote and no backslash. -/
theorem plain_of_readQuoted {text rest more : List Char}
    (h : readQuoted (text ++ '"' :: rest) = some (text, more)) :
    ∀ c ∈ text, c ≠ '"' ∧ c ≠ '\\' := by
  induction text using quoted_induction with
  | nil => simp
  | quote text => simp [readQuoted] at h
  | slash => exact absurd (read_cons_eq_some h).1 (by decide)
  | escaped c text ih =>
    -- the first backslash is not read, so it would have to be the one after it
    obtain ⟨rfl, hread⟩ := read_cons_eq_some h
    exact absurd hread (readQuoted_ne_append text ['\\'] rest more (by simp) (by decide))
  | other c text hquote hslash ih =>
    rw [List.cons_append, readQuoted_cons hquote hslash] at h
    exact List.forall_mem_cons.mpr ⟨⟨hquote, hslash⟩, ih (read_cons_eq_some h).2⟩

end Literal

/-! ## Reading a text -/

/-- A part of a search text. -/
inductive Lexeme where
  /-- A literal, without its quotes and with nothing escaped. -/
  | literal (content : String)
  /-- A character outside of all literals. -/
  | plain (c : Char)
deriving DecidableEq

namespace Lexeme

/-- Reads a text, outside of all literals or after the given characters of a
    literal, the last of them first.  A literal has to end. -/
def scanFrom : Option (List Char) → List Char → Option (List Lexeme)
  | none, []          => some []
  | none, '"' :: rest => scanFrom (some []) rest
  | none, c :: rest   => (scanFrom none rest).map (plain c :: ·)
  | some _, []        => none
  | some content, '"' :: rest =>
    (scanFrom none rest).map (literal (String.ofList content.reverse) :: ·)
  | some _, '\\' :: []              => none
  | some content, '\\' :: c :: rest => scanFrom (some (c :: content)) rest
  | some content, c :: rest         => scanFrom (some (c :: content)) rest

/-- The literals of a text and the characters outside them, in order. -/
def scan (text : String) : Option (List Lexeme) := scanFrom none text.toList

/-- Characters outside of all literals. -/
def words (text : String) : List Lexeme := text.toList.map plain

theorem words_empty : words "" = [] := by
  simp [words]

/-- Inside a literal, all up to its end belongs to it. -/
theorem scanFrom_some (content cs : List Char) :
    scanFrom (some content) cs = (Literal.readQuoted cs).bind fun r =>
      (scanFrom none r.2).map (literal (String.ofList (content.reverse ++ r.1)) :: ·) := by
  -- a character that is read joins those before it, or is put before those after it
  have hextend : ∀ (content : List Char) (c : Char) (read : Option (List Char × List Char)),
      (read.bind fun r =>
        (scanFrom none r.2).map (literal (String.ofList ((c :: content).reverse ++ r.1)) :: ·)) =
      (read.map fun r => (c :: r.1, r.2)).bind fun r =>
        (scanFrom none r.2).map (literal (String.ofList (content.reverse ++ r.1)) :: ·) := by
    intro content c read
    simp only [Option.bind_map, Function.comp_def, List.reverse_cons, List.append_assoc,
      List.singleton_append]
  induction cs using Literal.quoted_induction generalizing content with
  | nil | slash => rfl
  | quote rest => simp [scanFrom, Literal.readQuoted]
  | escaped c rest ih =>
    show scanFrom (some (c :: content)) rest = _
    rw [ih, Literal.readQuoted_slash]
    exact hextend content c _
  | other c rest hquote hslash ih =>
    have hstep : scanFrom (some content) (c :: rest) = scanFrom (some (c :: content)) rest := by
      simp [scanFrom, hslash]
    rw [hstep, ih, Literal.readQuoted_cons hquote hslash]
    exact hextend content c _

/-- Outside of all literals, a text without quotes stays outside. -/
theorem scanFrom_words {text : String} (h : '"' ∉ text.toList) (rest : List Char) :
    scanFrom none (text.toList ++ rest) = (scanFrom none rest).map (words text ++ ·) := by
  unfold words
  generalize text.toList = cs at h ⊢
  induction cs with
  | nil => simp
  | cons c cs ih =>
    have hc : c ≠ '"' := by
      rintro rfl
      exact h List.mem_cons_self
    have hstep : scanFrom none (c :: (cs ++ rest)) =
        (scanFrom none (cs ++ rest)).map (plain c :: ·) := by
      simp [scanFrom]
    rw [List.cons_append, hstep, ih fun hmem => h (List.mem_cons_of_mem c hmem), Option.map_map]
    rfl

theorem scan_words {text : String} (h : '"' ∉ text.toList) : scan text = some (words text) := by
  have hall := scanFrom_words h []
  simpa [scan, scanFrom] using hall

/-- An escaped text in quotes is one literal, and its content is the text. -/
theorem scanFrom_quoted (s : String) (rest : List Char) :
    scanFrom none ((Literal.quoted true s).toList ++ rest) =
      (scanFrom none rest).map (literal s :: ·) := by
  rw [Literal.quoted_toList, List.cons_append, List.append_assoc]
  show scanFrom (some []) (Literal.escape s.toList ++ '"' :: rest) = _
  rw [scanFrom_some, Literal.readQuoted_escape]
  simp

/-- **Titles in quotes**: a title is read from its quotes exactly if it holds no
    quote and no backslash. -/
theorem scan_titled_iff {more : String} {rest : List Lexeme} (hmore : scan more = some rest)
    (title : String) :
    scan ((titledField title).remoteName ++ more) = some (literal title :: rest) ↔
      IsPlainTitle title := by
  constructor
  · intro h
    have hread : scanFrom (some []) (title.toList ++ '"' :: more.toList) =
        some (literal title :: rest) := by
      simpa [scan, titledField, scanFrom] using h
    rw [scanFrom_some] at hread
    obtain ⟨⟨content, tail⟩, hquoted, hrest⟩ := Option.bind_eq_some_iff.mp hread
    obtain ⟨_, _, hcons⟩ := Option.map_eq_some_iff.mp hrest
    obtain rfl : content = title.toList := by
      have hcontent : String.ofList content = title := by simpa using (List.cons.inj hcons).1
      rw [← hcontent, String.toList_ofList]
    exact Literal.plain_of_readQuoted hquoted
  · intro hplain
    have hquoted : (titledField title).remoteName = Literal.quoted true title := by
      simp [titledField, Literal.quoted, Literal.escape_eq_self hplain]
    rw [scan, hquoted, String.toList_append, scanFrom_quoted]
    have hrest : scanFrom none more.toList = some rest := hmore
    rw [hrest]
    rfl

end Lexeme

/-! ## Phrases with a text as their operand -/

open Lexeme (scan words)

theorem Literal.joined_text (escaping : Bool) (s : String) (type : DataType) :
    joined escaping [(.str s, type)] = quoted escaping s := by
  simp [joined, written?, scalar, item, Value.text]

theorem Literal.joined_list (escaping : Bool) (s : String) (type : DataType) :
    joined escaping [(.array [.str s], type)] = quoted escaping s := by
  simp [joined, written?, scalar, list, itemsFrom, item, Separator.text, Value.text]

theorem Phrase.lead_no_quote (p : Phrase) : '"' ∉ p.lead.toList := by
  cases p with
  | order r _ => cases r <;> simp [lead, Relation.words]
  | equality negated isText _ =>
    cases negated <;> cases isText <;> simp [lead, Relation.ofEquality, Relation.words]
  | member m _ => cases m <;> simp [lead, Membership.words]
  | past negated _ => cases negated <;> simp [lead, History.ofNegated, History.words]
  | limit q _ => cases q <;> simp [lead, Qualifier.name]
  | aside _ => simp [lead]

theorem Phrase.closing_no_quote (p : Phrase) : '"' ∉ p.closing.toList := by
  cases p with
  | limit q _ => cases q <;> simp [closing]
  | _ => simp [closing]

/-- The operator of a phrase and its operand are read as what they are, whatever the
    operand holds. -/
theorem Phrase.scan_text {p : Phrase} (hvalue : p.asksForNothing = false) {s : String}
    (hjoined : Literal.joined true p.constants = Literal.quoted true s) :
    scan (p.text true) = some (words p.lead ++ .literal s :: words p.closing) := by
  have hoperands : p.operands true = Literal.quoted true s := by
    simp [Phrase.operands, hvalue, hjoined]
  have hclosing : Lexeme.scanFrom none p.closing.toList = some (words p.closing) :=
    Lexeme.scan_words p.closing_no_quote
  rw [scan, Phrase.text, hoperands, String.append_assoc, String.toList_append, String.toList_append,
    Lexeme.scanFrom_words p.lead_no_quote, Lexeme.scanFrom_quoted, hclosing]
  rfl

namespace Expr

/-- `AsksTitle e title rest`: the node asks the field of the title with a text as its
    operand, and the title is to be followed by the rest. -/
inductive AsksTitle : Expr → String → List Lexeme → Prop
  | order {left right : Expr} {title s : String} {type : DataType} {op : BinaryOp} {r : Relation}
      (htitle : left.IsTitled title) (hop : Relation.ofOrder? op = some r)
      (hconst : right.asConstant? = some (.str s, type)) :
      AsksTitle (binary op left right) title (words r.words ++ [.literal s])
  | equality {left right : Expr} {title s : String} {type : DataType} {op : BinaryOp}
      {negated : Bool} (htitle : left.IsTitled title) (hop : op.negates? = some negated)
      (hconst : right.asConstant? = some (.str s, type)) (hs : s ≠ "") :
      AsksTitle (binary op left right) title
        (words (if negated then " !~ " else " ~ ") ++ [.literal s])
  | blank {left right : Expr} {title : String} {type : DataType} {op : BinaryOp} {negated : Bool}
      (htitle : left.IsTitled title) (hop : op.negates? = some negated)
      (hconst : right.asConstant? = some (.str "", type)) :
      AsksTitle (binary op left right) title
        (words (if negated then " is not empty" else " is empty"))
  | membership {field item : Expr} {title s : String} {value : Value} {type : DataType}
      (m : Membership) {target : Option Expr} {args : List Expr} (htitle : field.IsTitled title)
      (hoperands : operands target args = [field, item])
      (hconst : item.asConstant? = some (value, type))
      (hvalue : value = .str s ∨ value = .array [.str s]) :
      AsksTitle (call target { name := m.name, remote := false } args) title
        (words m.words ++ .literal s :: words ")")

section Titles

variable {ctx : Context} {e : Expr} {title : String} {rest : List Lexeme}

/-- `TitleFollowedBy ctx e title rest`: the node is written as the title in quotes and
    then something that is read as the rest. -/
def TitleFollowedBy (ctx : Context) (e : Expr) (title : String) (rest : List Lexeme) : Prop :=
  ∃ more, (e.operand ctx).visit.Yields ((titledField title).remoteName ++ more) false ∧
    scan more = some rest

/-- A phrase with a text as its operand follows the title. -/
theorem titleFollowedBy_phrase (hescaping : ctx.options.escaping = true) {p : Phrase} {s : String}
    (hasked : Says ctx e (titledField title).remoteName [p]) (hrefused : p.isRefused = false)
    (hvalue : p.asksForNothing = false)
    (hjoined : Literal.joined true p.constants = Literal.quoted true s) :
    TitleFollowedBy ctx e title (words p.lead ++ .literal s :: words p.closing) := by
  refine ⟨p.text true, ?_, Phrase.scan_text hvalue hjoined⟩
  have hyields := hasked.yields
  simpa [hescaping, phrasesText, hrefused] using hyields

/-- What follows the title is read as what it is, whatever the operand holds. -/
theorem AsksTitle.titleFollowedBy (hescaping : ctx.options.escaping = true)
    (h : AsksTitle e title rest) : TitleFollowedBy ctx e title rest := by
  cases h with
  | @order left right _ s type op r htitle hop hconst =>
    have hasked : Says ctx (binary op left right) _ _ := .order (.title htitle) hop hconst
    simpa only [Phrase.lead, Phrase.closing, Lexeme.words_empty] using
      titleFollowedBy_phrase hescaping hasked rfl rfl (Literal.joined_text true s type)
  | @equality left right _ s type op negated htitle hop hconst hs =>
    have hasked : Says ctx (binary op left right) _ _ :=
      .equality (.title htitle) hop hconst (by simp) (by simpa using hs)
    -- a titled field is searched for what it contains
    have hcontains : (titledField title).abilities.has .contains = true := by
      show (Abilities.ofList [.contains]).has .contains = true
      decide
    rw [hcontains] at hasked
    have hlead : (Phrase.equality negated true (.str s, type)).lead =
        if negated then " !~ " else " ~ " := by
      cases negated <;> rfl
    simpa only [hlead, Phrase.closing, Lexeme.words_empty] using
      titleFollowedBy_phrase hescaping hasked rfl rfl (Literal.joined_text true s type)
  | @blank left right _ type op negated htitle hop hconst =>
    have hasked : Says ctx (binary op left right) _ _ := .blank (.title htitle) hop hconst
    have hwords : (Presence.ofNull true negated).words =
        if negated then " is not empty" else " is empty" := by
      cases negated <;> rfl
    have hyields := hasked.yields
    rw [hwords, phrasesText, String.append_empty] at hyields
    exact ⟨_, hyields, Lexeme.scan_words (by cases negated <;> decide)⟩
  | @membership field item _ s value type m target args htitle hoperands hconst hvalue =>
    have hasked : Says ctx (call target { name := m.name, remote := false } args) _ _ :=
      .membership m (.title htitle) hoperands (.cons hconst .nil)
    have hjoined : Literal.joined true [(value, type)] = Literal.quoted true s := by
      rcases hvalue with rfl | rfl
      · exact Literal.joined_text true s type
      · exact Literal.joined_list true s type
    have hrefused : (Phrase.member m [(value, type)]).isRefused = false := by
      rcases hvalue with rfl | rfl <;> rfl
    simpa only [Phrase.lead, Phrase.closing] using
      titleFollowedBy_phrase hescaping hasked hrefused rfl hjoined

/-- **Texts inside their quotes**: with quotes escaped, a question to a titled field
    with a text as its operand has a search.  What follows the title is read as the
    operator and the operand.  The title is read as itself, and nothing else from
    its quotes, exactly if it holds no quote and no backslash. -/
theorem compile_titled (ctx : Context) (hescaping : ctx.options.escaping = true) {e : Expr}
    {title : String} {rest : List Lexeme} (h : AsksTitle e title rest) :
    ∃ more,
      e.compile ctx = .ok
        { text       := "\"" ++ title ++ "\"" ++ more
          startAt    := none
          maxResults := none } ∧
      scan more = some rest ∧
      (scan ("\"" ++ title ++ "\"" ++ more) = some (.literal title :: rest) ↔
        IsPlainTitle title) := by
  obtain ⟨more, hyields, hmore⟩ := h.titleFollowedBy hescaping
  obtain ⟨hsucceeds, hsearch⟩ := compile_of_yields hyields
  obtain ⟨search, hcompile⟩ := hsucceeds.mpr rfl
  rw [hsearch search hcompile] at hcompile
  exact ⟨more, hcompile, hmore, Lexeme.scan_titled_iff hmore title⟩

end Titles

/-- A titled field that does not hold a text with quotes and a connective in it. -/
def quotedTeam : Expr :=
  binary .notEqual (summaryNode.target.customField "Team A") (ofValue (.str "a\" OR \"b\\"))

theorem compile_titled_quotedTeam :
    escapingContext.options.escaping = true ∧
    AsksTitle quotedTeam "Team A" (words " !~ " ++ [.literal "a\" OR \"b\\"]) ∧
    quotedTeam.compile escapingContext = .ok
      { text       := "\"Team A\" !~ \"a\\\" OR \\\"b\\\\\""
        startAt    := none
        maxResults := none } ∧
    scan "\"Team A\" !~ \"a\\\" OR \\\"b\\\\\"" =
      some (.literal "Team A" :: words " !~ " ++ [.literal "a\" OR \"b\\"]) := by
  have hasks : AsksTitle quotedTeam "Team A" (words " !~ " ++ [.literal "a\" OR \"b\\"]) :=
    .equality ⟨_, _, rfl, rfl⟩ (show BinaryOp.notEqual.negates? = some true from rfl) rfl
      (by decide)
  have hsearch : quotedTeam.compile escapingContext = .ok
      { text       := "\"Team A\" !~ \"a\\\" OR \\\"b\\\\\""
        startAt    := none
        maxResults := none } := rfl
  obtain ⟨more, hcompile, -, hscan⟩ := compile_titled escapingContext rfl hasks
  have htext := congrArg (fun r => r.toOption.map Search.text) (hsearch.symm.trans hcompile)
  have htext : "\"Team A\" !~ \"a\\\" OR \\\"b\\\\\"" = "\"" ++ "Team A" ++ "\"" ++ more :=
    Option.some.inj htext
  exact ⟨rfl, hasks, hsearch, htext ▸ hscan.mpr (by decide)⟩

/-- **Titles break out of their quotes**: a title with quotes is read as two titles
    and words between them, and after a title that ends with a backslash a literal
    does not end. -/
theorem title_breaks_out :
    let ask (title : String) :=
      binary .equal (summaryNode.target.customField title) (ofValue (.str "Blue"))
    let text (title : String) :=
      ((ask title).compile escapingContext).toOption.map Search.text
    text "Team\" OR \"x" = some "\"Team\" OR \"x\" ~ \"Blue\"" ∧
      scan "\"Team\" OR \"x\" ~ \"Blue\"" =
        some (.literal "Team" :: words " OR " ++ .literal "x" :: words " ~ " ++ [.literal "Blue"]) ∧
      text "Team\\" = some "\"Team\\\" ~ \"Blue\"" ∧
      scan "\"Team\\\" ~ \"Blue\"" = none :=
  ⟨rfl, by decide, rfl, by decide⟩

end Expr

end IssueSearch
