import IssueSearch.Field.Table
import IssueSearch.Method.Remote
import IssueSearch.Method.Role
import IssueSearch.Proofs.Sequences
import IssueSearch.Proofs.Tokens
import Mathlib.Data.List.Infix
import Mathlib.Logic.Function.Basic

/-! # Forms of predicates

    A form is what a written predicate says, apart from how it is written:
    connectives over atoms, and in each atom the remote name of a field, a
    word of the search language and the tokens after it.

    * `Form`: the forms over the fields of a table.
    * `Form.text`: the text of a form.
    * `Word.eq_of_append`: the words of the search language can be told apart,
      although some of them begin with others.
    * `Form.text_injective`: a text has at most one form. -/

namespace IssueSearch

/-! ## Words -/

/-- A relation between a field and a value. -/
inductive Relation where
  | contains
  | lacks
  | equal
  | notEqual
  | less
  | lessOrEqual
  | greater
  | greaterOrEqual
deriving DecidableEq

/-- The text of a relation. -/
def Relation.words : Relation → String
  | contains       => " ~ "
  | lacks          => " !~ "
  | equal          => " = "
  | notEqual       => " != "
  | less           => " < "
  | lessOrEqual    => " <= "
  | greater        => " > "
  | greaterOrEqual => " >= "

/-- What stands between a field and its values. -/
inductive Word where
  | presence (p : Presence)
  | relation (r : Relation)
  | membership (m : Membership)
  | past (negated : Bool)
deriving DecidableEq

namespace Word

/-- The text of a word. -/
def text : Word → String
  | presence p   => p.words
  | relation r   => r.words
  | membership m => m.words
  | past negated => if negated then " was not " else " was "

/-- All words. -/
def all : List Word :=
  Presence.all.map presence ++
    [.contains, .lacks, .equal, .notEqual, .less, .lessOrEqual, .greater, .greaterOrEqual].map
      relation ++
    Membership.all.map membership ++ [past false, past true]

theorem mem_all (w : Word) : w ∈ all := by
  cases w with
  | presence p => cases p <;> decide
  | relation r => cases r <;> decide
  | membership m => cases m <;> decide
  | past negated => cases negated <;> decide

/-- Does the word ask for what a field held before? -/
def isPast : Word → Bool
  | past _ => true
  | _      => false

/-- The text goes on as a longer word would: those that begin with a question
    for the past go on with "not" or "in". -/
def LongerAhead (x : List Char) : Prop := x.head? = some 'n' ∨ x.head? = some 'i'

instance (x : List Char) : Decidable (LongerAhead x) :=
  inferInstanceAs (Decidable (_ ∨ _))

/-- A word that another one begins with asks for the past, and the other one
    goes on with "not" or "in". -/
theorem eq_or_isPast_of_begins :
    ∀ u ∈ all, ∀ v ∈ all, u.text.toList <+: v.text.toList →
      u = v ∨ u.isPast = true ∧ LongerAhead (v.text.toList.drop u.text.toList.length) := by
  decide +kernel

theorem LongerAhead.append {x : List Char} (h : LongerAhead x) (y : List Char) :
    LongerAhead (x ++ y) := by
  cases x with
  | nil => simp [LongerAhead] at h
  | cons c rest => exact h

/-- A word that is not followed as a longer one would be is no part of it. -/
theorem eq_of_begins {u v : Word} {x y : List Char}
    (hbegins : u.text.toList <+: v.text.toList) (hx : u.isPast = true → ¬LongerAhead x)
    (h : u.text.toList ++ x = v.text.toList ++ y) : u = v := by
  rcases eq_or_isPast_of_begins u (mem_all u) v (mem_all v) hbegins with heq | ⟨hpast, hlonger⟩
  · exact heq
  · obtain ⟨more, hmore⟩ := hbegins
    rw [← hmore, List.drop_left] at hlonger
    rw [← hmore, List.append_assoc] at h
    obtain rfl : x = more ++ y := List.append_cancel_left h
    exact absurd (hlonger.append y) (hx hpast)

/-- **Words can be told apart** by what follows them. -/
theorem eq_of_append {u v : Word} {x y : List Char} (hx : u.isPast = true → ¬LongerAhead x)
    (hy : v.isPast = true → ¬LongerAhead y)
    (h : u.text.toList ++ x = v.text.toList ++ y) : u = v ∧ x = y := by
  have heq : u = v := by
    have hu : u.text.toList <+: v.text.toList ++ y := h ▸ List.prefix_append _ x
    rcases List.prefix_or_prefix_of_prefix hu (List.prefix_append _ y) with hbegins | hbegins
    · exact eq_of_begins hbegins hx h
    · exact (eq_of_begins hbegins hy h.symm).symm
  subst heq
  exact ⟨rfl, List.append_cancel_left h⟩

end Word

/-! ## Values -/

/-- A function of the search server without an argument, by the server's
    name. -/
def ServerFunction : Type := { name : String // name ∈ Remote.plainFunctions.map Prod.snd }

/-- What a field is compared with. -/
inductive Comparand where
  | token (t : Token)
  | function (f : ServerFunction)

namespace Comparand

/-- A comparand as it is written. -/
def text : Comparand → String
  | token t    => t.text
  | function f => f.val ++ "()"

/-- The names of functions have no parenthesis in them, and they do not start as
    a token does. -/
theorem functionNames_plain :
    ∀ name ∈ Remote.plainFunctions.map Prod.snd,
      (name.toList.all fun c => c != '(') = true ∧
        (name.toList.head?.any fun c => c != '"' && !c.isDigit && c != '-') = true := by
  decide +kernel

/-- No token starts as a function does. -/
theorem token_ne_function (t : Token) (f : ServerFunction) (x y : List Char) :
    t.text.toList ++ x ≠ (function f).text.toList ++ y := by
  intro h
  obtain ⟨c, rest, htext, hc⟩ := t.text_head
  have hplain := (functionNames_plain f.val f.property).2
  cases hname : f.val.toList with
  | nil => simp [hname] at hplain
  | cons d more =>
    rw [htext, text, String.toList_append, hname] at h
    obtain rfl : c = d := (List.cons.inj h).1
    rw [hname, List.head?_cons, Option.any_some] at hplain
    rcases hc with rfl | hc | rfl
    · exact absurd hplain (by decide)
    · simp [hc] at hplain
    · exact absurd hplain (by decide)

theorem text_append_inj {v w : Comparand} {x y : List Char} (hx : NoDigitAhead x)
    (hy : NoDigitAhead y) (h : v.text.toList ++ x = w.text.toList ++ y) : v = w ∧ x = y := by
  cases v with
  | token t =>
    cases w with
    | token u =>
      obtain ⟨rfl, hrest⟩ := Token.text_append_inj hx hy h
      exact ⟨rfl, hrest⟩
    | function g => exact absurd h (token_ne_function t g x y)
  | function f =>
    cases w with
    | token u => exact absurd h.symm (token_ne_function u f y x)
    | function g =>
      have hname : f.val.toList ++ '(' :: ')' :: x = g.val.toList ++ '(' :: ')' :: y := by
        simpa [text] using h
      -- a name ends at the first parenthesis
      have hparen : ∀ z : List Char, ∀ c ∈ ('(' :: z).head?, (c != '(') = false := by simp
      have hchars : ∀ k : ServerFunction, ∀ c ∈ k.val.toList, (c != '(') = true :=
        fun k => List.all_eq_true.mp (functionNames_plain k.val k.property).1
      obtain ⟨heq, hrest⟩ := span_inj (hchars f) (hchars g) (hparen _) (hparen _) hname
      obtain rfl : f = g := Subtype.ext (String.toList_inj.mp heq)
      exact ⟨rfl, by simpa using hrest⟩

end Comparand

/-- The items of a list after the first one. -/
def laterItems : List Token → String
  | []        => ""
  | t :: rest => ", " ++ t.text ++ laterItems rest

theorem noDigitAhead_laterItems (rest : List Token) (x : List Char) :
    NoDigitAhead ((laterItems rest).toList ++ ')' :: x) := by
  cases rest with
  | nil => simp [laterItems, NoDigitAhead]
  | cons t rest => simp [laterItems, NoDigitAhead]

/-- The items of a list end at the closing parenthesis. -/
theorem laterItems_append_inj {ts us : List Token} {x y : List Char}
    (h : (laterItems ts).toList ++ ')' :: x = (laterItems us).toList ++ ')' :: y) :
    ts = us ∧ x = y := by
  induction ts generalizing us with
  | nil =>
    cases us with
    | nil => exact ⟨rfl, by simpa [laterItems] using h⟩
    | cons u us => simp [laterItems] at h
  | cons t ts ih =>
    cases us with
    | nil => simp [laterItems] at h
    | cons u us =>
      have hitems : t.text.toList ++ ((laterItems ts).toList ++ ')' :: x) =
          u.text.toList ++ ((laterItems us).toList ++ ')' :: y) := by
        simpa [laterItems] using h
      obtain ⟨rfl, hrest⟩ := Token.text_append_inj (noDigitAhead_laterItems ts x)
        (noDigitAhead_laterItems us y) hitems
      obtain ⟨rfl, rfl⟩ := ih hrest
      exact ⟨rfl, rfl⟩

/-! ## Conditions -/

/-- What is asked of a field. -/
inductive Condition where
  | presence (p : Presence)
  | compare (r : Relation) (value : Comparand)
  | member (m : Membership) (first : Token) (rest : List Token)
  /-- What the field held before; no token stands for nothing at all. -/
  | past (negated : Bool) (value : Option Token)

namespace Condition

/-- The word of a condition. -/
def word : Condition → Word
  | presence p     => .presence p
  | compare r _    => .relation r
  | member m _ _   => .membership m
  | past negated _ => .past negated

/-- What stands after the word. -/
def values : Condition → String
  | presence _          => ""
  | compare _ value     => value.text
  | member _ first rest => first.text ++ laterItems rest ++ ")"
  | past _ none         => "empty"
  | past _ (some t)     => t.text

/-- A condition as it is written. -/
def text (c : Condition) : String :=
  c.word.text ++ c.values

theorem text_presence (p : Presence) : (presence p).text = p.words := by
  simp [text, word, values, Word.text]

/-- The value of a question for the past does not look like a longer word. -/
theorem not_longerAhead_values {c : Condition} (hc : c.word.isPast = true) (x : List Char) :
    ¬Word.LongerAhead (c.values.toList ++ x) := by
  cases c with
  | past negated value =>
    cases value with
    | none => simp [values, Word.LongerAhead]
    | some t =>
      obtain ⟨c, rest, htext, hc⟩ := t.text_head
      simp only [values, htext, Word.LongerAhead, List.cons_append, List.head?_cons,
        Option.some.injEq]
      rintro (rfl | rfl)
      · exact absurd hc (by decide)
      · exact absurd hc (by decide)
  | presence p => simp [word, Word.isPast] at hc
  | compare r value => simp [word, Word.isPast] at hc
  | member m first rest => simp [word, Word.isPast] at hc

/-- No token is the word for nothing. -/
theorem token_ne_empty (t : Token) (x y : List Char) :
    t.text.toList ++ x ≠ "empty".toList ++ y := by
  intro h
  obtain ⟨c, rest, htext, hc⟩ := t.text_head
  rw [htext] at h
  obtain rfl : c = 'e' := (List.cons.inj h).1
  exact absurd hc (by decide)

/-- Conditions with the same word are told apart by what stands after it. -/
theorem values_append_inj {c d : Condition} {x y : List Char} (hword : c.word = d.word)
    (hx : NoDigitAhead x) (hy : NoDigitAhead y)
    (h : c.values.toList ++ x = d.values.toList ++ y) : c = d ∧ x = y := by
  cases c with
  | presence p =>
    cases d with
    | presence q =>
      obtain rfl : p = q := by simpa [word] using hword
      exact ⟨rfl, by simpa [values] using h⟩
    | _ => simp [word] at hword
  | compare r value =>
    cases d with
    | compare r' value' =>
      obtain rfl : r = r' := by simpa [word] using hword
      obtain ⟨rfl, hrest⟩ := Comparand.text_append_inj hx hy h
      exact ⟨rfl, hrest⟩
    | _ => simp [word] at hword
  | member m first rest =>
    cases d with
    | member m' first' rest' =>
      obtain rfl : m = m' := by simpa [word] using hword
      -- the first item ends at a comma or at the closing parenthesis
      have hitems : first.text.toList ++ ((laterItems rest).toList ++ ')' :: x) =
          first'.text.toList ++ ((laterItems rest').toList ++ ')' :: y) := by
        simpa [values] using h
      obtain ⟨rfl, hlater⟩ := Token.text_append_inj (noDigitAhead_laterItems rest x)
        (noDigitAhead_laterItems rest' y) hitems
      obtain ⟨rfl, rfl⟩ := laterItems_append_inj hlater
      exact ⟨rfl, rfl⟩
    | _ => simp [word] at hword
  | past negated value =>
    cases d with
    | past negated' value' =>
      obtain rfl : negated = negated' := by simpa [word] using hword
      match value, value' with
      | none, none => exact ⟨rfl, List.append_cancel_left h⟩
      | none, some t => exact absurd h.symm (token_ne_empty t y x)
      | some t, none => exact absurd h (token_ne_empty t x y)
      | some t, some u =>
        obtain ⟨rfl, hrest⟩ := Token.text_append_inj hx hy h
        exact ⟨rfl, hrest⟩
    | _ => simp [word] at hword

theorem text_append_inj {c d : Condition} {x y : List Char} (hx : NoDigitAhead x)
    (hy : NoDigitAhead y) (h : c.text.toList ++ x = d.text.toList ++ y) : c = d ∧ x = y := by
  simp only [text, String.toList_append, List.append_assoc] at h
  obtain ⟨hword, hvalues⟩ := Word.eq_of_append (fun hc => not_longerAhead_values hc x)
    (fun hd => not_longerAhead_values hd y) h
  exact values_append_inj hword hx hy hvalues

/-- A condition starts with a blank. -/
theorem text_head (c : Condition) : ∃ rest, c.text.toList = ' ' :: rest := by
  have hword : ∀ w ∈ Word.all, w.text.toList.head? = some ' ' := by decide +kernel
  obtain ⟨rest, hrest⟩ := List.head?_eq_some_iff.mp (hword c.word (Word.mem_all _))
  exact ⟨rest ++ c.values.toList, by simp [text, hrest]⟩

end Condition

/-! ## Forms -/

/-- The remote names of the fields of a table. -/
def FieldTable.RemoteName (fields : FieldTable) : Type :=
  { name : String // ∃ p field, fields.get? p = some field ∧ field.remoteName = name }

/-- No remote name of the table has a blank or an opening parenthesis in it. -/
def FieldTable.HasPlainNames (fields : FieldTable) : Prop :=
  ∀ p field, fields.get? p = some field → ∀ c ∈ field.remoteName.toList, c ≠ ' ' ∧ c ≠ '('

/-- Whether the names are plain can be checked row by row. -/
theorem FieldTable.hasPlainNames_of_rows {fields : FieldTable}
    (h : (fields.rows.all fun row =>
      row.2.remoteName.toList.all fun c => c != ' ' && c != '(') = true) :
    fields.HasPlainNames := by
  intro p field hfield c hc
  have hrow := List.all_eq_true.mp h (p, field) (mem_of_lookup hfield)
  simpa using List.all_eq_true.mp hrow c hc

theorem FieldTable.HasPlainNames.remoteName {fields : FieldTable} (h : fields.HasPlainNames)
    (name : fields.RemoteName) : ∀ c ∈ name.val.toList, c ≠ ' ' ∧ c ≠ '(' := by
  obtain ⟨name, p, field, hfield, rfl⟩ := name
  exact h p field hfield

/-- What a predicate over the fields of a table says. -/
inductive Form (fields : FieldTable) where
  | atom (name : fields.RemoteName) (condition : Condition)
  | both (left right : Form fields)
  | either (left right : Form fields)

namespace Form

variable {fields : FieldTable}

/-- The word between alternatives. -/
def orWord (tight : Bool) : String := if tight then " OR" else " OR "

/-- A form as it is written. -/
def text (tight : Bool) : Form fields → String
  | atom name condition => name.val ++ condition.text
  | both left right     => "(" ++ left.text tight ++ " AND " ++ right.text tight ++ ")"
  | either left right   => "(" ++ left.text tight ++ orWord tight ++ right.text tight ++ ")"

/-- An atom is told by its text, and so is what follows it. -/
theorem atom_append_inj (hplain : fields.HasPlainNames) {name name' : fields.RemoteName}
    {c d : Condition} {x y : List Char} (hx : NoDigitAhead x) (hy : NoDigitAhead y)
    (h : name.val.toList ++ (c.text.toList ++ x) = name'.val.toList ++ (d.text.toList ++ y)) :
    name = name' ∧ c = d ∧ x = y := by
  have hchars : ∀ (n : fields.RemoteName), ∀ a ∈ n.val.toList, (a != ' ') = true := by
    intro n a ha
    simpa using (hplain.remoteName n a ha).1
  have hblank : ∀ (c : Condition) (z : List Char),
      ∀ a ∈ (c.text.toList ++ z).head?, (a != ' ') = false := by
    intro c z
    obtain ⟨rest, hrest⟩ := c.text_head
    simp [hrest]
  obtain ⟨hname, hrest⟩ := span_inj (hchars name) (hchars name') (hblank c x) (hblank d y) h
  obtain ⟨rfl, rfl⟩ := Condition.text_append_inj hx hy hrest
  exact ⟨Subtype.ext (String.toList_inj.mp hname), rfl, rfl⟩

/-- An atom does not start with a parenthesis. -/
theorem atom_ne_paren (hplain : fields.HasPlainNames) (name : fields.RemoteName) (c : Condition)
    (x y : List Char) : name.val.toList ++ (c.text.toList ++ x) ≠ '(' :: y := by
  intro h
  obtain ⟨rest, hrest⟩ := c.text_head
  cases hname : name.val.toList with
  | nil => simp [hname, hrest] at h
  | cons a more =>
    rw [hname] at h
    have hparen : a = '(' := (List.cons.inj h).1
    exact (hplain.remoteName name a (hname ▸ List.mem_cons_self)).2 hparen

theorem atom_toList (tight : Bool) (name : fields.RemoteName) (c : Condition) (x : List Char) :
    ((atom name c).text tight).toList ++ x = name.val.toList ++ (c.text.toList ++ x) := by
  simp [text]

theorem both_toList (tight : Bool) (l r : Form fields) (x : List Char) :
    ((both l r).text tight).toList ++ x =
      '(' :: ((l.text tight).toList ++ (' ' :: 'A' :: 'N' :: 'D' :: ' ' ::
        ((r.text tight).toList ++ ')' :: x))) := by
  simp [text]

theorem either_toList (tight : Bool) (l r : Form fields) (x : List Char) :
    ((either l r).text tight).toList ++ x =
      '(' :: ((l.text tight).toList ++ (' ' :: 'O' :: 'R' :: ((if tight then [] else [' ']) ++
        ((r.text tight).toList ++ ')' :: x)))) := by
  cases tight <;> simp [text, orWord]

/-- **Forms say where they end**: followed by anything but a digit, the form and
    what follows are told by the text. -/
theorem text_append_inj (hplain : fields.HasPlainNames) (tight : Bool) {f g : Form fields}
    {x y : List Char} (hx : NoDigitAhead x) (hy : NoDigitAhead y)
    (h : (f.text tight).toList ++ x = (g.text tight).toList ++ y) : f = g ∧ x = y := by
  have hblank : ∀ z : List Char, NoDigitAhead (' ' :: z) := by simp [NoDigitAhead]
  have hclose : ∀ z : List Char, NoDigitAhead (')' :: z) := by simp [NoDigitAhead]
  -- an operand is followed by a blank or a closing parenthesis, so the
  -- induction hypotheses apply to it
  induction f generalizing g x y with
  | atom name c =>
    rw [atom_toList] at h
    cases g with
    | atom name' d =>
      rw [atom_toList] at h
      obtain ⟨rfl, rfl, rfl⟩ := atom_append_inj hplain hx hy h
      exact ⟨rfl, rfl⟩
    | both l' r' =>
      rw [both_toList] at h
      exact absurd h (atom_ne_paren hplain name c x _)
    | either l' r' =>
      rw [either_toList] at h
      exact absurd h (atom_ne_paren hplain name c x _)
  | both l r ihl ihr =>
    rw [both_toList] at h
    cases g with
    | atom name' d =>
      rw [atom_toList] at h
      exact absurd h.symm (atom_ne_paren hplain name' d y _)
    | both l' r' =>
      rw [both_toList] at h
      obtain ⟨rfl, hrest⟩ := ihl (hblank _) (hblank _) (List.cons.inj h).2
      obtain ⟨rfl, hend⟩ := ihr (hclose _) (hclose _) (by simpa using hrest)
      exact ⟨rfl, by simpa using hend⟩
    | either l' r' =>
      -- the left operands are the same, and then the connectives differ
      rw [either_toList] at h
      obtain ⟨_, hrest⟩ := ihl (hblank _) (hblank _) (List.cons.inj h).2
      simp at hrest
  | either l r ihl ihr =>
    rw [either_toList] at h
    cases g with
    | atom name' d =>
      rw [atom_toList] at h
      exact absurd h.symm (atom_ne_paren hplain name' d y _)
    | both l' r' =>
      rw [both_toList] at h
      obtain ⟨_, hrest⟩ := ihl (hblank _) (hblank _) (List.cons.inj h).2
      simp at hrest
    | either l' r' =>
      rw [either_toList] at h
      obtain ⟨rfl, hrest⟩ := ihl (hblank _) (hblank _) (List.cons.inj h).2
      obtain ⟨rfl, hend⟩ := ihr (hclose _) (hclose _) (by simpa using hrest)
      exact ⟨rfl, by simpa using hend⟩

/-- A text has at most one form. -/
theorem text_injective (hplain : fields.HasPlainNames) (tight : Bool) :
    Function.Injective (text tight : Form fields → String) := by
  intro f g h
  have hnil : NoDigitAhead [] := by simp [NoDigitAhead]
  exact (text_append_inj hplain tight hnil hnil (by rw [h])).1

end Form

end IssueSearch
