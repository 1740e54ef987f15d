import IssueSearch.Search.Literal
import Mathlib.Data.List.Basic

/-! # Literals that say where they end

    With quotes escaped, a literal can be read off the front of any text that
    does not go on with a digit: a quoted text ends at the first quote that is
    not escaped, and a number ends where its digits do.

    * `Literal.readQuoted`: the reader of a quoted text.
    * `Literal.quoted_selfDelimiting`: a quoted text is read back from the front of
      any text.
    * `Token`: what a literal says, apart from how it is written.
    * `Token.text_append_inj`: the token and the rest of the text are told by
      the text. -/

namespace IssueSearch

/-! ## Runs of characters -/

/-- A run of characters of one kind ends where the kind changes. -/
theorem span_inj {p : Char → Bool} {xs ys x y : List Char} (hxs : ∀ c ∈ xs, p c = true)
    (hys : ∀ c ∈ ys, p c = true) (hx : ∀ c ∈ x.head?, p c = false)
    (hy : ∀ c ∈ y.head?, p c = false) (h : xs ++ x = ys ++ y) : xs = ys ∧ x = y := by
  induction xs generalizing ys with
  | nil =>
    cases ys with
    | nil => exact ⟨rfl, h⟩
    | cons b bs =>
      have hhead : b ∈ x.head? := by rw [show x = b :: (bs ++ y) from h]; rfl
      have hb := hys b List.mem_cons_self
      rw [hx b hhead] at hb
      exact absurd hb (by decide)
  | cons a as ih =>
    cases ys with
    | nil =>
      have hhead : a ∈ y.head? := by rw [show y = a :: (as ++ x) from h.symm]; rfl
      have ha := hxs a List.mem_cons_self
      rw [hy a hhead] at ha
      exact absurd ha (by decide)
    | cons b bs =>
      obtain ⟨rfl, htail⟩ := List.cons.inj (show a :: (as ++ x) = b :: (bs ++ y) from h)
      obtain ⟨rfl, rfl⟩ := ih (fun c hc => hxs c (List.mem_cons_of_mem a hc))
        (fun c hc => hys c (List.mem_cons_of_mem a hc)) htail
      exact ⟨rfl, rfl⟩

/-- The text does not go on with a digit. -/
def NoDigitAhead (x : List Char) : Prop := ∀ c ∈ x.head?, c.isDigit = false

/-! ## Numbers -/

namespace Number

theorem natText_append_inj {m n : Nat} {x y : List Char} (hx : NoDigitAhead x)
    (hy : NoDigitAhead y) (h : (natText m).toList ++ x = (natText n).toList ++ y) :
    m = n ∧ x = y := by
  simp only [natText, String.toList_ofList] at h
  have hdigits : ∀ k : Nat, ∀ c ∈ Nat.toDigits 10 k, c.isDigit = true :=
    fun k c hc => Nat.isDigit_of_mem_toDigits (by decide) (by decide) hc
  obtain ⟨heq, hrest⟩ := span_inj (hdigits m) (hdigits n) hx hy h
  refine ⟨?_, hrest⟩
  have hvalue := congrArg (Nat.ofDigitChars 10 · 0) heq
  simpa [Nat.ofDigitChars_ten_toDigits] using hvalue

/-- The digits of a number start with a digit. -/
theorem natText_head (n : Nat) :
    ∃ c rest, (natText n).toList = c :: rest ∧ c.isDigit = true := by
  cases hdigits : Nat.toDigits 10 n with
  | nil => exact absurd hdigits Nat.toDigits_ne_nil
  | cons c rest =>
    refine ⟨c, rest, by simp [natText, hdigits], ?_⟩
    exact Nat.isDigit_of_mem_toDigits (by decide) (by decide) (hdigits ▸ List.mem_cons_self)

/-- A number starts with a digit or with its sign. -/
theorem intText_head (n : Int) :
    ∃ c rest, (intText n).toList = c :: rest ∧ (c.isDigit = true ∨ c = '-') := by
  by_cases hn : n < 0
  · exact ⟨'-', (natText n.natAbs).toList, by simp [intText, hn], Or.inr rfl⟩
  · obtain ⟨c, rest, htext, hc⟩ := natText_head n.natAbs
    exact ⟨c, rest, by simp [intText, hn, htext], Or.inl hc⟩

theorem intText_append_inj {m n : Int} {x y : List Char} (hx : NoDigitAhead x)
    (hy : NoDigitAhead y) (h : (intText m).toList ++ x = (intText n).toList ++ y) :
    m = n ∧ x = y := by
  -- a sign is not a digit, so numbers of different signs differ at once
  have hsign : ∀ (k : Nat) (rest rest' : List Char),
      '-' :: rest ≠ (natText k).toList ++ rest' := by
    intro k rest rest' heq
    obtain ⟨c, more, htext, hc⟩ := natText_head k
    rw [htext] at heq
    rw [← (List.cons.inj heq).1] at hc
    exact absurd hc (by decide)
  by_cases hm : m < 0 <;> by_cases hn : n < 0
  · have hdigits : (natText m.natAbs).toList ++ x = (natText n.natAbs).toList ++ y := by
      simpa [intText, hm, hn] using h
    obtain ⟨habs, hrest⟩ := natText_append_inj hx hy hdigits
    exact ⟨by omega, hrest⟩
  · exact absurd (by simpa [intText, hm, hn] using h) (hsign n.natAbs _ _)
  · exact absurd (by simpa [intText, hm, hn] using h.symm) (hsign m.natAbs _ _)
  · have hdigits : (natText m.natAbs).toList ++ x = (natText n.natAbs).toList ++ y := by
      simpa [intText, hm, hn] using h
    obtain ⟨habs, hrest⟩ := natText_append_inj hx hy hdigits
    exact ⟨by omega, hrest⟩

end Number

/-! ## Quoted texts -/

namespace Literal

/-- Reads a quoted text after its opening quote: a backslash takes the next
    character as it is, and the first other quote ends the text. -/
def readQuoted : List Char → Option (List Char × List Char)
  | []                => none
  | '"' :: rest       => some ([], rest)
  | '\\' :: []        => none
  | '\\' :: c :: rest => (readQuoted rest).map fun r => (c :: r.1, r.2)
  | c :: rest         => (readQuoted rest).map fun r => (c :: r.1, r.2)

/-- Reading takes off what escaping put in, and stops at the closing quote. -/
theorem readQuoted_escape (s x : List Char) :
    readQuoted (escape s ++ '"' :: x) = some (s, x) := by
  induction s with
  | nil => simp [escape, readQuoted]
  | cons c rest ih =>
    by_cases hc : c = '"' ∨ c = '\\'
    · simp [escape, hc, readQuoted, ih]
    · obtain ⟨hquote, hslash⟩ := not_or.mp hc
      simp [escape, readQuoted, ih, hquote, hslash]

theorem quoted_toList (s : String) :
    (quoted true s).toList = '"' :: (escape s.toList ++ ['"']) := by
  simp [quoted]

theorem quoted_append_inj {s t : String} {x y : List Char}
    (h : (quoted true s).toList ++ x = (quoted true t).toList ++ y) : s = t ∧ x = y := by
  have hbody : escape s.toList ++ '"' :: x = escape t.toList ++ '"' :: y := by
    simpa [quoted_toList] using h
  have hread := congrArg readQuoted hbody
  simp only [readQuoted_escape, Option.some.injEq, Prod.mk.injEq] at hread
  exact ⟨String.toList_inj.mp hread.1, hread.2⟩

/-- Reads a literal in quotes off the front of a text, and gives what it says and
    the rest of the text. -/
def readFront? (text : String) : Option (String × String) :=
  match text.toList with
  | '"' :: rest => (readQuoted rest).map fun r => (String.ofList r.1, String.ofList r.2)
  | _           => none

theorem readFront?_quoted (s x : String) : readFront? (quoted true s ++ x) = some (s, x) := by
  have htext : (quoted true s ++ x).toList = '"' :: (escape s.toList ++ '"' :: x.toList) := by
    simp [quoted_toList]
  simp [readFront?, htext, readQuoted_escape]

/-- Puts a backslash before every occurrence of one character. -/
def slashBefore (c : Char) (cs : List Char) : List Char :=
  cs.flatMap fun d => if d = c then ['\\', d] else [d]

/-- Quotes and backslashes can be escaped one after the other, if the backslashes
    come first. -/
theorem escape_eq_slashBefore (cs : List Char) :
    escape cs = slashBefore '"' (slashBefore '\\' cs) := by
  induction cs with
  | nil => rfl
  | cons c rest ih =>
    have hcons : slashBefore '\\' (c :: rest) =
        (if c = '\\' then ['\\', c] else [c]) ++ slashBefore '\\' rest := rfl
    have happend : ∀ as bs : List Char,
        slashBefore '"' (as ++ bs) = slashBefore '"' as ++ slashBefore '"' bs :=
      fun as bs => List.flatMap_append
    rw [hcons, happend, escape, ih]
    by_cases hslash : c = '\\'
    · subst hslash
      rfl
    · by_cases hquote : c = '"'
      · subst hquote
        rfl
      · simp [hslash, hquote, slashBefore]

/-- **Quoted texts delimit themselves**: whatever stands after a quoted text, it is
    read back as it was and all that follows it is left.  So the text and what
    follows are told by the whole.  Escaping is a pass over the backslashes and then
    one over the quotes. -/
theorem quoted_selfDelimiting (s t x y : String) :
    readFront? (quoted true s ++ x) = some (s, x) ∧
    (quoted true s ++ x = quoted true t ++ y ↔ s = t ∧ x = y) ∧
    quoted true s =
      "\"" ++ String.ofList (slashBefore '"' (slashBefore '\\' s.toList)) ++ "\"" := by
  refine ⟨readFront?_quoted s x, ⟨?_, ?_⟩, ?_⟩
  · intro h
    have hread := congrArg readFront? h
    rw [readFront?_quoted, readFront?_quoted] at hread
    cases hread
    exact ⟨rfl, rfl⟩
  · rintro ⟨rfl, rfl⟩
    rfl
  · rw [← escape_eq_slashBefore]
    rfl

-- with the quotes first, their backslashes are escaped again
example :
    readQuoted (slashBefore '\\' (slashBefore '"' ['a', '"', 'b']) ++ ['"']) =
      some (['a', '\\'], ['b', '"']) := by
  decide

/-- A text without quotes and backslashes needs no escaping. -/
theorem escape_eq_self {cs : List Char} (h : ∀ c ∈ cs, c ≠ '"' ∧ c ≠ '\\') :
    escape cs = cs := by
  induction cs with
  | nil => rfl
  | cons c rest ih =>
    obtain ⟨hquote, hslash⟩ := h c List.mem_cons_self
    simp [escape, hquote, hslash, ih fun d hd => h d (List.mem_cons_of_mem c hd)]

end Literal

/-! ## Dates -/

namespace Calendar

/-- A character of a written date. -/
def isDateChar (c : Char) : Bool :=
  c.isDigit || c = '-' || c = '+' || c = '/'

theorem padded_isDigit (width n : Nat) : ∀ c ∈ (padded width n).toList, c.isDigit = true := by
  intro c hc
  simp only [padded, String.toList_ofList, List.mem_append, List.mem_replicate] at hc
  rcases hc with ⟨_, rfl⟩ | hc
  · rfl
  · exact Nat.isDigit_of_mem_toDigits (by decide) (by decide) hc

theorem yearText_isDateChar (year : Int) :
    ∀ c ∈ (yearText year).toList, isDateChar c = true := by
  intro c hc
  have hpadded : c ∈ (padded 4 year.natAbs).toList → isDateChar c = true := by
    intro hmem
    simp [isDateChar, padded_isDigit 4 _ c hmem]
  unfold yearText at hc
  split at hc
  · rcases List.mem_cons.mp (by simpa using hc) with rfl | hmem
    · rfl
    · exact hpadded hmem
  · split at hc
    · rcases List.mem_cons.mp (by simpa using hc) with rfl | hmem
      · rfl
      · exact hpadded hmem
    · exact hpadded hc

theorem dateText_isDateChar (d : DateTime) :
    ∀ c ∈ (d.dateText "/").toList, isDateChar c = true := by
  intro c hc
  have hpadded : ∀ n, c ∈ (padded 2 n).toList → isDateChar c = true := by
    intro n hmem
    simp [isDateChar, padded_isDigit 2 n c hmem]
  have hparts : c ∈ (yearText d.civil.year).toList ∨ c = '/' ∨
      c ∈ (padded 2 d.civil.month).toList ∨ c = '/' ∨ c ∈ (padded 2 d.civil.day).toList := by
    simpa [DateTime.dateText, or_assoc] using hc
  rcases hparts with hyear | rfl | hmonth | rfl | hday
  · exact yearText_isDateChar _ c hyear
  · rfl
  · exact hpadded _ hmonth
  · rfl
  · exact hpadded _ hday

end Calendar

/-- A day needs no escaping. -/
theorem Literal.date_eq_quoted (d : Calendar.DateTime) :
    Literal.date d = Literal.quoted true (d.dateText "/") := by
  have hplain : ∀ c ∈ (d.dateText "/").toList, c ≠ '"' ∧ c ≠ '\\' := by
    intro c hc
    have hchar := Calendar.dateText_isDateChar d c hc
    constructor
    · rintro rfl
      exact absurd hchar (by decide)
    · rintro rfl
      exact absurd hchar (by decide)
  simp [Literal.date, Literal.quoted, Literal.escape_eq_self hplain]

/-! ## Tokens -/

/-- What a literal says: a text in quotes, or a number. -/
inductive Token where
  | quoted (content : String)
  | number (n : Int)
deriving DecidableEq

namespace Token

/-- A token as it is written. -/
def text : Token → String
  | quoted content => Literal.quoted true content
  | number n       => Number.intText n

/-- The token of a value of the given type. -/
def ofValue (type : DataType) : Value → Token
  | .date d => quoted (d.dateText "/")
  | .int n  => if type.isString then quoted (Number.intText n.toInt) else number n.toInt
  | value   => quoted value.text

/-- An item of a list is written as its token. -/
theorem item_eq_text (type : DataType) (value : Value) :
    Literal.item true type value = (ofValue type value).text := by
  cases value with
  | date d => exact Literal.date_eq_quoted d
  | int n =>
    simp only [Literal.item, ofValue]
    split <;> simp [text, Value.text]
  | _ => rfl

/-- A token starts with a quote, a digit or a sign. -/
theorem text_head (t : Token) :
    ∃ c rest, t.text.toList = c :: rest ∧ (c = '"' ∨ c.isDigit = true ∨ c = '-') := by
  cases t with
  | quoted content => exact ⟨'"', _, Literal.quoted_toList content, Or.inl rfl⟩
  | number n =>
    obtain ⟨c, rest, htext, hc⟩ := Number.intText_head n
    exact ⟨c, rest, htext, Or.inr hc⟩

/-- **Tokens say where they end**: followed by anything but a digit, the token
    and what follows are told by the text. -/
theorem text_append_inj {t u : Token} {x y : List Char} (hx : NoDigitAhead x)
    (hy : NoDigitAhead y) (h : t.text.toList ++ x = u.text.toList ++ y) : t = u ∧ x = y := by
  -- no number starts with a quote
  have hkinds : ∀ (content : String) (n : Int) (x y : List Char),
      (quoted content).text.toList ++ x ≠ (number n).text.toList ++ y := by
    intro content n x y heq
    obtain ⟨c, rest, htext, hc⟩ := Number.intText_head n
    rw [text, text, Literal.quoted_toList, htext] at heq
    have hquote : '"' = c := (List.cons.inj heq).1
    subst hquote
    exact absurd hc (by decide)
  cases t with
  | quoted s =>
    cases u with
    | quoted s' =>
      obtain ⟨rfl, hrest⟩ := Literal.quoted_append_inj h
      exact ⟨rfl, hrest⟩
    | number n => exact absurd h (hkinds _ _ _ _)
  | number m =>
    cases u with
    | quoted s => exact absurd h.symm (hkinds _ _ _ _)
    | number n =>
      obtain ⟨rfl, hrest⟩ := Number.intText_append_inj hx hy h
      exact ⟨rfl, hrest⟩

end Token

end IssueSearch
