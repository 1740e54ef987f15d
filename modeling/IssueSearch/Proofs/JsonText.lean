import IssueSearch.Json.Reader
import IssueSearch.Json.Writer
import IssueSearch.Proofs.Tokens
import Mathlib.Data.List.TakeWhile

/-! # JSON text that is read back

    The text of a document says all there is to it, as long as the document
    holds no floating-point number, no number beyond 64 bits and nothing
    unreadable.  Reading such a text gives back the document up to the depth
    that the reader allows.

    * `Json.induction_on_parts`: induction over the parts of a document.
    * `Json.isExact`: the text says all there is.
    * `Json.depth`: how deep a document is nested.
    * `Json.cut`: a document of which only the parts down to a depth are left.
    * `Json.read?_compact`: what the text of an exact document reads as.
    * `Json.cut_of_depth_le`, `Json.depth_le_of_isReadable_cut`: which documents
      are left whole. -/

namespace IssueSearch.Json

/-! ## The parts of a document -/

/-- The items of an array. -/
def items : Json → List Json
  | arr items => items
  | _         => []

/-- The members of an object. -/
def members : Json → List (String × Json)
  | obj members => members
  | _           => []

theorem foldItems_eq {α : Type} (f : Json → List α → List (String × α) → α) (items : List Json) :
    foldItems f items = items.map (fold f) := by
  induction items with
  | nil => rfl
  | cons item rest ih => simp [foldItems, ih]

theorem foldMembers_eq {α : Type} (f : Json → List α → List (String × α) → α)
    (members : List (String × Json)) :
    foldMembers f members = members.map fun m => (m.1, m.2.fold f) := by
  induction members with
  | nil => rfl
  | cons m rest ih => simp [foldMembers, ih]

/-- What is computed of a document is told by what is computed of its parts. -/
theorem fold_eq {α : Type} (f : Json → List α → List (String × α) → α) (j : Json) :
    j.fold f = f j (j.items.map (fold f)) (j.members.map fun m => (m.1, m.2.fold f)) := by
  cases j with
  | arr parts => simp [fold, foldItems_eq, items, members]
  | obj parts => simp [fold, foldMembers_eq, items, members]
  | _ => rfl

theorem sizeOf_lt_of_mem_items {i j : Json} (h : i ∈ j.items) : sizeOf i < sizeOf j := by
  cases j with
  | arr items =>
    have hlt := List.sizeOf_lt_of_mem (show i ∈ items from h)
    rw [arr.sizeOf_spec]
    omega
  | _ => cases h

theorem sizeOf_lt_of_mem_members {m : String × Json} {j : Json} (h : m ∈ j.members) :
    sizeOf m.2 < sizeOf j := by
  cases j with
  | obj members =>
    have hlt := List.sizeOf_lt_of_mem (show m ∈ members from h)
    have hpair : sizeOf m = 1 + sizeOf m.1 + sizeOf m.2 := rfl
    rw [obj.sizeOf_spec]
    omega
  | _ => cases h

/-- **Induction over the parts of a document.** -/
theorem induction_on_parts {P : Json → Prop}
    (step : ∀ j : Json, (∀ i ∈ j.items, P i) → (∀ m ∈ j.members, P m.2) → P j) (j : Json) : P j :=
  step j
    (fun i hi =>
      have : sizeOf i < sizeOf j := sizeOf_lt_of_mem_items hi
      induction_on_parts step i)
    (fun m hm =>
      have : sizeOf m.2 < sizeOf j := sizeOf_lt_of_mem_members hm
      induction_on_parts step m.2)
termination_by sizeOf j

/-! ## Exact documents -/

/-- Does the text of a part say all there is to it, given whether those of the
    parts below do? -/
def exactPart (j : Json) (items : List Bool) (members : List (String × Bool)) : Bool :=
  match j with
  | float _ | unreadable => false
  | int n => -9223372036854775808 ≤ n && n ≤ 18446744073709551615
  | _ => items.all id && members.all Prod.snd

/-- Does the text of the document say all there is to it? -/
def isExact (j : Json) : Bool :=
  j.fold exactPart

theorem isExact_eq (j : Json) :
    j.isExact = exactPart j (j.items.map isExact) (j.members.map fun m => (m.1, m.2.isExact)) :=
  fold_eq exactPart j

theorem isReadable_eq (j : Json) :
    j.isReadable =
      readablePart j (j.items.map isReadable) (j.members.map fun m => (m.1, m.2.isReadable)) :=
  fold_eq readablePart j

@[simp] theorem isExact_arr (items : List Json) :
    (arr items).isExact = true ↔ ∀ i ∈ items, i.isExact = true := by
  rw [isExact_eq]
  simp [exactPart, Json.items, members]

@[simp] theorem isExact_obj (members : List (String × Json)) :
    (obj members).isExact = true ↔ ∀ m ∈ members, m.2.isExact = true := by
  rw [isExact_eq]
  simp [exactPart, items, Json.members]

theorem isExact_int (n : Int) :
    (int n).isExact = true ↔ -9223372036854775808 ≤ n ∧ n ≤ 18446744073709551615 := by
  simp [isExact, fold, exactPart]

@[simp] theorem isExact_null : null.isExact = true := rfl

@[simp] theorem isExact_bool (b : Bool) : (bool b).isExact = true := rfl

@[simp] theorem isExact_str (s : String) : (str s).isExact = true := rfl

/-- Nothing in an exact document is unreadable. -/
theorem isReadable_of_isExact {j : Json} (h : j.isExact = true) : j.isReadable = true := by
  induction j using induction_on_parts with
  | step j hitems hmembers =>
    rw [isReadable_eq]
    cases j with
    | arr items =>
      have hall := (isExact_arr items).mp h
      simpa [readablePart, Json.items, members] using fun i hi => hitems i hi (hall i hi)
    | obj members =>
      have hall := (isExact_obj members).mp h
      simpa [readablePart, items, Json.members] using
        fun key j hm => hmembers (key, j) hm (hall (key, j) hm)
    | unreadable => cases h
    | _ => rfl

/-! ## Depth -/

/-- The depth of a part, given the depths of the parts below it. -/
def depthPart (j : Json) (items : List Nat) (members : List (String × Nat)) : Nat :=
  match j with
  | arr _ => items.foldr max 0 + 1
  | obj _ => (members.map Prod.snd).foldr max 0 + 1
  | _     => 0

/-- How many arrays and objects stand around the innermost part. -/
def depth (j : Json) : Nat :=
  j.fold depthPart

theorem depth_eq (j : Json) :
    j.depth = depthPart j (j.items.map depth) (j.members.map fun m => (m.1, m.2.depth)) :=
  fold_eq depthPart j

theorem foldr_max_le_iff (ns : List Nat) (d : Nat) : ns.foldr max 0 ≤ d ↔ ∀ n ∈ ns, n ≤ d := by
  induction ns with
  | nil => simp
  | cons n rest ih => rw [List.foldr_cons, Nat.max_le, ih, List.forall_mem_cons]

theorem depth_arr_le_iff (items : List Json) (d : Nat) :
    (arr items).depth ≤ d ↔ 0 < d ∧ ∀ i ∈ items, i.depth ≤ d - 1 := by
  rw [depth_eq]
  cases d with
  | zero => simp [depthPart]
  | succ d => simp [depthPart, Json.items, foldr_max_le_iff]

theorem depth_obj_le_iff (members : List (String × Json)) (d : Nat) :
    (obj members).depth ≤ d ↔ 0 < d ∧ ∀ m ∈ members, m.2.depth ≤ d - 1 := by
  rw [depth_eq]
  have hdepths : ((members.map fun m => (m.1, m.2.depth)).map Prod.snd) =
      members.map fun m => m.2.depth := by simp
  cases d with
  | zero => simp [depthPart]
  | succ d =>
    simp only [depthPart, Json.members, hdepths, Nat.add_le_add_iff_right, foldr_max_le_iff,
      List.forall_mem_map, Nat.zero_lt_succ, true_and, Nat.add_sub_cancel]

/-- A part that may be nested `depth` deep, given the same of the parts below. -/
def cutPart (j : Json) (items : List (Nat → Json)) (members : List (String × (Nat → Json)))
    (depth : Nat) : Json :=
  match j with
  | arr _ => nested depth (arr (items.map fun cut => cut (depth - 1)))
  | obj _ => nested depth (obj (members.map fun m => (m.1, m.2 (depth - 1))))
  | leaf  => leaf

/-- The document with everything made unreadable that is nested more than
    `depth` deep. -/
def cut (j : Json) (depth : Nat) : Json :=
  j.fold cutPart depth

theorem cut_eq (j : Json) :
    j.cut = cutPart j (j.items.map cut) (j.members.map fun m => (m.1, m.2.cut)) :=
  fold_eq cutPart j

@[simp] theorem cut_arr (items : List Json) (d : Nat) :
    (arr items).cut d = nested d (arr (items.map fun i => i.cut (d - 1))) := by
  rw [cut_eq]
  simp [cutPart, Json.items, Function.comp_def]

@[simp] theorem cut_obj (members : List (String × Json)) (d : Nat) :
    (obj members).cut d = nested d (obj (members.map fun m => (m.1, m.2.cut (d - 1)))) := by
  rw [cut_eq]
  simp [cutPart, Json.members, Function.comp_def]

/-- Nothing is cut off a document that is not too deep. -/
theorem cut_of_depth_le {j : Json} {d : Nat} (h : j.depth ≤ d) : j.cut d = j := by
  induction j using induction_on_parts generalizing d with
  | step j hitems hmembers =>
    cases j with
    | arr items =>
      obtain ⟨hpos, hall⟩ := (depth_arr_le_iff items d).mp h
      have hmap : items.map (fun i => i.cut (d - 1)) = items.map id :=
        List.map_congr_left fun i hi => hitems i hi (hall i hi)
      rw [cut_arr, nested, if_neg (by omega), hmap, List.map_id]
    | obj members =>
      obtain ⟨hpos, hall⟩ := (depth_obj_le_iff members d).mp h
      have hmap : members.map (fun m => (m.1, m.2.cut (d - 1))) = members.map id :=
        List.map_congr_left fun m hm => by rw [hmembers m hm (hall m hm)]; rfl
      rw [cut_obj, nested, if_neg (by omega), hmap, List.map_id]
    | _ => rfl

/-- Something unreadable is left of a document that is too deep. -/
theorem depth_le_of_isReadable_cut {j : Json} {d : Nat} (h : (j.cut d).isReadable = true) :
    j.depth ≤ d := by
  induction j using induction_on_parts generalizing d with
  | step j hitems hmembers =>
    cases j with
    | arr items =>
      rw [depth_arr_le_iff]
      by_cases hzero : d = 0
      · rw [cut_arr, nested, if_pos hzero] at h
        cases h
      · rw [cut_arr, nested, if_neg hzero, isReadable_eq] at h
        refine ⟨by omega, fun i hi => hitems i hi ?_⟩
        have hall : ∀ i ∈ items, (i.cut (d - 1)).isReadable = true := by
          simpa [readablePart, Json.items, members] using h
        exact hall i hi
    | obj members =>
      rw [depth_obj_le_iff]
      by_cases hzero : d = 0
      · rw [cut_obj, nested, if_pos hzero] at h
        cases h
      · rw [cut_obj, nested, if_neg hzero, isReadable_eq] at h
        refine ⟨by omega, fun m hm => hmembers m hm ?_⟩
        have hall : ∀ key i, (key, i) ∈ members → (i.cut (d - 1)).isReadable = true := by
          simpa [readablePart, items, Json.members] using h
        exact hall m.1 m.2 hm
    | _ => exact Nat.zero_le d

/-! ## Texts -/

/-- The digits of a control character stand for it. -/
theorem unit?_hexDigit {n : Nat} (h : n < 0x20) :
    unit? '0' '0' (hexDigit (n / 16)) (hexDigit (n % 16)) = some n := by
  have hall : ∀ k : Fin 0x20,
      unit? '0' '0' (hexDigit (k.val / 16)) (hexDigit (k.val % 16)) = some k.val := by decide
  exact hall ⟨n, h⟩

/-- A character is read as it was written. -/
theorem textBody?_escapeChar (c : Char) (rest : List Char) :
    textBody? (escapeChar c ++ rest) = prepend (some c) (textBody? rest) := by
  by_cases hshort : c = '"' ∨ c = '\\' ∨ c = '\n' ∨ c = '\r' ∨ c = '\t' ∨ c = '\x08' ∨ c = '\x0c'
  · rcases hshort with rfl | rfl | rfl | rfl | rfl | rfl | rfl <;>
      simp [escapeChar, textBody?, shortEscape?]
  · -- other control characters are written by their number, the rest as they are
    obtain ⟨hquote, hslash, hline, hreturn, htab, hback, hfeed⟩ := by
      simpa only [not_or] using hshort
    simp only [escapeChar, hquote, hslash, hline, hreturn, htab, hback, hfeed, if_false]
    by_cases hcontrol : c.toNat < 0x20
    · have hunit : unitChar? c.toNat = some c := by
        rw [unitChar?, if_neg (by omega), Char.ofNat_toNat]
      simp [textBody?, hcontrol, unit?_hexDigit hcontrol, hunit]
    · simp [textBody?, hslash, hcontrol]

theorem textBody?_escaped (cs rest : List Char) :
    textBody? (cs.flatMap escapeChar ++ '"' :: rest) = some (some cs, rest) := by
  induction cs with
  | nil => simp [textBody?]
  | cons c more ih =>
    rw [List.flatMap_cons, List.append_assoc, textBody?_escapeChar, ih]
    rfl

theorem quoted_toList (s : String) :
    (quoted s).toList = '"' :: (s.toList.flatMap escapeChar ++ ['"']) := by
  simp [quoted]

theorem text?_escaped (s : String) (rest : List Char) :
    text? (s.toList.flatMap escapeChar ++ '"' :: rest) = some (some s, rest) := by
  simp [text?, textBody?_escaped]

/-! ## Numbers -/

/-- What may follow a value inside a document. -/
def EndsValue (rest : List Char) : Prop :=
  ∀ c ∈ rest.head?, c = ',' ∨ c = ']' ∨ c = '\x7d'

theorem endsValue_nil : EndsValue [] := by
  rintro c ⟨⟩

theorem endsValue_cons {c : Char} (h : c = ',' ∨ c = ']' ∨ c = '\x7d') (rest : List Char) :
    EndsValue (c :: rest) := by
  rintro _ ⟨⟩
  exact h

theorem digits_append {ds rest : List Char} (hds : ∀ c ∈ ds, c.isDigit = true)
    (hrest : EndsValue rest) : digits (ds ++ rest) = (ds, rest) := by
  have hnone : rest.takeWhile Char.isDigit = [] ∧ rest.dropWhile Char.isDigit = rest := by
    cases rest with
    | nil => exact ⟨rfl, rfl⟩
    | cons c more =>
      have hc : c.isDigit = false := by
        rcases hrest c rfl with rfl | rfl | rfl <;> rfl
      simp [hc]
  rw [digits, List.takeWhile_append_of_pos hds, List.dropWhile_append_of_pos hds, hnone.1, hnone.2,
    List.append_nil]

/-- Digits do not start with a zero unless they are one. -/
theorem toDigits_head {n : Nat} {c d : Char} {cs : List Char}
    (h : Nat.toDigits 10 n = c :: d :: cs) : c ≠ '0' := by
  induction n using Nat.strongRecOn generalizing d cs with
  | ind n ih =>
    rw [Nat.toDigits_eq_if (by decide)] at h
    by_cases hsmall : n < 10
    · rw [if_pos hsmall] at h
      cases h
    · rw [if_neg hsmall] at h
      cases hleading : Nat.toDigits 10 (n / 10) with
      | nil => exact absurd hleading Nat.toDigits_ne_nil
      | cons c' more =>
        rw [hleading] at h
        obtain rfl : c' = c := (List.cons.inj h).1
        cases more with
        | cons d' more => exact ih (n / 10) (by omega) hleading
        | nil =>
          -- the leading digit stands alone, and it is not zero
          have hone : n / 10 < 10 := by
            have hlength := Nat.length_toDigits_le_iff (b := 10) (n := n / 10) (k := 1)
              (by decide) (by decide)
            rw [hleading] at hlength
            exact hlength.mp (by simp)
          rw [Nat.toDigits_of_lt_base hone] at hleading
          obtain rfl : (n / 10).digitChar = c' := (List.cons.inj hleading).1
          have hdigits : ∀ k : Fin 10, k.val ≠ 0 → k.val.digitChar ≠ '0' := by decide
          exact hdigits ⟨n / 10, hone⟩ (by show n / 10 ≠ 0; omega)

theorem whole?_toDigits (n : Nat) {rest : List Char} (hrest : EndsValue rest) :
    whole? (Nat.toDigits 10 n ++ rest) = some (Nat.toDigits 10 n, rest) := by
  have hds : ∀ c ∈ Nat.toDigits 10 n, c.isDigit = true :=
    fun c hc => Nat.isDigit_of_mem_toDigits (by decide) (by decide) hc
  unfold whole?
  rw [digits_append hds hrest]
  split
  · rename_i heq
    exact absurd (Prod.mk.inj heq).1 Nat.toDigits_ne_nil
  · rename_i heq
    exact absurd rfl (toDigits_head (Prod.mk.inj heq).1)
  · rename_i heq
    obtain ⟨rfl, rfl⟩ := Prod.mk.inj heq
    rfl

/-- More digits do not make a number smaller. -/
theorem le_ofDigitChars (ds : List Char) (n : Nat) : n ≤ Nat.ofDigitChars 10 ds n := by
  induction ds generalizing n with
  | nil => exact Nat.le_refl n
  | cons c rest ih =>
    rw [Nat.ofDigitChars_cons]
    exact Nat.le_trans (by omega) (ih _)

/-- Digits are absorbed as long as their value fits. -/
theorem absorb_eq (ds : List Char) {n : Nat} (h : Nat.ofDigitChars 10 ds n ≤ maxWhole) :
    absorb n ds = (Nat.ofDigitChars 10 ds n, []) := by
  induction ds generalizing n with
  | nil => rfl
  | cons c rest ih =>
    rw [Nat.ofDigitChars_cons] at h ⊢
    have hfits : n * 10 + (c.toNat - '0'.toNat) ≤ maxWhole := by
      have hstep := le_ofDigitChars rest (10 * n + (c.toNat - '0'.toNat))
      omega
    rw [absorb, if_pos hfits, Nat.mul_comm n 10]
    exact ih h

theorem absorb_toDigits {n : Nat} (h : n ≤ maxWhole) : absorb 0 (Nat.toDigits 10 n) = (n, []) := by
  rw [absorb_eq _ (by rwa [Nat.ofDigitChars_ten_toDigits]), Nat.ofDigitChars_ten_toDigits]

/-- No fraction and no exponent follow. -/
theorem unsigned?_toDigits (negative : Bool) (n : Nat) {rest : List Char}
    (hrest : EndsValue rest) :
    unsigned? negative (Nat.toDigits 10 n ++ rest) =
      some (orUnreadable (Numeral.value?
        { negative := negative, whole := Nat.toDigits 10 n, fraction := none, exponent := none }),
        rest) := by
  have hfraction : fraction? rest = some (none, rest) := by
    unfold fraction?
    split
    · exact absurd (hrest '.' rfl) (by decide)
    · rfl
  have hexponent : exponent? rest = some (none, rest) := by
    unfold exponent?
    split
    · exact absurd (hrest 'e' rfl) (by decide)
    · exact absurd (hrest 'E' rfl) (by decide)
    · exact absurd (hrest 'e' rfl) (by decide)
    · exact absurd (hrest 'E' rfl) (by decide)
    · exact absurd (hrest 'e' rfl) (by decide)
    · exact absurd (hrest 'E' rfl) (by decide)
    · rfl
  simp [unsigned?, whole?_toDigits n hrest, hfraction, hexponent]

/-- A whole number of 64 bits is read as it was written. -/
theorem number?_intText {n : Int} (h : (int n).isExact = true) {rest : List Char}
    (hrest : EndsValue rest) :
    number? ((Number.intText n).toList ++ rest) = some (int n, rest) := by
  obtain ⟨hge, hle⟩ := (isExact_int n).mp h
  have hmax : maxWhole = 18446744073709551615 := rfl
  have habsorb : absorb 0 (Nat.toDigits 10 n.natAbs) = (n.natAbs, []) :=
    absorb_toDigits (by omega)
  by_cases hneg : n < 0
  · have htext : (Number.intText n).toList = '-' :: Nat.toDigits 10 n.natAbs := by
      simp [Number.intText, hneg, Number.natText]
    have hpositive : n.natAbs ≠ 0 := by omega
    have hfits : n.natAbs ≤ Nat.pow 2 63 := by
      have hpow : Nat.pow 2 63 = 9223372036854775808 := rfl
      omega
    have hvalue : Numeral.value?
        { negative := true, whole := Nat.toDigits 10 n.natAbs, fraction := none,
          exponent := none } = some (int (-(n.natAbs : Int))) := by
      simp [Numeral.value?, habsorb, hpositive, hfits]
    rw [htext, List.cons_append, number?, unsigned?_toDigits true _ hrest, hvalue,
      show -(n.natAbs : Int) = n by omega]
    rfl
  · have htext : (Number.intText n).toList = Nat.toDigits 10 n.natAbs := by
      simp [Number.intText, hneg, Number.natText]
    have hvalue : Numeral.value?
        { negative := false, whole := Nat.toDigits 10 n.natAbs, fraction := none,
          exponent := none } = some (int (n.natAbs : Int)) := by
      simp [Numeral.value?, habsorb]
    have hunsigned : number? (Nat.toDigits 10 n.natAbs ++ rest) =
        unsigned? false (Nat.toDigits 10 n.natAbs ++ rest) := by
      obtain ⟨c, more, hdigits, hc⟩ := Number.natText_head n.natAbs
      rw [Number.natText, String.toList_ofList] at hdigits
      unfold number?
      rw [hdigits]
      split
      · rename_i heq
        rw [(List.cons.inj heq).1] at hc
        exact absurd hc (by decide)
      · rfl
    rw [htext, hunsigned, unsigned?_toDigits false _ hrest, hvalue,
      show (n.natAbs : Int) = n by omega]
    rfl

/-! ## Values -/

/-- A character that no value starts with: a blank, or the end of an array or of
    an object. -/
def isGap (c : Char) : Bool :=
  c = ' ' || c = '\n' || c = '\t' || c = '\r' || c = ']' || c = '\x7d'

theorem skipBlanks_cons {c : Char} (h : isGap c = false) (rest : List Char) :
    skipBlanks (c :: rest) = c :: rest := by
  have hblank : (c = ' ' || c = '\n' || c = '\t' || c = '\r') = false := by
    simp only [isGap, Bool.or_eq_false_iff] at h ⊢
    exact h.1.1
  simp [skipBlanks, hblank]

/-- The marks between values are no blanks. -/
theorem skipBlanks_mark (cs : List Char) :
    skipBlanks ('"' :: cs) = '"' :: cs ∧ skipBlanks (':' :: cs) = ':' :: cs ∧
      skipBlanks (',' :: cs) = ',' :: cs ∧
      skipBlanks ('[' :: cs) = '[' :: cs ∧ skipBlanks (']' :: cs) = ']' :: cs ∧
      skipBlanks ('\x7b' :: cs) = '\x7b' :: cs ∧ skipBlanks ('\x7d' :: cs) = '\x7d' :: cs :=
  ⟨rfl, rfl, rfl, rfl, rfl, rfl, rfl⟩

theorem isGap_of_isDigit {c : Char} (h : c.isDigit = true) : isGap c = false := by
  cases hgap : isGap c with
  | false => rfl
  | true =>
    have hcases : c = ' ' ∨ c = '\n' ∨ c = '\t' ∨ c = '\r' ∨ c = ']' ∨ c = '\x7d' := by
      simpa [isGap, or_assoc] using hgap
    rcases hcases with rfl | rfl | rfl | rfl | rfl | rfl <;> exact absurd h (by decide)

theorem compact_arr_toList (items : List Json) :
    (arr items).compact.toList = '[' :: ((compactItems items).toList ++ [']']) := by
  simp [compact]

theorem compact_obj_toList (members : List (String × Json)) :
    (obj members).compact.toList = '\x7b' :: ((compactMembers members).toList ++ ['\x7d']) := by
  simp [compact]

/-- A value starts with a character of its own. -/
theorem compact_head {j : Json} (h : j.isExact = true) :
    ∃ c cs, j.compact.toList = c :: cs ∧ isGap c = false := by
  cases j with
  | null => exact ⟨'n', _, rfl, rfl⟩
  | bool b => cases b <;> exact ⟨_, _, rfl, rfl⟩
  | int n =>
    obtain ⟨c, cs, htext, hc⟩ := Number.intText_head n
    refine ⟨c, cs, htext, ?_⟩
    rcases hc with hdigit | rfl
    · exact isGap_of_isDigit hdigit
    · rfl
  | str s => exact ⟨'"', _, by rw [compact, quoted_toList], rfl⟩
  | arr items => exact ⟨'[', _, compact_arr_toList items, rfl⟩
  | obj members => exact ⟨'\x7b', _, compact_obj_toList members, rfl⟩
  | float x => cases h
  | unreadable => cases h

/-- `j.ReadsBack`: wherever the text of the document stands, it is read as the
    document down to the depth that is allowed there. -/
def ReadsBack (j : Json) : Prop :=
  ∀ (fuel depth : Nat) (rest : List Char), j.compact.toList.length ≤ fuel → EndsValue rest →
    valueFrom? fuel depth (j.compact.toList ++ rest) = some (j.cut depth, rest)

theorem compactItems_cons (item : Json) {rest : List Json} (h : rest ≠ []) :
    compactItems (item :: rest) = item.compact ++ "," ++ compactItems rest := by
  cases rest with
  | nil => exact absurd rfl h
  | cons next more => rw [compactItems]; simp

theorem compactMembers_cons (key : String) (item : Json) {rest : List (String × Json)}
    (h : rest ≠ []) :
    compactMembers ((key, item) :: rest) =
      quoted key ++ ":" ++ item.compact ++ "," ++ compactMembers rest := by
  cases rest with
  | nil => exact absurd rfl h
  | cons next more => rw [compactMembers]; simp

/-- Items that are read back are read back in succession.  Each takes a step of
    its own, and the comma after it makes up for that. -/
theorem itemsFrom?_compactItems {items : List Json} (hne : items ≠ [])
    (h : ∀ i ∈ items, i.ReadsBack) (fuel depth : Nat) (rest : List Char)
    (hfuel : (compactItems items).toList.length + 1 ≤ fuel) :
    itemsFrom? fuel depth ((compactItems items).toList ++ ']' :: rest) =
      some (items.map fun i => i.cut depth, rest) := by
  induction items generalizing fuel with
  | nil => exact absurd rfl hne
  | cons item more ih =>
    obtain ⟨fuel, rfl⟩ : ∃ k, fuel = k + 1 := ⟨fuel - 1, by omega⟩
    have hitem := h item List.mem_cons_self
    -- the last item is followed by the bracket, every other one by a comma
    by_cases hlast : more = []
    · subst hlast
      have hread := hitem fuel depth (']' :: rest) (by simpa [compactItems] using hfuel)
        (endsValue_cons (by decide) rest)
      simp only [compactItems, itemsFrom?, hread, skipBlanks_mark, List.map_cons, List.map_nil]
    · have htext : (compactItems (item :: more)).toList ++ ']' :: rest =
          item.compact.toList ++ ',' :: ((compactItems more).toList ++ ']' :: rest) := by
        simp [compactItems_cons item hlast]
      have hlength : (compactItems (item :: more)).toList.length =
          item.compact.toList.length + ((compactItems more).toList.length + 1) := by
        simp [compactItems_cons item hlast]
      have hread := hitem fuel depth (',' :: ((compactItems more).toList ++ ']' :: rest))
        (by omega) (endsValue_cons (by decide) _)
      have hmore := ih hlast (fun i hi => h i (List.mem_cons_of_mem item hi)) fuel (by omega)
      simp only [htext, itemsFrom?, hread, skipBlanks_mark, hmore, Option.map_some, List.map_cons]

/-- The same of members. -/
theorem membersFrom?_compactMembers {members : List (String × Json)} (hne : members ≠ [])
    (h : ∀ m ∈ members, m.2.ReadsBack) (fuel depth : Nat) (rest : List Char)
    (hfuel : (compactMembers members).toList.length + 1 ≤ fuel) :
    membersFrom? fuel depth ((compactMembers members).toList ++ '\x7d' :: rest) =
      some (some (members.map fun m => (m.1, m.2.cut depth)), rest) := by
  induction members generalizing fuel with
  | nil => exact absurd rfl hne
  | cons m more ih =>
    obtain ⟨key, item⟩ := m
    obtain ⟨fuel, rfl⟩ : ∃ k, fuel = k + 1 := ⟨fuel - 1, by omega⟩
    have hitem : item.ReadsBack := h (key, item) List.mem_cons_self
    by_cases hlast : more = []
    · subst hlast
      have htext : (compactMembers [(key, item)]).toList ++ '\x7d' :: rest =
          '"' :: (key.toList.flatMap escapeChar ++
            '"' :: (':' :: (item.compact.toList ++ '\x7d' :: rest))) := by
        simp [compactMembers, quoted_toList]
      have hlength :
          item.compact.toList.length ≤ (compactMembers [(key, item)]).toList.length := by
        simp only [compactMembers, String.toList_append, List.length_append]
        omega
      have hread := hitem fuel depth ('\x7d' :: rest) (by omega) (endsValue_cons (by decide) rest)
      simp only [htext, membersFrom?, skipBlanks_mark, text?_escaped, hread, addMember,
        Option.bind_some, Option.map_some, List.map_cons, List.map_nil]
    · have htext : (compactMembers ((key, item) :: more)).toList ++ '\x7d' :: rest =
          '"' :: (key.toList.flatMap escapeChar ++ '"' :: (':' :: (item.compact.toList ++
            ',' :: ((compactMembers more).toList ++ '\x7d' :: rest)))) := by
        simp [compactMembers_cons key item hlast, quoted_toList]
      have hlength : item.compact.toList.length + ((compactMembers more).toList.length + 1) ≤
          (compactMembers ((key, item) :: more)).toList.length := by
        have hone : ",".toList.length = 1 := rfl
        simp only [compactMembers_cons key item hlast, String.toList_append, List.length_append]
        omega
      have hread := hitem fuel depth (',' :: ((compactMembers more).toList ++ '\x7d' :: rest))
        (by omega) (endsValue_cons (by decide) _)
      have hmore := ih hlast (fun i hi => h i (List.mem_cons_of_mem _ hi)) fuel (by omega)
      simp only [htext, membersFrom?, skipBlanks_mark, text?_escaped, hread, hmore, addMember,
        Option.bind_some, Option.map_some, List.map_cons]

/-- A number is read where nothing else is. -/
theorem valueFrom?_number {c : Char} (h : c.isDigit = true ∨ c = '-') (fuel depth : Nat)
    (rest : List Char) : valueFrom? (fuel + 1) depth (c :: rest) = number? (c :: rest) := by
  have hgap : isGap c = false := by
    rcases h with hdigit | rfl
    · exact isGap_of_isDigit hdigit
    · rfl
  unfold valueFrom?
  rw [skipBlanks_cons hgap]
  split
  case h_1 heq => cases heq
  case h_8 => rfl
  -- all other values start with a character that no number starts with
  all_goals
    rename_i heq
    rw [(List.cons.inj heq).1] at h
    exact absurd h (by decide)

/-- What has no parts is read in one step. -/
theorem ReadsBack.of_step {j : Json} (hexact : j.isExact = true)
    (h : ∀ (fuel depth : Nat) (rest : List Char), EndsValue rest →
      valueFrom? (fuel + 1) depth (j.compact.toList ++ rest) = some (j.cut depth, rest)) :
    j.ReadsBack := by
  intro fuel depth rest hfuel hrest
  obtain ⟨c, cs, htext, _⟩ := compact_head hexact
  rw [htext, List.length_cons] at hfuel
  obtain ⟨fuel, rfl⟩ : ∃ k, fuel = k + 1 := ⟨fuel - 1, by omega⟩
  exact h fuel depth rest hrest

theorem ReadsBack.int {n : Int} (h : (Json.int n).isExact = true) : (Json.int n).ReadsBack := by
  refine .of_step h fun fuel depth rest hrest => ?_
  obtain ⟨c, cs, htext, hc⟩ := Number.intText_head n
  have hread := number?_intText h hrest
  rw [htext, List.cons_append] at hread
  rw [compact, htext, List.cons_append, valueFrom?_number hc, hread]
  rfl

theorem ReadsBack.str (s : String) : (Json.str s).ReadsBack := by
  refine .of_step rfl fun fuel depth rest _ => ?_
  have htext : (Json.str s).compact.toList ++ rest =
      '"' :: (s.toList.flatMap escapeChar ++ '"' :: rest) := by
    simp [compact, quoted_toList]
  simp only [htext, valueFrom?, skipBlanks_mark, text?_escaped, Option.map_some]
  rfl

/-- An item stands right after the bracket. -/
theorem compactItems_head {items : List Json} (hne : items ≠ [])
    (h : ∀ i ∈ items, i.isExact = true) :
    ∃ c cs, (compactItems items).toList = c :: cs ∧ isGap c = false := by
  cases items with
  | nil => exact absurd rfl hne
  | cons item more =>
    obtain ⟨c, cs, htext, hc⟩ := compact_head (h item List.mem_cons_self)
    by_cases hlast : more = []
    · subst hlast
      exact ⟨c, cs, htext, hc⟩
    · have hmore : (compactItems (item :: more)).toList =
          c :: (cs ++ ',' :: (compactItems more).toList) := by
        simp [compactItems_cons item hlast, htext]
      exact ⟨c, _, hmore, hc⟩

/-- A key stands right after the brace. -/
theorem compactMembers_head {members : List (String × Json)} (hne : members ≠ []) :
    ∃ cs, (compactMembers members).toList = '"' :: cs := by
  have hquoted : ∀ key t : String, ∃ cs, (quoted key ++ t).toList = '"' :: cs := by
    intro key t
    rw [String.toList_append, quoted_toList, List.cons_append]
    exact ⟨_, rfl⟩
  cases members with
  | nil => exact absurd rfl hne
  | cons m more =>
    by_cases hlast : more = []
    · subst hlast
      rw [compactMembers, String.append_assoc]
      exact hquoted m.1 _
    · rw [compactMembers_cons m.1 m.2 hlast]
      simp only [String.append_assoc]
      exact hquoted m.1 _

/-- An array that does not end right after its bracket has items. -/
theorem valueFrom?_items {c : Char} (h : isGap c = false) (fuel depth : Nat) (cs : List Char) :
    valueFrom? (fuel + 1) depth ('[' :: c :: cs) =
      (itemsFrom? fuel (depth - 1) (c :: cs)).map fun (items, rest) =>
        (nested depth (arr items), rest) := by
  simp only [valueFrom?, skipBlanks_mark, skipBlanks_cons h]
  split
  · rename_i heq
    rw [(List.cons.inj heq).1] at h
    exact absurd h (by decide)
  · rfl

/-- The same of an object and its members. -/
theorem valueFrom?_members {c : Char} (h : isGap c = false) (fuel depth : Nat) (cs : List Char) :
    valueFrom? (fuel + 1) depth ('\x7b' :: c :: cs) =
      (membersFrom? fuel (depth - 1) (c :: cs)).map fun (members?, rest) =>
        (nested depth (orUnreadable (members?.map obj)), rest) := by
  simp only [valueFrom?, skipBlanks_mark, skipBlanks_cons h]
  split
  · rename_i heq
    rw [(List.cons.inj heq).1] at h
    exact absurd h (by decide)
  · rfl

theorem ReadsBack.arr {items : List Json} (hexact : ∀ i ∈ items, i.isExact = true)
    (h : ∀ i ∈ items, i.ReadsBack) : (Json.arr items).ReadsBack := by
  intro fuel depth rest hfuel _
  have htext : (Json.arr items).compact.toList ++ rest =
      '[' :: ((compactItems items).toList ++ ']' :: rest) := by
    simp [compact]
  rw [compact_arr_toList, List.length_cons, List.length_append] at hfuel
  obtain ⟨fuel, rfl⟩ : ∃ k, fuel = k + 1 := ⟨fuel - 1, by omega⟩
  rw [htext, cut_arr]
  by_cases hempty : items = []
  · subst hempty
    rfl
  · -- an item follows the bracket, so that the array is not taken for an empty one
    obtain ⟨c, cs, hhead, hgap⟩ := compactItems_head hempty hexact
    have hread := itemsFrom?_compactItems hempty h fuel (depth - 1) rest (by simpa using hfuel)
    rw [hhead, List.cons_append] at hread ⊢
    rw [valueFrom?_items hgap, hread, Option.map_some]

theorem ReadsBack.obj {members : List (String × Json)} (h : ∀ m ∈ members, m.2.ReadsBack) :
    (Json.obj members).ReadsBack := by
  intro fuel depth rest hfuel _
  have htext : (Json.obj members).compact.toList ++ rest =
      '\x7b' :: ((compactMembers members).toList ++ '\x7d' :: rest) := by
    simp [compact]
  rw [compact_obj_toList, List.length_cons, List.length_append] at hfuel
  obtain ⟨fuel, rfl⟩ : ∃ k, fuel = k + 1 := ⟨fuel - 1, by omega⟩
  rw [htext, cut_obj]
  by_cases hempty : members = []
  · subst hempty
    rfl
  · obtain ⟨cs, hhead⟩ := compactMembers_head hempty
    have hread :=
      membersFrom?_compactMembers hempty h fuel (depth - 1) rest (by simpa using hfuel)
    rw [hhead, List.cons_append] at hread ⊢
    rw [valueFrom?_members rfl, hread, Option.map_some]
    rfl

/-- **Exact documents are read back**, wherever their text stands. -/
theorem readsBack {j : Json} (h : j.isExact = true) : j.ReadsBack := by
  induction j using induction_on_parts with
  | step j hitems hmembers =>
    cases j with
    | null => exact .of_step rfl fun _ _ _ _ => rfl
    | bool b => cases b <;> exact .of_step rfl fun _ _ _ _ => rfl
    | int n => exact .int h
    | str s => exact .str s
    | arr items =>
      have hexact := (isExact_arr items).mp h
      exact .arr hexact fun i hi => hitems i hi (hexact i hi)
    | obj members =>
      have hexact := (isExact_obj members).mp h
      exact .obj fun m hm => hmembers m hm (hexact m hm)
    | float x => cases h
    | unreadable => cases h

/-- The text of an exact document reads as the document, down to the depth that
    the reader allows. -/
theorem read?_compact {j : Json} (h : j.isExact = true) :
    read? j.compact = some (j.cut maxDepth) := by
  have hread := readsBack h (2 * j.compact.toList.length + 2) maxDepth [] (by omega) endsValue_nil
  rw [List.append_nil] at hread
  simp [read?, hread, skipBlanks]

end IssueSearch.Json
