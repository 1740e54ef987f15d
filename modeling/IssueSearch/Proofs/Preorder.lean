import IssueSearch.Proofs.Sorting
import Mathlib.Data.Set.Subsingleton

/-! # Where the order of values is an order

    A sort may rely on its comparison only if that is a total preorder.  Two
    values compare by what they have in common: numbers as numbers, dates as
    dates, and anything else by text.  Each of these is an order, but one pair
    of three values may be compared by one of them and the next pair by
    another, and then the three may go round in a circle.

    * `Value.order_swap`: two values compare alike from either side.
    * `Family`: the kinds of values that are compared by one order, and
      `Family.order`, that order.
    * `Family.order_eq`: values of one family, absent ones included, compare as
      the family does.
    * `Family.circle`: three values of any two families that go round in a
      circle.
    * `Value.order_isPreorder_iff`: so the order of values is a total preorder
      on the values of one family, and on no more. -/

namespace IssueSearch

/-! ## Two values -/

/-- Numbers are ordered as their places in the total order. -/
theorem Number.order_eq_compare (x y : Float) :
    Number.order x y = compare (Number.rank x) (Number.rank y) := by
  simp only [Number.order, Int.compare_eq_ite_lt]
  grind

/-- **Symmetry**: the comparison of two values the other way round is the
    reverse. -/
theorem Value.order_swap (a b : Value) : b.order a = (a.order b).swap := by
  have hnumber : ∀ x y : Float, Number.order y x = (Number.order x y).swap := by
    intro x y
    rw [Number.order_eq_compare, Number.order_eq_compare]
    exact Std.OrientedCmp.eq_swap
  have htext : ∀ s t : String, textOrder t s = (textOrder s t).swap := by
    intro s t
    rw [OrderedKind.textOrder_eq_compare, OrderedKind.textOrder_eq_compare]
    exact Std.OrientedCmp.eq_swap
  -- an absent value comes first
  by_cases ha : a = .null
  · subst ha
    cases b <;> rfl
  by_cases hb : b = .null
  · subst hb
    cases a <;> rfl
  cases a <;> cases b
  case int.int m n =>
    show orderBy _ _ = (orderBy _ _).swap
    rw [OrderedKind.intOrder_eq_compare, OrderedKind.intOrder_eq_compare]
    exact Std.OrientedCmp.eq_swap
  case int.float m y => exact hnumber (Number.ofInt64 m) y
  case float.int x n => exact hnumber x (Number.ofInt64 n)
  case float.float x y => exact hnumber x y
  case bool.bool p q => cases p <;> cases q <;> rfl
  case date.date d e =>
    show e.order d = (d.order e).swap
    rw [Calendar.DateTime.order_eq_compare, Calendar.DateTime.order_eq_compare]
    exact Std.OrientedCmp.eq_swap
  -- two kinds with nothing in common go by text
  all_goals first | exact absurd rfl ha | exact absurd rfl hb | exact htext _ _

/-! ## Families -/

/-- The kinds of values that are compared by one order. -/
inductive Family where
  /-- Truth values, texts, lists, records and remote collections, by text. -/
  | text
  | int
  | float
  | date
deriving DecidableEq

/-- The family of a value.  The absent value is of none: it comes before all
    others. -/
def Value.family? : Value → Option Family
  | .null    => none
  | .int _   => some .int
  | .float _ => some .float
  | .date _  => some .date
  | _        => some .text

/-- The value is absent, or of one of the families. -/
def Value.IsOf (families : Set Family) (v : Value) : Prop :=
  ∀ f ∈ v.family?, f ∈ families

/-- A value is of a single family, or it is absent. -/
theorem Value.isOf_singleton {f : Family} {v : Value} :
    v.IsOf {f} ↔ v = .null ∨ v.family? = some f := by
  unfold IsOf
  cases v with
  | null => simp [family?]
  | _ => simp [family?, eq_comm]

namespace Family

/-- The text of a value that is present. -/
def wording? : Value → Option String
  | .null => none
  | v     => some v.text

/-- The place of a floating-point number in the order of all of them. -/
def place? : Value → Option Int
  | .float x => some (Number.rank x)
  | _        => none

/-- The order of a family, absent values first. -/
def order : Family → Value → Value → Ordering
  | .text  => compareOn wording?
  | .int   => OrderedKind.int.order
  | .float => compareOn place?
  | .date  => OrderedKind.date.order

instance (f : Family) : Std.TransCmp f.order := by
  cases f with
  | text => exact inferInstanceAs (Std.TransCmp (compareOn wording?))
  | float => exact inferInstanceAs (Std.TransCmp (compareOn place?))
  | int => exact inferInstanceAs (Std.TransCmp OrderedKind.int.order)
  | date => exact inferInstanceAs (Std.TransCmp OrderedKind.date.order)

/-- Values that go by text compare as their texts do.  So do truth values,
    whose texts stand in their order. -/
theorem order_eq_textOrder {a b : Value} (ha : a.family? = some .text)
    (hb : b.family? = some .text) : a.order b = Value.textOrder a.text b.text := by
  cases a <;> cases ha <;> cases b <;> cases hb <;> try rfl
  case bool.refl.bool.refl p q => cases p <;> cases q <;> decide

/-- Two values of a family that are both present. -/
theorem order_eq_of_present {f : Family} {a b : Value} (ha : a.family? = some f)
    (hb : b.family? = some f) : a.order b = f.order a b := by
  cases f with
  | text =>
    have hwording : ∀ v : Value, v.family? = some .text → wording? v = some v.text := by
      intro v hv
      cases v <;> cases hv <;> rfl
    rw [order_eq_textOrder ha hb, OrderedKind.textOrder_eq_compare]
    show _ = compare (wording? a) (wording? b)
    rw [hwording a ha, hwording b hb]
    rfl
  | int =>
    cases a <;> cases ha
    cases b <;> cases hb
    exact OrderedKind.intOrder_eq_compare _ _
  | float =>
    cases a <;> cases ha
    cases b <;> cases hb
    exact Number.order_eq_compare _ _
  | date =>
    cases a <;> cases ha
    cases b <;> cases hb
    exact Calendar.DateTime.order_eq_compare _ _

/-- **Order on a family**: values of one family, absent ones included, compare
    as the family does. -/
theorem order_eq {f : Family} {a b : Value} (ha : a.IsOf {f}) (hb : b.IsOf {f}) :
    a.order b = f.order a b := by
  rw [Value.isOf_singleton] at ha hb
  rcases ha with rfl | ha
  · rcases hb with rfl | hb
    · cases f <;> rfl
    · cases f <;> cases b <;> cases hb <;> rfl
  · rcases hb with rfl | hb
    · cases f <;> cases a <;> cases ha <;> rfl
    · exact order_eq_of_present ha hb

/-- No value of a family comes after itself by way of another one. -/
theorem order_trans {f : Family} {a b c : Value} (ha : a.IsOf {f}) (hb : b.IsOf {f})
    (hc : c.IsOf {f}) (hab : a.order b ≠ .gt) (hbc : b.order c ≠ .gt) : a.order c ≠ .gt := by
  rw [order_eq ha hb] at hab
  rw [order_eq hb hc] at hbc
  rw [order_eq ha hc]
  exact Sequence.ne_gt_trans hab hbc

/-! ## Circles -/

/-- Of the three values, each does not come after the next, yet the first comes
    after the last. -/
def GoesRound (a b c : Value) : Prop :=
  a.order b ≠ .gt ∧ b.order c ≠ .gt ∧ a.order c = .gt

instance (a b c : Value) : Decidable (GoesRound a b c) :=
  inferInstanceAs (Decidable (_ ∧ _ ∧ _))

/-- The beginning of 1970, and so many nanoseconds more. -/
def instantAfter (nanos : Fin Calendar.nanosPerDay) : Calendar.DateTime :=
  { day := 0, nanos := nanos, day_ge := by decide, day_le := by decide, nanos_lt := nanos.isLt }

/-- Three values of two families that go round in a circle.  Numbers stand in
    another order than their texts, two whole numbers may be level with one
    floating-point number, and two dates may have one text. -/
def circle : Family → Family → Value × Value × Value
  | .int, .text | .text, .int     => (.int 9, .int 10, .str "5")
  | .int, .date | .date, .int     => (.int 9, .int 10, .date (instantAfter ⟨0, by decide⟩))
  | .float, .text | .text, .float => (.float 9, .float 10, .str "5")
  | .float, .date | .date, .float => (.float 9, .float 10, .date (instantAfter ⟨0, by decide⟩))
  | .int, .float | .float, .int   =>
    (.int 9007199254740993, .float 9007199254740992, .int 9007199254740992)
  | .date, .text | .text, .date   =>
    (.date (instantAfter ⟨1, by decide⟩), .str "1970-01-01 00:00:00",
      .date (instantAfter ⟨0, by decide⟩))
  | _, _                          => (.null, .null, .null)

/-- **Any two families hold a circle.** -/
theorem exists_goesRound {f g : Family} (h : f ≠ g) :
    ∃ a b c : Value, (∀ v ∈ [a, b, c], v.IsOf {f, g}) ∧ GoesRound a b c := by
  refine ⟨(circle f g).1, (circle f g).2.1, (circle f g).2.2, ?_, ?_⟩
  · cases f <;> cases g <;> simp [circle, Value.IsOf, Value.family?]
  · revert h
    cases f <;> cases g <;> decide +kernel

end Family

/-! ## Sets of families -/

namespace Value

theorem IsOf.mono {families families' : Set Family} {v : Value} (h : v.IsOf families)
    (hsub : families ⊆ families') : v.IsOf families' :=
  fun f hf => hsub (h f hf)

/-- **Where the order of values is a total preorder.** A value is level with
    itself, and two values compare alike from either side, whatever they are.
    But values of several families follow each other consistently exactly if
    there is no more than one family, absent values apart. -/
theorem order_isPreorder_iff (families : Set Family) :
    (∀ a : Value, a.order a = .eq) ∧ (∀ a b : Value, b.order a = (a.order b).swap) ∧
      ((∀ a b c : Value, a.IsOf families → b.IsOf families → c.IsOf families →
        a.order b ≠ .gt → b.order c ≠ .gt → a.order c ≠ .gt) ↔ families.Subsingleton) := by
  refine ⟨order_self, order_swap, fun htrans => ?_, fun hone => ?_⟩
  · -- two families would bring a circle with them
    by_contra hmany
    obtain ⟨f, hf, g, hg, hne⟩ := Set.not_subsingleton_iff.mp hmany
    obtain ⟨a, b, c, hof, hab, hbc, hac⟩ := Family.exists_goesRound hne
    have hin : ∀ v ∈ [a, b, c], v.IsOf families :=
      fun v hv => (hof v hv).mono (Set.pair_subset hf hg)
    exact htrans a b c (hin a (by simp)) (hin b (by simp)) (hin c (by simp)) hab hbc hac
  · obtain ⟨f, hsub⟩ : ∃ f, families ⊆ {f} := by
      rcases hone.eq_empty_or_singleton with rfl | ⟨f, rfl⟩
      · exact ⟨.text, Set.empty_subset _⟩
      · exact ⟨f, subset_rfl⟩
    intro a b c ha hb hc hab hbc
    exact Family.order_trans (ha.mono hsub) (hb.mono hsub) (hc.mono hsub) hab hbc

/-- Nine comes before ten, ten before the text "5", and that before nine: the
    order of values is not transitive. -/
theorem order_is_not_transitive :
    ¬ ∀ a b c : Value, a.order b ≠ .gt → b.order c ≠ .gt → a.order c ≠ .gt := by
  intro htrans
  exact htrans (.int 9) (.int 10) (.str "5") (by decide) (by decide) (by decide)

end Value

end IssueSearch
