import IssueSearch.Proofs.Sequences
import Mathlib.Data.List.Sort

/-! # Stable sorting

    The order of values is not a linear order on all of them: two whole numbers
    can be level with one floating-point number and not with each other.  On
    values of one kind it is, and sorting by keys of one kind each is the stable
    sort that one expects.

    * `OrderedKind.order_eq`: on a kind, values compare like elements of a
      linear order, the absent value first.
    * `IsStableSort.unique`: a list has one stable sort.
    * `Sequence.LawfulOn.sort_sort`: sorting by two orders at once is sorting by
      the second and then by the first.
    * `Sequence.LawfulOn.filter_sort`: what is left of a sorted list is sorted by
      itself.
    * `Sequence.sortBy_eq_ok_iff`: sorting by keys succeeds if every key has a
      value on every item, and then sorts by the keys in turn. -/

namespace IssueSearch

/-! ## Kinds of values with an order -/

namespace Calendar.DateTime

/-- Nanoseconds since the beginning of 1970. -/
def instant (d : DateTime) : Int :=
  d.day * nanosPerDay + d.nanos

/-- Dates are ordered as instants. -/
theorem order_eq_compare (a b : DateTime) : a.order b = compare a.instant b.instant := by
  have ha := a.nanos_lt
  have hb := b.nanos_lt
  simp only [order, instant, Int.compare_eq_ite_lt, nanosPerDay, nanosPerSecond] at ha hb ⊢
  grind

end Calendar.DateTime

/-- A kind of values that sorting can rely on. -/
inductive OrderedKind where
  | int
  | bool
  | text
  | date
deriving DecidableEq

namespace OrderedKind

/-- Is the value of the kind, or absent? -/
def admits : OrderedKind → Value → Bool
  | _,     .null   => true
  | .int,  .int _  => true
  | .bool, .bool _ => true
  | .text, .str _  => true
  | .date, .date _ => true
  | _,     _       => false

/-- The size of a value that has one. -/
def size? : Value → Option Int
  | .int n  => some n.toInt
  | .bool b => some (if b then 1 else 0)
  | .date d => some d.instant
  | _       => none

/-- The text of a value that is one. -/
def text? : Value → Option String
  | .str s => some s
  | _      => none

/-- The order of a kind: by text or by size, what has neither first. -/
def order : OrderedKind → Value → Value → Ordering
  | .text => compareOn text?
  | _     => compareOn size?

instance (kind : OrderedKind) : Std.TransCmp kind.order := by
  cases kind <;> exact inferInstanceAs (Std.TransCmp (compareOn _))

theorem textOrder_eq_compare (a b : String) : Value.textOrder a b = compare a b := by
  simp [Value.textOrder, Value.orderBy, compare, String.compare, compareOfLessAndEq]

theorem intOrder_eq_compare (a b : Int64) :
    Value.orderBy (a < b) (a = b) = compare a.toInt b.toInt := by
  simp only [Value.orderBy, Int.compare_eq_ite_lt, Int64.lt_iff_toInt_lt, ← Int64.toInt_inj]
  grind

/-- **Order on a kind**: values of one kind, absent ones included, compare as the
    kind does. -/
theorem order_eq {kind : OrderedKind} {a b : Value} (ha : kind.admits a = true)
    (hb : kind.admits b = true) : a.order b = kind.order a b := by
  -- where one of the two is absent both sides compute
  cases kind <;> cases a <;> cases ha <;> cases b <;> cases hb <;> try rfl
  case int.refl.int.refl a b => exact intOrder_eq_compare a b
  case bool.refl.bool.refl a b => cases a <;> cases b <;> rfl
  case str.refl.str.refl a b => exact textOrder_eq_compare a b
  case date.refl.date.refl a b => exact a.order_eq_compare b

end OrderedKind

/-! ## Stable sorts -/

/-- `sorted` is `items` in the order of `cmp`, and elements that are level stand
    as they stood. -/
structure IsStableSort {α : Type} (cmp : α → α → Ordering) (items sorted : List α) : Prop where
  perm    : sorted.Perm items
  ordered : sorted.Pairwise fun a b => cmp a b ≠ .gt
  stable  : ∀ a ∈ items,
    sorted.filter (fun b => cmp a b == .eq) = items.filter fun b => cmp a b == .eq

namespace Sequence

section lawful

variable {α : Type} {cmp : α → α → Ordering} [Std.TransCmp cmp]

/-- An element that comes after none stays in front. -/
theorem insertSorted_eq_cons {cmp : α → α → Ordering} {a : α} {items : List α}
    (h : ∀ b ∈ items, cmp a b ≠ .gt) : insertSorted cmp a items = a :: items := by
  cases items with
  | nil => rfl
  | cons b rest => simp [insertSorted, h b List.mem_cons_self]

omit [Std.TransCmp cmp] in
/-- Sorting is insertion sort by "does not come after". -/
theorem sort_eq_insertionSort (items : List α) :
    sort cmp items = items.insertionSort fun a b => cmp a b ≠ .gt := by
  have hinsert : ∀ (a : α) (sorted : List α),
      insertSorted cmp a sorted = sorted.orderedInsert (fun a b => cmp a b ≠ .gt) a := by
    intro a sorted
    induction sorted with
    | nil => rfl
    | cons b rest ih =>
      rw [insertSorted, List.orderedInsert_cons, ih]
      by_cases h : cmp a b = .gt <;> simp [h]
  induction items with
  | nil => rfl
  | cons a rest ih => rw [List.insertionSort_cons, ← ih, ← hinsert, sort, List.foldr_cons, sort]

theorem ne_gt_trans {a b c : α} (hab : cmp a b ≠ .gt) (hbc : cmp b c ≠ .gt) :
    cmp a c ≠ .gt := by
  exact Ordering.isLE_iff_ne_gt.mp
    (Std.TransCmp.isLE_trans (Ordering.isLE_iff_ne_gt.mpr hab) (Ordering.isLE_iff_ne_gt.mpr hbc))

/-- Nothing comes before what precedes it. -/
theorem sort_ordered (items : List α) :
    (sort cmp items).Pairwise fun a b => cmp a b ≠ .gt := by
  have : Std.Total fun a b => cmp a b ≠ .gt := by
    refine ⟨fun a b => ?_⟩
    have hswap : cmp b a = (cmp a b).swap := Std.OrientedCmp.eq_swap
    rw [hswap]
    cases cmp a b <;> simp
  have : IsTrans α fun a b => cmp a b ≠ .gt := ⟨fun a b c => ne_gt_trans⟩
  rw [sort_eq_insertionSort]
  exact List.pairwise_insertionSort _ items

/-- Inserting into a sorted list and then filtering. -/
theorem insertSorted_filter (p : α → Bool) (a : α) {sorted : List α}
    (h : sorted.Pairwise fun a b => cmp a b ≠ .gt) :
    (insertSorted cmp a sorted).filter p =
      if p a then insertSorted cmp a (sorted.filter p) else sorted.filter p := by
  induction sorted with
  | nil => cases hp : p a <;> simp [insertSorted, hp]
  | cons b rest ih =>
    obtain ⟨hb, hrest⟩ := List.pairwise_cons.mp h
    by_cases hab : cmp a b = .gt
    · have hinsert : ∀ others, insertSorted cmp a (b :: others) = b :: insertSorted cmp a others :=
        fun others => by simp [insertSorted, hab]
      rw [hinsert, List.filter_cons, ih hrest, List.filter_cons]
      cases hp : p a <;> cases p b <;> simp [hinsert]
    · -- the element comes after none of the list, so after none of what is left of it
      have hall : ∀ c ∈ b :: rest, cmp a c ≠ .gt := by
        intro c hc
        rcases List.mem_cons.mp hc with rfl | hc
        · exact hab
        · exact ne_gt_trans hab (hb c hc)
      rw [insertSorted_eq_cons hall,
        insertSorted_eq_cons fun c hc => hall c (List.mem_of_mem_filter hc), List.filter_cons]

/-- What is left of a sorted list is sorted by itself. -/
theorem sort_filter (p : α → Bool) (items : List α) :
    (sort cmp items).filter p = sort cmp (items.filter p) := by
  induction items with
  | nil => rfl
  | cons a rest ih =>
    have hcons : ∀ others, sort cmp (a :: others) = insertSorted cmp a (sort cmp others) :=
      fun others => rfl
    rw [hcons, insertSorted_filter p a (sort_ordered rest), ih, List.filter_cons]
    split
    · rw [hcons]
    · rfl

theorem sort_isStableSort (items : List α) : IsStableSort cmp items (sort cmp items) where
  perm := sort_perm cmp items
  ordered := sort_ordered items
  stable := by
    intro a _
    rw [sort_filter]
    refine sort_eq_self cmp _ fun b hb c hc => ?_
    -- what is level with one element is level with each other
    have hab : cmp a b = .eq := by simpa using (List.mem_filter.mp hb).2
    have hac : cmp a c = .eq := by simpa using (List.mem_filter.mp hc).2
    rw [← Std.TransCmp.congr_left hab, hac]
    decide

end lawful

end Sequence

namespace IsStableSort

variable {α : Type} {cmp : α → α → Ordering} {items sorted sorted' : List α}

/-- Two ordered lists of the same elements that agree on every group of level
    elements are the same. -/
theorem eq_of_filters [Std.TransCmp cmp] (hperm : sorted.Perm sorted')
    (h : sorted.Pairwise fun a b => cmp a b ≠ .gt) (h' : sorted'.Pairwise fun a b => cmp a b ≠ .gt)
    (hfilters : ∀ a ∈ sorted, sorted.filter (fun b => cmp a b == .eq) =
      sorted'.filter fun b => cmp a b == .eq) : sorted = sorted' := by
  induction sorted generalizing sorted' with
  | nil => exact hperm.nil_eq
  | cons x rest ih =>
    cases sorted' with
    | nil => cases hperm.eq_nil
    | cons y rest' =>
      obtain ⟨hx, hrest⟩ := List.pairwise_cons.mp h
      obtain ⟨hy, hrest'⟩ := List.pairwise_cons.mp h'
      have hself : ∀ z, cmp z z = .eq := fun z => Std.ReflCmp.compare_self
      -- neither first element comes after the other
      have hxy : cmp x y ≠ .gt := by
        have hmem : y ∈ x :: rest := hperm.mem_iff.mpr List.mem_cons_self
        rcases List.mem_cons.mp hmem with rfl | hmem
        · simp [hself]
        · exact hx y hmem
      have hyx : cmp y x ≠ .gt := by
        have hmem : x ∈ y :: rest' := hperm.mem_iff.mp List.mem_cons_self
        rcases List.mem_cons.mp hmem with rfl | hmem
        · simp [hself]
        · exact hy x hmem
      have hlevel : cmp x y = .eq := by
        have hswap : cmp y x = (cmp x y).swap := Std.OrientedCmp.eq_swap
        rw [hswap] at hyx
        cases hcmp : cmp x y <;> simp_all
      -- so both head the group of `x`
      obtain rfl : x = y := by
        have hgroup := hfilters x List.mem_cons_self
        simp only [List.filter_cons, hself, hlevel, beq_self_eq_true, if_true] at hgroup
        exact (List.cons_eq_cons.mp hgroup).1
      congr 1
      refine ih hperm.cons_inv hrest hrest' fun a ha => ?_
      have hgroup := hfilters a (List.mem_cons_of_mem x ha)
      simp only [List.filter_cons] at hgroup
      split at hgroup
      · exact (List.cons_eq_cons.mp hgroup).2
      · exact hgroup

/-- **A list has one stable sort.** -/
theorem unique [Std.TransCmp cmp] (h : IsStableSort cmp items sorted)
    (h' : IsStableSort cmp items sorted') : sorted = sorted' := by
  refine eq_of_filters (h.perm.trans h'.perm.symm) h.ordered h'.ordered fun a ha => ?_
  have hmem : a ∈ items := h.perm.mem_iff.mp ha
  rw [h.stable a hmem, h'.stable a hmem]

/-- Orders that agree on the elements have the same stable sorts. -/
theorem congr {cmp' : α → α → Ordering} (h : IsStableSort cmp items sorted)
    (hcmp : ∀ a ∈ items, ∀ b ∈ items, cmp' a b = cmp a b) : IsStableSort cmp' items sorted where
  perm := h.perm
  ordered := by
    refine h.ordered.imp_of_mem fun {a b} ha hb hab => ?_
    rwa [hcmp a (h.perm.mem_iff.mp ha) b (h.perm.mem_iff.mp hb)]
  stable := by
    intro a ha
    have hsame : ∀ b ∈ items, (cmp' a b == .eq) = (cmp a b == .eq) :=
      fun b hb => by rw [hcmp a ha b hb]
    rw [List.filter_congr hsame, List.filter_congr fun b hb => hsame b (h.perm.mem_iff.mp hb),
      h.stable a ha]

/-- Sorting by one order and then by another sorts by both, the later one
    deciding first. -/
theorem lex {c d : α → α → Ordering} [Std.TransCmp c] {middle : List α}
    (hd : IsStableSort d items middle) (hc : IsStableSort c middle sorted) :
    IsStableSort (compareLex c d) items sorted where
  perm := hc.perm.trans hd.perm
  ordered := by
    rw [List.pairwise_iff_forall_sublist]
    intro a b hab
    have hc_ab : c a b ≠ .gt := List.pairwise_iff_forall_sublist.mp hc.ordered hab
    show (c a b).then (d a b) ≠ .gt
    cases hcase : c a b with
    | lt => simp
    | gt => exact absurd hcase hc_ab
    | eq =>
      -- both are in the group of `a`, which stands as the earlier sort left it
      have ha : a ∈ middle := hc.perm.mem_iff.mp (hab.subset List.mem_cons_self)
      have hself : c a a = .eq := Std.ReflCmp.compare_self
      have hgroup := hab.filter fun x => c a x == .eq
      rw [hc.stable a ha] at hgroup
      have hmiddle : [a, b].Sublist middle := by
        simpa [hself, hcase] using hgroup.trans List.filter_sublist
      exact List.pairwise_iff_forall_sublist.mp hd.ordered hmiddle
  stable := by
    intro a ha
    have hmiddle : a ∈ middle := hd.perm.mem_iff.mpr ha
    have hboth : ∀ l : List α, l.filter (fun b => compareLex c d a b == .eq) =
        (l.filter fun b => c a b == .eq).filter fun b => d a b == .eq := by
      intro l
      rw [List.filter_filter]
      refine List.filter_congr fun b _ => ?_
      show ((c a b).then (d a b) == .eq) = _
      cases c a b <;> simp
    rw [hboth, hboth, hc.stable a hmiddle, List.filter_filter, List.filter_filter]
    simp only [Bool.and_comm (d a _ == .eq)]
    rw [← List.filter_filter, ← List.filter_filter, hd.stable a ha]

end IsStableSort

/-! ## Orders that are lawful on a list -/

namespace Sequence

/-- On the given elements the order is that of a total preorder. -/
def LawfulOn {α : Type} (items : List α) (cmp : α → α → Ordering) : Prop :=
  ∃ lawful : α → α → Ordering,
    Std.TransCmp lawful ∧ ∀ a ∈ items, ∀ b ∈ items, cmp a b = lawful a b

/-- Sorting only looks at how the elements compare with each other. -/
theorem sort_congr {α : Type} {cmp cmp' : α → α → Ordering} {items : List α}
    (h : ∀ a ∈ items, ∀ b ∈ items, cmp a b = cmp' a b) : sort cmp items = sort cmp' items := by
  have hinsert : ∀ (a : α) (others : List α), (∀ b ∈ others, cmp a b = cmp' a b) →
      insertSorted cmp a others = insertSorted cmp' a others := by
    intro a others hothers
    induction others with
    | nil => rfl
    | cons b rest ih =>
      rw [insertSorted, insertSorted, hothers b List.mem_cons_self,
        ih fun c hc => hothers c (List.mem_cons_of_mem b hc)]
  induction items with
  | nil => rfl
  | cons a rest ih =>
    have hrest : sort cmp rest = sort cmp' rest :=
      ih fun x hx y hy => h x (List.mem_cons_of_mem a hx) y (List.mem_cons_of_mem a hy)
    show insertSorted cmp a (sort cmp rest) = insertSorted cmp' a (sort cmp' rest)
    rw [hrest]
    refine hinsert a _ fun b hb => h a List.mem_cons_self b ?_
    exact List.mem_cons_of_mem a ((sort_perm cmp' rest).mem_iff.mp hb)

namespace LawfulOn

variable {α : Type} {items : List α} {c d : α → α → Ordering}

/-- Two lawful orders, the second deciding what the first leaves level. -/
theorem lex (hc : LawfulOn items c) (hd : LawfulOn items d) :
    LawfulOn items (compareLex c d) := by
  obtain ⟨c', _, hc⟩ := hc
  obtain ⟨d', _, hd⟩ := hd
  refine ⟨compareLex c' d', inferInstance, fun a ha b hb => ?_⟩
  show (c a b).then (d a b) = (c' a b).then (d' a b)
  rw [hc a ha b hb, hd a ha b hb]

theorem isStableSort (h : LawfulOn items c) : IsStableSort c items (sort c items) := by
  obtain ⟨lawful, _, heq⟩ := h
  rw [sort_congr heq]
  exact (sort_isStableSort items).congr heq

/-- What is left of a sorted list is sorted by itself. -/
theorem filter_sort (h : LawfulOn items c) (p : α → Bool) :
    (sort c items).filter p = sort c (items.filter p) := by
  obtain ⟨lawful, _, heq⟩ := h
  have hleft : ∀ a ∈ items.filter p, ∀ b ∈ items.filter p, c a b = lawful a b :=
    fun a ha b hb => heq a (List.mem_of_mem_filter ha) b (List.mem_of_mem_filter hb)
  rw [sort_congr heq, sort_congr hleft, sort_filter]

/-- **Sorting by two orders** at once is sorting by the second and then by the
    first. -/
theorem sort_sort (hc : LawfulOn items c) (hd : LawfulOn items d) :
    sort c (sort d items) = sort (compareLex c d) items := by
  obtain ⟨c', _, hc⟩ := hc
  obtain ⟨d', _, hd⟩ := hd
  have hsorted : ∀ a ∈ sort d items, ∀ b ∈ sort d items, c a b = c' a b :=
    fun a ha b hb => hc a ((sort_perm d items).mem_iff.mp ha) b ((sort_perm d items).mem_iff.mp hb)
  have hlex : ∀ a ∈ items, ∀ b ∈ items, compareLex c d a b = compareLex c' d' a b := by
    intro a ha b hb
    simp only [compareLex, hc a ha b hb, hd a ha b hb]
  rw [sort_congr hsorted, sort_congr hd, sort_congr hlex]
  exact ((sort_isStableSort items).lex (sort_isStableSort _)).unique (sort_isStableSort items)

end LawfulOn

/-! ## Sorting by keys -/

namespace SortKey

/-- The value of a key on an item, nothing where the key has none. -/
def valueOn (k : SortKey) (item : Value) : Value :=
  match k.key item with
  | .ok v    => v
  | .error _ => .null

/-- The order that a key gives to the items. -/
def order (k : SortKey) (a b : Value) : Ordering :=
  directed k.descending ((k.valueOn a).order (k.valueOn b))

/-- The values of the key on the items are all of one kind or absent. -/
def IsUniform (k : SortKey) (items : List Value) : Prop :=
  ∃ kind : OrderedKind, ∀ item ∈ items, ∀ v, k.key item = .ok v → kind.admits v = true

theorem valueOn_eq {k : SortKey} {item v : Value} (h : k.key item = .ok v) :
    k.valueOn item = v := by
  rw [valueOn, h]

theorem IsUniform.mono {k : SortKey} {items others : List Value} (h : k.IsUniform items)
    (hsub : ∀ x ∈ others, x ∈ items) : k.IsUniform others := by
  obtain ⟨kind, hkind⟩ := h
  exact ⟨kind, fun item hitem => hkind item (hsub item hitem)⟩

/-- An order of images is as lawful as the order. -/
theorem transCmp_on {α β : Type} (cmp : α → α → Ordering) [Std.TransCmp cmp] (f : β → α) :
    Std.TransCmp fun a b => cmp (f a) (f b) where
  eq_swap := Std.OrientedCmp.eq_swap
  isLE_trans := Std.TransCmp.isLE_trans

/-- A key with values of one kind orders the items lawfully. -/
theorem IsUniform.lawfulOn {k : SortKey} {items : List Value} (h : k.IsUniform items) :
    LawfulOn items k.order := by
  obtain ⟨kind, hkind⟩ := h
  have hadmits : ∀ item ∈ items, kind.admits (k.valueOn item) = true := by
    intro item hitem
    cases hvalue : k.key item with
    | ok v =>
      rw [valueOn_eq hvalue]
      exact hkind item hitem v hvalue
    | error e =>
      rw [valueOn, hvalue]
      cases kind <;> rfl
  have horder : ∀ a ∈ items, ∀ b ∈ items, k.order a b =
      directed k.descending (kind.order (k.valueOn a) (k.valueOn b)) :=
    fun a ha b hb => by rw [order, OrderedKind.order_eq (hadmits a ha) (hadmits b hb)]
  cases hdescending : k.descending with
  | false =>
    rw [hdescending] at horder
    exact ⟨_, transCmp_on kind.order k.valueOn, horder⟩
  | true =>
    refine ⟨_, transCmp_on (fun a b => kind.order b a) k.valueOn, fun a ha b hb => ?_⟩
    rw [horder a ha b hb, hdescending]
    exact Std.OrientedCmp.eq_swap.symm

/-- An item without a value stands before one with a value, or after it if the
    key is descending. -/
def PlacesAbsent (k : SortKey) (a b : Value) : Prop :=
  if k.descending then k.valueOn a = .null → k.valueOn b = .null
  else k.valueOn b = .null → k.valueOn a = .null

theorem placesAbsent_of_order {k : SortKey} {a b : Value} (h : k.order a b ≠ .gt) :
    k.PlacesAbsent a b := by
  unfold order at h
  unfold PlacesAbsent
  cases hdescending : k.descending with
  | false =>
    intro hb
    rw [hb, hdescending] at h
    cases ha : k.valueOn a with
    | null => rfl
    | _ =>
      rw [ha] at h
      exact absurd rfl h
  | true =>
    intro ha
    rw [ha, hdescending] at h
    cases hb : k.valueOn b with
    | null => rfl
    | _ =>
      rw [hb] at h
      exact absurd rfl h

end SortKey

/-- The order that several keys give to the items, the first key deciding first. -/
def keyOrder : List SortKey → Value → Value → Ordering
  | []        => fun _ _ => .eq
  | k :: rest => compareLex k.order (keyOrder rest)

theorem keyOrder_singleton (k : SortKey) : keyOrder [k] = k.order := by
  funext a b
  show (k.order a b).then .eq = k.order a b
  cases k.order a b <;> rfl

/-- Later keys decide what earlier ones leave level. -/
theorem keyOrder_append (keys more : List SortKey) (a b : Value) :
    keyOrder (keys ++ more) a b = (keyOrder keys a b).then (keyOrder more a b) := by
  induction keys with
  | nil => rfl
  | cons k rest ih =>
    show (k.order a b).then (keyOrder (rest ++ more) a b) =
      ((k.order a b).then (keyOrder rest a b)).then (keyOrder more a b)
    rw [ih, Ordering.then_assoc]

theorem keysOrder_eq (keys : List SortKey) (a b : Value) :
    keysOrder (keys.map SortKey.descending) (keys.map fun k => k.valueOn a)
      (keys.map fun k => k.valueOn b) = keyOrder keys a b := by
  induction keys with
  | nil => rfl
  | cons k rest ih =>
    simp only [List.map_cons, keysOrder, ih]
    show _ = (directed k.descending ((k.valueOn a).order (k.valueOn b))).then (keyOrder rest a b)
    cases directed k.descending ((k.valueOn a).order (k.valueOn b)) <;> rfl

/-- Every key has a value on every item. -/
def HasValues (keys : List SortKey) (items : List Value) : Prop :=
  ∀ k ∈ keys, ∀ item ∈ items, ∃ v, k.key item = .ok v

theorem keyValues_eq_ok_iff {keys : List SortKey} {item : Value} {values : List Value} :
    keyValues keys item = .ok values ↔
      (∀ k ∈ keys, ∃ v, k.key item = .ok v) ∧ values = keys.map fun k => k.valueOn item := by
  induction keys generalizing values with
  | nil => simp [keyValues, eq_comm]
  | cons k rest ih =>
    rw [keyValues, List.forall_mem_cons, List.map_cons, bind_eq_ok]
    constructor
    · rintro ⟨v, hv, h⟩
      obtain ⟨vs, hvs, h⟩ := bind_eq_ok.mp h
      cases h
      obtain ⟨hrest, rfl⟩ := ih.mp hvs
      exact ⟨⟨⟨v, hv⟩, hrest⟩, by rw [SortKey.valueOn_eq hv]⟩
    · rintro ⟨⟨⟨v, hv⟩, hrest⟩, rfl⟩
      refine ⟨v, hv, bind_eq_ok.mpr ⟨_, ih.mpr ⟨hrest, rfl⟩, ?_⟩⟩
      rw [SortKey.valueOn_eq hv]

theorem withKeys_eq_ok_iff {keys : List SortKey} {items : List Value}
    {keyed : List (List Value × Value)} :
    withKeys keys items = .ok keyed ↔
      HasValues keys items ∧
        keyed = items.map fun item => (keys.map fun k => k.valueOn item, item) := by
  induction items generalizing keyed with
  | nil => simp [withKeys, HasValues, eq_comm]
  | cons item rest ih =>
    have hcons : HasValues keys (item :: rest) ↔
        (∀ k ∈ keys, ∃ v, k.key item = .ok v) ∧ HasValues keys rest := by
      simp only [HasValues, List.forall_mem_cons]
      exact forall₂_and
    rw [withKeys, hcons, List.map_cons, bind_eq_ok]
    constructor
    · rintro ⟨values, hvalues, h⟩
      obtain ⟨others, hothers, h⟩ := bind_eq_ok.mp h
      cases h
      obtain ⟨hitem, rfl⟩ := keyValues_eq_ok_iff.mp hvalues
      obtain ⟨hrest, rfl⟩ := ih.mp hothers
      exact ⟨⟨hitem, hrest⟩, rfl⟩
    · rintro ⟨⟨hitem, hrest⟩, rfl⟩
      exact ⟨_, keyValues_eq_ok_iff.mpr ⟨hitem, rfl⟩,
        bind_eq_ok.mpr ⟨_, ih.mpr ⟨hrest, rfl⟩, rfl⟩⟩

/-- **Sorting by keys** succeeds if every key has a value on every item, and then
    sorts by the keys in turn. -/
theorem sortBy_eq_ok_iff {keys : List SortKey} {items sorted : List Value} :
    sortBy keys items = .ok sorted ↔
      HasValues keys items ∧ sorted = sort (keyOrder keys) items := by
  -- items that carry their keys are sorted as the items are
  have hsort : (sort (fun a b => keysOrder (keys.map SortKey.descending) a.1 b.1)
      (items.map fun item => (keys.map fun k => k.valueOn item, item))).map Prod.snd =
        sort (keyOrder keys) items := by
    rw [sort_map, List.map_map]
    simp only [keysOrder_eq]
    exact List.map_id _
  rw [sortBy, bind_eq_ok]
  constructor
  · rintro ⟨keyed, hkeyed, h⟩
    cases h
    obtain ⟨hvalues, rfl⟩ := withKeys_eq_ok_iff.mp hkeyed
    exact ⟨hvalues, hsort⟩
  · rintro ⟨hvalues, rfl⟩
    exact ⟨_, withKeys_eq_ok_iff.mpr ⟨hvalues, rfl⟩, congrArg Except.ok hsort⟩

/-- Keys with values of one kind each order the items lawfully. -/
theorem keyOrder_lawfulOn {keys : List SortKey} {items : List Value}
    (h : ∀ k ∈ keys, k.IsUniform items) : LawfulOn items (keyOrder keys) := by
  induction keys with
  | nil =>
    have hlevel : Std.TransCmp (compareOn fun _ : Value => ()) := inferInstance
    exact ⟨_, hlevel, fun _ _ _ _ => rfl⟩
  | cons k rest ih =>
    exact (h k List.mem_cons_self).lawfulOn.lex
      (ih fun k' hk' => h k' (List.mem_cons_of_mem k hk'))

/-- What is left of items that were sorted is sorted by itself. -/
theorem sortBy_filter {keys : List SortKey} {items sorted : List Value}
    (h : ∀ k ∈ keys, k.IsUniform items) (hsort : sortBy keys items = .ok sorted)
    (p : Value → Bool) : sortBy keys (items.filter p) = .ok (sorted.filter p) := by
  obtain ⟨hvalues, rfl⟩ := sortBy_eq_ok_iff.mp hsort
  rw [(keyOrder_lawfulOn h).filter_sort]
  exact sortBy_eq_ok_iff.mpr ⟨fun k hk x hx => hvalues k hk x (List.mem_of_mem_filter hx), rfl⟩

/-- Sorting by the first key what is sorted by the others sorts by all of them. -/
theorem sort_keyOrder_cons {k : SortKey} {keys : List SortKey} {items : List Value}
    (h : ∀ k' ∈ k :: keys, k'.IsUniform items) :
    sort (keyOrder [k]) (sort (keyOrder keys) items) = sort (keyOrder (k :: keys)) items := by
  obtain ⟨hk, hkeys⟩ := List.forall_mem_cons.mp h
  rw [keyOrder_singleton]
  exact hk.lawfulOn.sort_sort (keyOrder_lawfulOn hkeys)

end Sequence

end IssueSearch
