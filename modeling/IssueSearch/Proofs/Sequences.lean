import IssueSearch.Eval.Sequence
import Mathlib.Data.List.Forall2
import Mathlib.Data.List.Perm.Basic

/-! # Lists of values

    Facts about the operations that collection operators are made of.

    * `Sequence.mem_mapItems`, `Sequence.keep_sublist`,
      `Sequence.distinct_subset`, `Sequence.sortBy_perm`: where the items of a
      result come from.
    * `Sequence.sort_eq_self`: elements of which none comes after another stay
      where they are.
    * `Sequence.sortBy_steady`: a key with the same value on every item decides
      nothing, so sorting by such keys first changes nothing. -/

namespace IssueSearch

/-- A computation that succeeds does so step by step. -/
theorem bind_eq_ok {ε α β : Type} {x : Except ε α} {f : α → Except ε β} {b : β} :
    (x >>= f) = .ok b ↔ ∃ a, x = .ok a ∧ f a = .ok b := by
  cases x with
  | error e => simp [bind, Except.bind]
  | ok a => simp [bind, Except.bind]

/-- What is found under a key is listed under it. -/
theorem mem_of_lookup {α β : Type} [BEq α] [LawfulBEq α] {key : α} {b : β} {table : List (α × β)}
    (h : table.lookup key = some b) : (key, b) ∈ table := by
  obtain ⟨before, after, rfl, _⟩ := List.lookup_eq_some_iff.mp h
  simp

/-- In two lists paired up, every element of the first has its partner. -/
theorem exists_of_mem_of_forall₂ {α β : Type} {R : α → β → Prop} {as : List α} {bs : List β}
    (h : List.Forall₂ R as bs) {a : α} (ha : a ∈ as) : ∃ b ∈ bs, R a b := by
  induction h with
  | nil => cases ha
  | @cons x y _ _ hxy _ ih =>
    rcases List.mem_cons.mp ha with rfl | ha
    · exact ⟨y, List.mem_cons_self, hxy⟩
    · obtain ⟨b, hb, hab⟩ := ih ha
      exact ⟨b, List.mem_cons_of_mem y hb, hab⟩

/-- What holds of every pair that is listed holds of the lists. -/
theorem forall₂_imp_of_mem {α β : Type} {R S : α → β → Prop} {as : List α} {bs : List β}
    (h : List.Forall₂ R as bs) (himp : ∀ a ∈ as, ∀ b, R a b → S a b) : List.Forall₂ S as bs := by
  induction h with
  | nil => exact .nil
  | @cons a b as bs hab _ ih =>
    have hrest := ih fun a' ha' => himp a' (List.mem_cons_of_mem a ha')
    exact .cons (himp a List.mem_cons_self b hab) hrest

/-- A single element is paired with a single one. -/
theorem forall₂_singleton {α β : Type} {R : α → β → Prop} {a : α} {bs : List β}
    (h : List.Forall₂ R [a] bs) : ∃ b, R a b ∧ bs = [b] := by
  obtain ⟨b, others, hb, hothers, rfl⟩ := List.forall₂_cons_left_iff.mp h
  cases hothers
  exact ⟨b, hb, rfl⟩

/-- Elements that are paired up and look the same in the same places. -/
theorem forall₂_and_of_map_eq {α β γ : Type} {R : α → β → Prop} {f : α → γ} {g : β → γ}
    {as : List α} {bs : List β} (h : List.Forall₂ R as bs) (hmap : bs.map g = as.map f) :
    List.Forall₂ (fun a b => R a b ∧ g b = f a) as bs := by
  induction h with
  | nil => exact .nil
  | cons hab _ ih =>
    obtain ⟨hfirst, hrest⟩ := List.cons_eq_cons.mp hmap
    exact .cons ⟨hab, hfirst⟩ (ih hrest)

namespace Sequence

/-! ## Where items come from -/

/-- Every result is the result on some item. -/
theorem mem_mapItems {f : ItemFunction} {items results : List Value}
    (h : mapItems f items = .ok results) {v : Value} (hv : v ∈ results) :
    ∃ item ∈ items, f item = .ok v := by
  induction items generalizing results with
  | nil =>
    cases h
    cases hv
  | cons item rest ih =>
    obtain ⟨result, hresult, h⟩ := bind_eq_ok.mp h
    obtain ⟨others, hothers, h⟩ := bind_eq_ok.mp h
    cases h
    rcases List.mem_cons.mp hv with rfl | hv
    · exact ⟨item, List.mem_cons_self, hresult⟩
    · obtain ⟨x, hx, hfx⟩ := ih hothers hv
      exact ⟨x, List.mem_cons_of_mem item hx, hfx⟩

/-- Filtering leaves some of the items, in their order. -/
theorem keep_sublist {operation : String} {f : ItemFunction} {items kept : List Value}
    (h : keep operation f items = .ok kept) : kept.Sublist items := by
  induction items generalizing kept with
  | nil =>
    cases h
    exact List.Sublist.refl _
  | cons item rest ih =>
    obtain ⟨b, _, h⟩ := bind_eq_ok.mp h
    obtain ⟨others, hothers, h⟩ := bind_eq_ok.mp h
    cases h
    cases b with
    | true => exact (ih hothers).cons_cons item
    | false => exact (ih hothers).cons item

theorem keepIf_sublist {operation : String} {f? : Option ItemFunction} {items kept : List Value}
    (h : keepIf operation f? items = .ok kept) : kept.Sublist items := by
  cases f? with
  | none =>
    cases h
    exact List.Sublist.refl _
  | some f => exact keep_sublist h

theorem distinctFrom_subset (kept items : List Value) :
    ∀ v ∈ distinctFrom kept items, v ∈ kept ∨ v ∈ items := by
  induction items generalizing kept with
  | nil => exact fun v hv => Or.inl hv
  | cons item rest ih =>
    intro v hv
    unfold distinctFrom at hv
    split at hv
    · exact (ih kept v hv).imp_right (List.mem_cons_of_mem item)
    · rcases ih (kept ++ [item]) v hv with h | h
      · rcases List.mem_append.mp h with h | h
        · exact Or.inl h
        · exact Or.inr (List.mem_cons.mpr (Or.inl (List.mem_singleton.mp h)))
      · exact Or.inr (List.mem_cons_of_mem item h)

/-- Dropping repetitions adds nothing. -/
theorem distinct_subset {items : List Value} {v : Value} (h : v ∈ distinct items) : v ∈ items := by
  rcases distinctFrom_subset [] items v h with h | h
  · cases h
  · exact h

end Sequence

/-- Every value is level with itself. -/
theorem Value.order_self (v : Value) : v.order v = .eq := by
  have htext : ∀ s : String, textOrder s s = .eq := by
    intro s
    have hless : decide (s < s) = false := decide_eq_false (String.lt_irrefl s)
    rw [textOrder, hless]
    simp [orderBy]
  cases v with
  | bool b => cases b <;> rfl
  | int n => simp [order, orderBy]
  | float x => simp [order, Number.order]
  | date d => simp [order, Calendar.DateTime.order]
  | null => rfl
  | str s => exact htext s
  | array items => exact htext _
  | record typeName display fields => exact htext _
  | source entity => exact htext _

namespace Sequence

/-! ## Lexicographic order -/

/-- Keys that two lists share decide nothing between them. -/
theorem keysOrder_append (shared : List Value) :
    ∀ (directions more : List Bool) (as bs : List Value), directions.length = shared.length →
      keysOrder (directions ++ more) (shared ++ as) (shared ++ bs) = keysOrder more as bs := by
  induction shared with
  | nil =>
    intro directions more as bs hlen
    rw [List.length_eq_zero_iff.mp hlen]
    rfl
  | cons v rest ih =>
    intro directions more as bs hlen
    cases directions with
    | nil => cases hlen
    | cons descending others =>
      have hdirected : directed descending (v.order v) = .eq := by
        rw [Value.order_self]
        cases descending <;> rfl
      simp only [List.cons_append, keysOrder, hdirected]
      exact ih others more as bs (by simpa using hlen)

/-! ## The sort -/

section sort

variable {α β : Type}

theorem insertSorted_perm (cmp : α → α → Ordering) (a : α) (items : List α) :
    (insertSorted cmp a items).Perm (a :: items) := by
  induction items with
  | nil => exact List.Perm.refl _
  | cons b rest ih =>
    unfold insertSorted
    split
    · exact (ih.cons b).trans (List.Perm.swap a b rest)
    · exact List.Perm.refl _

/-- Sorting rearranges the elements. -/
theorem sort_perm (cmp : α → α → Ordering) (items : List α) : (sort cmp items).Perm items := by
  induction items with
  | nil => exact List.Perm.refl _
  | cons a rest ih => exact (insertSorted_perm cmp a _).trans (ih.cons a)

theorem insertSorted_map (f : β → α) (cmp : α → α → Ordering) (b : β) (items : List β) :
    insertSorted cmp (f b) (items.map f) =
      (insertSorted (fun x y => cmp (f x) (f y)) b items).map f := by
  induction items with
  | nil => rfl
  | cons c rest ih =>
    simp only [List.map_cons, insertSorted]
    split
    · rw [List.map_cons, ih]
    · rfl

/-- Sorting images is sorting by the order of the images. -/
theorem sort_map (f : β → α) (cmp : α → α → Ordering) (items : List β) :
    sort cmp (items.map f) = (sort (fun x y => cmp (f x) (f y)) items).map f := by
  induction items with
  | nil => rfl
  | cons b rest ih =>
    simp only [sort, List.map_cons, List.foldr_cons] at ih ⊢
    rw [ih, insertSorted_map]

/-- Elements of which none comes after another stay where they are. -/
theorem sort_eq_self (cmp : α → α → Ordering) (items : List α)
    (h : ∀ a ∈ items, ∀ b ∈ items, cmp a b ≠ .gt) : sort cmp items = items := by
  induction items with
  | nil => rfl
  | cons a rest ih =>
    have hrest : sort cmp rest = rest :=
      ih fun x hx y hy => h x (List.mem_cons_of_mem a hx) y (List.mem_cons_of_mem a hy)
    simp only [sort, List.foldr_cons] at hrest ⊢
    rw [hrest]
    cases rest with
    | nil => rfl
    | cons b others =>
      have hab := h a (by simp) b (by simp)
      simp [insertSorted, hab]

end sort

/-! ## Sorting by keys -/

theorem withKeys_items {keys : List SortKey} {items : List Value}
    {keyed : List (List Value × Value)} (h : withKeys keys items = .ok keyed) :
    keyed.map Prod.snd = items := by
  induction items generalizing keyed with
  | nil =>
    cases h
    rfl
  | cons item rest ih =>
    obtain ⟨values, _, h⟩ := bind_eq_ok.mp h
    obtain ⟨others, hothers, h⟩ := bind_eq_ok.mp h
    cases h
    rw [List.map_cons, ih hothers]

/-- Sorting by keys rearranges the items. -/
theorem sortBy_perm {keys : List SortKey} {items sorted : List Value}
    (h : sortBy keys items = .ok sorted) : sorted.Perm items := by
  obtain ⟨keyed, hkeyed, h⟩ := bind_eq_ok.mp h
  cases h
  have hperm := (sort_perm (fun a b => keysOrder (keys.map SortKey.descending) a.1 b.1) keyed).map
    Prod.snd
  rwa [withKeys_items hkeyed] at hperm

theorem keyValues_length {keys : List SortKey} {item : Value} {values : List Value}
    (h : keyValues keys item = .ok values) : values.length = keys.length := by
  induction keys generalizing values with
  | nil =>
    cases h
    rfl
  | cons k rest ih =>
    obtain ⟨v, _, h⟩ := bind_eq_ok.mp h
    obtain ⟨vs, hvs, h⟩ := bind_eq_ok.mp h
    cases h
    simp [ih hvs]

/-- The values of two groups of keys are found one group after the other. -/
theorem keyValues_append (keys more : List SortKey) (item : Value) :
    keyValues (keys ++ more) item =
      (do .ok ((← keyValues keys item) ++ (← keyValues more item))) := by
  induction keys with
  | nil => cases h : keyValues more item <;> simp [keyValues, h, bind, Except.bind]
  | cons k rest ih =>
    simp only [List.cons_append, keyValues, ih]
    cases k.key item with
    | error e => rfl
    | ok v =>
      cases keyValues rest item with
      | error e => rfl
      | ok vs => cases keyValues more item <;> rfl

/-! ## Steady keys -/

/-- Each key has the same value on every item. -/
def Steady (keys : List SortKey) : Prop :=
  ∀ k ∈ keys, ∀ v w, k.key v = k.key w

theorem keyValues_steady {keys : List SortKey} (h : Steady keys) (v w : Value) :
    keyValues keys v = keyValues keys w := by
  induction keys with
  | nil => rfl
  | cons k rest ih =>
    have hrest : Steady rest := fun k' hk' => h k' (List.mem_cons_of_mem k hk')
    simp only [keyValues, h k (by simp) v w, ih hrest]

/-- Keys whose values are the same on every item are put in front of the values
    of the other keys. -/
theorem withKeys_steady {keys : List SortKey} (h : Steady keys) {shared : List Value} {item : Value}
    (hitem : keyValues keys item = .ok shared) (more : List SortKey) (items : List Value) :
    withKeys (keys ++ more) items =
      (withKeys more items).map (List.map fun p => (shared ++ p.1, p.2)) := by
  induction items with
  | nil => rfl
  | cons x rest ih =>
    have hx : keyValues keys x = .ok shared := by rw [keyValues_steady h x item, hitem]
    simp only [withKeys, keyValues_append, hx, ih]
    cases keyValues more x with
    | error e => rfl
    | ok vs => cases withKeys more rest <;> rfl

/-- Sorting by keys that have the same value on every item, and then by others,
    is sorting by the others. -/
theorem sortBy_append_steady {keys : List SortKey} (h : Steady keys) {shared : List Value}
    {item : Value} (hitem : keyValues keys item = .ok shared) (more : List SortKey)
    (items : List Value) : sortBy (keys ++ more) items = sortBy more items := by
  have hlen : (keys.map SortKey.descending).length = shared.length := by
    rw [List.length_map, keyValues_length hitem]
  simp only [sortBy, withKeys_steady h hitem, List.map_append]
  cases withKeys more items with
  | error e => rfl
  | ok keyed =>
    show Except.ok _ = Except.ok _
    rw [sort_map]
    simp only [keysOrder_append shared _ _ _ _ hlen, List.map_map]
    rfl

/-- Without keys nothing is moved. -/
theorem sortBy_nil (items : List Value) : sortBy [] items = .ok items := by
  have hkeyed : withKeys [] items = .ok (items.map fun x => ([], x)) := by
    induction items with
    | nil => rfl
    | cons x rest ih => simp [withKeys, keyValues, ih, bind, Except.bind]
  have hself := sort_eq_self (fun a b : List Value × Value => keysOrder [] a.1 b.1)
    (items.map fun x => ([], x)) fun _ _ _ _ => by simp [keysOrder]
  simp only [sortBy, hkeyed, List.map_nil]
  show Except.ok _ = Except.ok items
  rw [hself, List.map_map]
  exact congrArg Except.ok (List.map_id items)

/-- **Steady keys decide nothing**: if sorting by them succeeds it changes
    nothing, and neither does it matter whether other keys decide after them or
    alone. -/
theorem sortBy_steady {keys : List SortKey} (h : Steady keys) {items sorted : List Value}
    (hsort : sortBy keys items = .ok sorted) :
    sorted = items ∧ ∀ more, sortBy (keys ++ more) items = sortBy more items := by
  cases items with
  | nil =>
    cases hsort
    exact ⟨rfl, fun more => rfl⟩
  | cons item rest =>
    -- the keys were computed on the first item at least
    cases hitem : keyValues keys item with
    | error e => simp [sortBy, withKeys, hitem, bind, Except.bind] at hsort
    | ok shared =>
      have hmore := fun more => sortBy_append_steady h hitem more (item :: rest)
      refine ⟨?_, hmore⟩
      have hnone := hmore []
      rw [List.append_nil, hsort, sortBy_nil] at hnone
      exact Except.ok.inj hnone

end Sequence

end IssueSearch
