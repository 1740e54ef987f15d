import IssueSearch.Proofs.Execution

/-! # One representative for each value

    Making a list distinct goes through it once from the front and drops every
    item that equals one kept before.  Equality lets a whole number equal a
    floating-point number: it is symmetric, but NaN differs from itself, and two
    whole numbers can equal one floating-point number without being equal.  So
    which items are kept depends on their order, and it is the scan that says what
    the kept ones stand for.

    * `Value.equals_comm`: two values are equal from either side.
    * `Sequence.Represents`: which places of a list are kept, and what becomes of
      the others.
    * `Sequence.Represents.keep`, `Sequence.Represents.drop`: one item of the scan.
    * `Sequence.exists_represents`: the whole scan.
    * `Stage.distinct_represents`: the value of the step that makes a list distinct. -/

namespace IssueSearch

open Float.Model (UnpackedFloat)

/-! ## Equality from either side -/

/-- Numbers compare alike from either side, if they compare at all. -/
theorem Number.compare_swap (a b : UnpackedFloat) :
    b.compare a = (a.compare b).map Ordering.swap := by
  have hsize : ∀ (d e : Int) (m n : Nat),
      (compare e d).then (compare n m) = ((compare d e).then (compare m n)).swap := by
    intro d e m n
    have hexponent : compare e d = (compare d e).swap := Std.OrientedCmp.eq_swap
    have hmantissa : compare n m = (compare m n).swap := Std.OrientedCmp.eq_swap
    rw [Ordering.swap_then, hexponent, hmantissa]
  rcases a with (_ | _) | _ | _ | ⟨_ | _, m, d, hm⟩ <;>
    rcases b with (_ | _) | _ | _ | ⟨_ | _, n, e, hn⟩
  -- two finite numbers of one sign are told apart by their size
  case finite.negative.finite.negative =>
    show some ((compare e d).then (compare n m)).swap =
      some ((compare d e).then (compare m n)).swap.swap
    rw [hsize d e m n]
  case finite.positive.finite.positive =>
    show some ((compare e d).then (compare n m)) = some ((compare d e).then (compare m n)).swap
    rw [hsize d e m n]
  all_goals rfl

theorem Number.beq_comm (x y : Float) : (x == y) = (y == x) := by
  show (x.toModel.unpack.compare y.toModel.unpack == some .eq) =
    (y.toModel.unpack.compare x.toModel.unpack == some .eq)
  rw [Number.compare_swap x.toModel.unpack]
  rcases x.toModel.unpack.compare y.toModel.unpack with _ | _ | _ | _
  all_goals rfl

namespace Value

mutual

/-- Equality within a kind is the same from either side. -/
theorem same_comm (a b : Value) : same a b = same b a := by
  cases a <;> cases b
  case bool.bool | int.int | str.str | date.date | source.source => exact Bool.beq_comm
  case float.float x y => exact Number.beq_comm x y
  case array.array as bs => exact sameItems_comm as bs
  case record.record n d fields m e more =>
    show (n == m && d == e && sameFields fields more) = (m == n && e == d && sameFields more fields)
    rw [sameFields_comm fields more, Bool.beq_comm (a := n), Bool.beq_comm (a := d)]
  all_goals rfl

theorem sameItems_comm (as bs : List Value) : sameItems as bs = sameItems bs as := by
  cases as <;> cases bs
  case cons.cons a as b bs =>
    show (same a b && sameItems as bs) = (same b a && sameItems bs as)
    rw [same_comm a b, sameItems_comm as bs]
  all_goals rfl

theorem sameFields_comm (as bs : List (String × Value)) :
    sameFields as bs = sameFields bs as := by
  cases as <;> cases bs
  case cons.cons a as b bs =>
    obtain ⟨n, a⟩ := a
    obtain ⟨m, b⟩ := b
    show (n == m && same a b && sameFields as bs) = (m == n && same b a && sameFields bs as)
    rw [same_comm a b, sameFields_comm as bs, Bool.beq_comm (a := n)]
  all_goals rfl

end

/-- **Equality is symmetric.** -/
theorem equals_comm (a b : Value) : a.equals b = b.equals a := by
  have hsame := same_comm a b
  cases a <;> cases b
  case int.float | float.int => rfl
  all_goals exact hsame

end Value

/-! ## The scan -/

namespace Sequence

theorem distinctFrom_append (kept xs ys : List Value) :
    distinctFrom kept (xs ++ ys) = distinctFrom (distinctFrom kept xs) ys := by
  induction xs generalizing kept with
  | nil => rfl
  | cons x rest ih =>
    rw [List.cons_append, distinctFrom, distinctFrom]
    split
    · exact ih kept
    · exact ih (kept ++ [x])

/-- **One item**: it is dropped if one kept before equals it, and kept otherwise. -/
theorem distinct_concat (xs : List Value) (x : Value) :
    distinct (xs ++ [x]) =
      if (distinct xs).any (fun y => y.equals x) then distinct xs else distinct xs ++ [x] := by
  unfold distinct
  rw [distinctFrom_append, distinctFrom]
  split <;> rfl

/-- `Represents xs ys places`: of the list `xs` the items `ys` are kept, which stand
    at the given places.  No two of them are equal, and every item at another place
    equals one that is kept from a place before it. -/
structure Represents (xs ys : List Value) (places : List Nat) : Prop where
  ascending : places.Pairwise (· < ·)
  items     : places.map (fun p => xs[p]?) = ys.map some
  apart     : ys.Pairwise fun earlier later => later.equals earlier = false
  dropped   : ∀ p x, xs[p]? = some x → p ∉ places →
    ∃ q ∈ places, q < p ∧ ∃ y ∈ ys, xs[q]? = some y ∧ x.equals y = true

namespace Represents

variable {xs ys : List Value} {places : List Nat}

/-- The places are places of the list. -/
theorem lt_length (h : Represents xs ys places) {p : Nat} (hp : p ∈ places) : p < xs.length := by
  have hmem : xs[p]? ∈ ys.map some := h.items ▸ List.mem_map_of_mem hp
  obtain ⟨y, -, hy⟩ := List.mem_map.mp hmem
  obtain ⟨hlt, -⟩ := List.getElem?_eq_some_iff.mp hy.symm
  exact hlt

/-- Every item that is kept has a place. -/
theorem exists_place (h : Represents xs ys places) {y : Value} (hy : y ∈ ys) :
    ∃ q ∈ places, xs[q]? = some y := by
  have hmem : some y ∈ places.map fun p => xs[p]? := h.items ▸ List.mem_map_of_mem hy
  exact List.mem_map.mp hmem

/-- The places of a list are places of a longer one. -/
theorem items_append (h : Represents xs ys places) (more : List Value) :
    places.map (fun p => (xs ++ more)[p]?) = ys.map some := by
  rw [← h.items]
  apply List.map_congr_left
  intro p hp
  exact List.getElem?_append_left (h.lt_length hp)

/-- What was dropped from a list is dropped from a longer one. -/
theorem dropped_append (h : Represents xs ys places) {p : Nat} {x : Value} (hp : p ∉ places)
    (hlt : p < xs.length) (more : List Value) (hx : (xs ++ more)[p]? = some x) :
    ∃ q ∈ places, q < p ∧ ∃ y ∈ ys, (xs ++ more)[q]? = some y ∧ x.equals y = true := by
  rw [List.getElem?_append_left hlt] at hx
  obtain ⟨q, hq, hbefore, y, hy, hplace, hequal⟩ := h.dropped p x hx hp
  refine ⟨q, hq, hbefore, y, hy, ?_, hequal⟩
  rw [List.getElem?_append_left (h.lt_length hq), hplace]

/-- An item that equals none of those kept is kept. -/
theorem keep (h : Represents xs ys places) {x : Value}
    (hnew : ∀ y ∈ ys, y.equals x = false) :
    Represents (xs ++ [x]) (ys ++ [x]) (places ++ [xs.length]) where
  ascending := by
    refine List.pairwise_append.mpr ⟨h.ascending, List.pairwise_singleton _ _, ?_⟩
    intro p hp q hq
    rw [List.mem_singleton.mp hq]
    exact h.lt_length hp
  items := by simp [h.items_append [x]]
  apart := by
    refine List.pairwise_append.mpr ⟨h.apart, List.pairwise_singleton _ _, ?_⟩
    intro y hy z hz
    rw [List.mem_singleton.mp hz, Value.equals_comm]
    exact hnew y hy
  dropped := by
    intro p z hz hp
    rw [List.mem_append, List.mem_singleton, not_or] at hp
    obtain ⟨hlt, -⟩ := List.getElem?_eq_some_iff.mp hz
    have hbefore : p < xs.length := by
      rw [List.length_append, List.length_singleton] at hlt
      omega
    obtain ⟨q, hq, hqp, y, hy, hplace, hequal⟩ := h.dropped_append hp.1 hbefore [x] hz
    exact ⟨q, List.mem_append_left _ hq, hqp, y, List.mem_append_left _ hy, hplace, hequal⟩

/-- An item that equals one of those kept is dropped. -/
theorem drop (h : Represents xs ys places) {x y : Value} (hy : y ∈ ys)
    (hold : y.equals x = true) : Represents (xs ++ [x]) ys places where
  ascending := h.ascending
  items := h.items_append [x]
  apart := h.apart
  dropped := by
    intro p z hz hp
    by_cases hlast : p = xs.length
    · -- the item itself equals the one that was kept
      obtain rfl : x = z := by simpa [hlast] using hz
      obtain ⟨q, hq, hplace⟩ := h.exists_place hy
      refine ⟨q, hq, hlast ▸ h.lt_length hq, y, hy, ?_, ?_⟩
      · rw [List.getElem?_append_left (h.lt_length hq), hplace]
      · rw [Value.equals_comm, hold]
    · obtain ⟨hlt, -⟩ := List.getElem?_eq_some_iff.mp hz
      rw [List.length_append, List.length_singleton] at hlt
      exact h.dropped_append hp (by omega) [x] hz

end Represents

/-- **The whole scan**: what it keeps represents the list. -/
theorem exists_represents (xs : List Value) : ∃ places, Represents xs (distinct xs) places := by
  -- the list grows at its end, where the scan is
  induction xs using List.reverseRecOn with
  | nil => exact ⟨[], .nil, rfl, .nil, by simp⟩
  | append_singleton xs x ih =>
    obtain ⟨places, h⟩ := ih
    rw [distinct_concat]
    by_cases hold : (distinct xs).any (fun y => y.equals x) = true
    · rw [if_pos hold]
      obtain ⟨y, hy, hequal⟩ := List.any_eq_true.mp hold
      exact ⟨places, h.drop hy hequal⟩
    · rw [if_neg hold]
      refine ⟨places ++ [xs.length], h.keep ?_⟩
      simpa using hold

theorem distinct_sublist (xs : List Value) : (distinct xs).Sublist xs := by
  induction xs using List.reverseRecOn with
  | nil => exact .slnil
  | append_singleton xs x ih =>
    rw [distinct_concat]
    split
    · exact ih.trans (List.sublist_append_left xs [x])
    · exact ih.append (List.Sublist.refl [x])

/-- A list without equal items is left as it is. -/
theorem distinct_eq_self {xs : List Value}
    (h : xs.Pairwise fun earlier later => later.equals earlier = false) : distinct xs = xs := by
  induction xs using List.reverseRecOn with
  | nil => rfl
  | append_singleton xs x ih =>
    obtain ⟨hbefore, -, hlast⟩ := List.pairwise_append.mp h
    rw [distinct_concat, ih hbefore, if_neg]
    rw [Bool.not_eq_true, List.any_eq_false]
    intro y hy
    rw [Value.equals_comm, hlast y hy x (List.mem_singleton_self x)]
    exact Bool.false_ne_true

end Sequence

/-! ## The step -/

namespace Stage

/-- The step that makes a list distinct.  It has no use for further operands. -/
def distinct (onTarget : Bool) (args : List Expr) : Stage :=
  { operator := .distinct, onTarget := onTarget, args := args }

theorem evalIn_distinct (lib : Library) (scope : Scope) (onTarget : Bool) (args : List Expr)
    (xs : List Value) (type : DataType) :
    ((distinct onTarget args).on (.constant (.array xs) type)).evalIn lib scope =
      .ok (.array (Sequence.distinct xs)) := by
  unfold Expr.evalIn
  rw [meaning_on]
  rfl

/-- **One representative for each value**: making a constant list distinct leaves a
    part of it, in order, in which no item equals an earlier one; every item that is
    dropped equals one that is kept from before it; and what is left is left alone
    when it is made distinct again. -/
theorem distinct_represents (lib : Library) (scope : Scope) (onTarget : Bool) (args : List Expr)
    (xs : List Value) (type : DataType) :
    ∃ ys, ((distinct onTarget args).on (.constant (.array xs) type)).evalIn lib scope =
        .ok (.array ys) ∧
      ys.Sublist xs ∧ (∃ places, Sequence.Represents xs ys places) ∧
      ((distinct onTarget args).on (.constant (.array ys) type)).evalIn lib scope =
        .ok (.array ys) := by
  obtain ⟨places, h⟩ := Sequence.exists_represents xs
  refine ⟨Sequence.distinct xs, evalIn_distinct .., Sequence.distinct_sublist xs, ⟨places, h⟩, ?_⟩
  rw [evalIn_distinct, Sequence.distinct_eq_self h.apart]

-- what is kept depends on the order: two whole numbers equal one floating-point number
example :
    Sequence.distinct [.int 9007199254740993, .float 9007199254740992, .int 9007199254740992] =
      [.int 9007199254740993, .int 9007199254740992] ∧
    Sequence.distinct [.float 9007199254740992, .int 9007199254740993, .int 9007199254740992] =
      [.float 9007199254740992] :=
  ⟨rfl, rfl⟩

end Stage

end IssueSearch
