import IssueSearch.Proofs.Scopes
import IssueSearch.Proofs.Sequences

/-! # Closed trees

    A closed tree mentions no parameter and no remote collection, not even
    under a lambda.  So it is steady: its value, the function it is and the
    keys it sorts by are the same in every scope and on every item
    (`Expr.meaning_steady`).  An ordering step that is steady leaves its items
    where they are, and steps on top of it need not know about it
    (`Meaning.Steady.sortThrough_eq`). -/

namespace IssueSearch

/-! ## Steady meanings -/

/-- A node that is the same in every scope and, as a function, on every item. -/
structure Meaning.Steady (m : Meaning) : Prop where
  value  : ∀ s t, m.value s = m.value t
  apply  : ∀ s t v w, m.apply s v = m.apply t w
  keys   : ∀ keys source, m.ordering = .ok (keys, source) →
    ∀ k ∈ keys, ∀ s t v w, k.key s v = k.key t w
  source : ∀ keys source, m.ordering = .ok (keys, source) → ∀ s t, source s = source t

namespace Meaning

theorem plain_steady {kind : String} {value : ScopedValue} (h : ∀ s t, value s = value t) :
    Steady (plain kind value) where
  value := h
  apply := fun _ _ _ _ => rfl
  keys := by
    intro keys source ho
    cases ho
    simp
  source := by
    intro keys source ho
    cases ho
    exact h

/-- An ordering step on steady operands collects steady keys. -/
theorem orderingOf_steady {step : SortStep} {operands : List Meaning}
    (h : ∀ m ∈ operands, m.Steady) {keys : List ScopedKey} {source : ScopedValue}
    (ho : orderingOf step operands = .ok (keys, source)) :
    (∀ k ∈ keys, ∀ s t v w, k.key s v = k.key t w) ∧ ∀ s t, source s = source t := by
  match operands, h, ho with
  | below :: key :: rest, h, ho =>
    have hbelow := h below (by simp)
    have hlast : ∀ s t v w, (stepKey step key).key s v = (stepKey step key).key t w :=
      (h key (by simp)).apply
    cases hstep : step.refines with
    | false =>
      rw [orderingOf_fresh hstep] at ho
      cases ho
      exact ⟨by simpa using hlast, hbelow.value⟩
    | true =>
      simp only [orderingOf, hstep, if_true] at ho
      obtain ⟨o, hordering, ho⟩ := bind_eq_ok.mp ho
      cases ho
      refine ⟨?_, hbelow.source o.1 o.2 hordering⟩
      intro k hk
      rcases List.mem_append.mp hk with hk | hk
      · exact hbelow.keys o.1 o.2 hordering k hk
      · rw [List.mem_singleton.mp hk]
        exact hlast

/-- A call of steady operands is steady, if its value is. -/
theorem call_steady {lib : Library} {method : Method} {operands : List Meaning}
    (h : ∀ m ∈ operands, m.Steady)
    (hvalue : ∀ s t, (call lib method operands).value s = (call lib method operands).value t) :
    (call lib method operands).Steady := by
  -- as an ordering step the call has the keys it collects, and else none
  refine ⟨hvalue, fun _ _ _ _ => rfl, ?_, ?_⟩
  · intro keys source ho
    simp only [call] at ho
    split at ho
    · exact (orderingOf_steady h ho).1
    · cases ho
      simp
  · intro keys source ho
    simp only [call] at ho
    split at ho
    · exact (orderingOf_steady h ho).2
    · cases ho
      exact hvalue

/-- A function without a value, whose results are all the same. -/
theorem Steady.of_apply {m : Meaning} {failure : EvalError}
    (hvalue : m.value = fun _ => .error failure) (hordering : m.ordering = .ok ([], m.value))
    (happly : ∀ s t v w, m.apply s v = m.apply t w) : m.Steady where
  value := by simp [hvalue]
  apply := happly
  keys := by
    intro keys source ho
    rw [hordering] at ho
    cases ho
    simp
  source := by
    intro keys source ho
    rw [hordering] at ho
    cases ho
    simp [hvalue]

/-- An ordering step that is steady contributes nothing to the steps on top of
    it: they sort its items as if they were given. -/
theorem Steady.sortThrough_eq {m : Meaning} (h : m.Steady) {v : Value}
    (hv : sortThrough m.ordering [] [] = .ok v) (more : List ScopedKey) (scope : Scope) :
    sortThrough m.ordering more scope = sortThrough (.ok ([], fun _ => .ok v)) more scope := by
  cases ho : m.ordering with
  | error e =>
    rw [ho] at hv
    cases hv
  | ok o =>
    obtain ⟨keys, source⟩ := o
    rw [ho] at hv
    obtain ⟨xs, hxs, hv⟩ := bind_eq_ok.mp (show (items _ source [] >>= fun xs => _) = _ from hv)
    obtain ⟨ys, hys, hv⟩ := bind_eq_ok.mp hv
    cases hv
    have hkeys := h.keys keys source ho
    -- in every scope the keys are the ones the value was found with
    have hscope : keys.map (ScopedKey.inScope scope) = keys.map (ScopedKey.inScope []) := by
      refine List.map_congr_left fun k hk => ?_
      simp only [ScopedKey.inScope, Sequence.SortKey.mk.injEq, true_and]
      funext v
      exact hkeys k hk scope [] v v
    have hsteady : Sequence.Steady (keys.map (ScopedKey.inScope [])) := by
      intro k hk v w
      obtain ⟨k', hk', rfl⟩ := List.mem_map.mp hk
      exact hkeys k' hk' [] [] v w
    rw [List.append_nil] at hys
    obtain ⟨rfl, hmore⟩ := Sequence.sortBy_steady hsteady hys
    have hitems : items (Operator.sort .orderBy).name source scope = .ok ys := by
      rw [← hxs]
      unfold items
      rw [h.source keys source ho scope []]
    have hgiven : items (Operator.sort .orderBy).name (fun _ => .ok (.array ys)) scope = .ok ys :=
      rfl
    rw [sortThrough_items hitems, sortThrough_items hgiven, hscope, hmore]
    rfl

end Meaning

namespace Expr

/-- A closed tree has no free parameter. -/
theorem not_hasFree_of_isClosed {e : Expr} (h : e.isClosed = true) (name : String) :
    ¬ e.HasFree name := by
  intro hfree
  obtain ⟨type, hwithin⟩ := hfree.exists_within
  exact ((isClosed_iff e).mp h _ hwithin).1 _ rfl

/-- A closed tree has the same value in every scope. -/
theorem value_of_isClosed (lib : Library) {e : Expr} (h : e.isClosed = true) (s t : Scope) :
    (e.meaning lib).value s = (e.meaning lib).value t :=
  Meaning.value_eq_of_pin (pin_congr lib e s t fun name hname =>
    absurd hname (not_hasFree_of_isClosed h name))

/-- What lies below a closed tree is closed. -/
theorem isClosed_of_mem_children {c e : Expr} (h : e.isClosed = true) (hc : c ∈ e.children) :
    c.isClosed = true :=
  ((isClosed_iff_children e).mp h).2 c hc

/-- **Closed trees are steady.** -/
theorem meaning_steady (lib : Library) (e : Expr) (h : e.isClosed = true) :
    (e.meaning lib).Steady := by
  induction e using induction_on_children with
  | step e ih =>
    have hvalue := value_of_isClosed lib h
    have hbelow : ∀ c ∈ e.children, (c.meaning lib).Steady :=
      fun c hc => ih c hc (isClosed_of_mem_children h hc)
    cases e with
    | call target method args =>
      exact Meaning.call_steady (forall_mem_operandsMeaning hbelow) hvalue
    | lambda params body =>
      refine .of_apply rfl rfl fun s t v w => ?_
      cases params with
      | nil => rfl
      | cons p _ => exact (hbelow body (by simp [children])).value _ _
    | quote operand => exact .of_apply rfl rfl (hbelow operand (by simp [children])).apply
    | _ => exact Meaning.plain_steady hvalue

end Expr

end IssueSearch
