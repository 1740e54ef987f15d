import IssueSearch.Proofs.Chains

/-! # What an observer sees

    Whoever follows the writing of a search is told of each piece of text as it
    is written, also of pieces that are put aside and taken up later.  What was
    told is compared with the search that came of it.

    * `emitted`: the pieces of text on record, put together.
    * `Writer.Composed.records`: whatever happens, the record grows by pieces of
      text that are not empty, and the search is not finished on the way.
    * `Writer.Composed.transcribes`: where no clause is collected, what is on
      record is what is added to the text at hand, and it is the same text that
      is written on a sheet of its own.
    * `Piece`: what a step of a query was written as, and `Piece.AreWritten`,
      that each piece goes on where the one before it left off.
    * `Chain.visit_transcript`: the record of a chain of steps is made up of
      their pieces, in order, while its search is assembled from those that are
      still in force. -/

namespace IssueSearch

/-! ## Records -/

/-- The piece of text that an event tells of. -/
def Event.fragment? : Event → Option String
  | emit fragment => some fragment
  | _             => none

/-- The pieces of text on record, put together. -/
def emitted (events : List Event) : String :=
  String.join (events.filterMap Event.fragment?)

theorem emitted_append (xs ys : List Event) : emitted (xs ++ ys) = emitted xs ++ emitted ys := by
  rw [emitted, List.filterMap_append, String.join_append]
  rfl

section Spells

variable {events : List Event} {text : String} (h : Spells events text)

include h

theorem Spells.emitted_eq : emitted events = text := by
  induction h with
  | nil => rfl
  | enter kind depth _ ih => exact ih
  | emit _ _ ih =>
    rw [← ih]
    exact String.join_cons

theorem Spells.emit_ne {fragment : String} (hmem : .emit fragment ∈ events) : fragment ≠ "" := by
  induction h with
  | nil => cases hmem
  | enter kind depth _ ih =>
    rcases List.mem_cons.mp hmem with heq | hmem
    · cases heq
    · exact ih hmem
  | emit hne _ ih =>
    rcases List.mem_cons.mp hmem with heq | hmem
    · cases heq
      exact hne
    · exact ih hmem

theorem Spells.not_finished (search : Search) : .finish search ∉ events := by
  induction h with
  | nil => exact List.not_mem_nil
  | enter _ _ _ ih | emit _ _ ih =>
    intro hmem
    rcases List.mem_cons.mp hmem with heq | hmem
    · cases heq
    · exact ih hmem

end Spells

/-! ## What happens on the way -/

/-- `f.Continues d`: since `d`, nodes were begun and pieces of text were
    written. -/
def Draft.Continues (f d : Draft) : Prop :=
  ∃ events text, Spells events text ∧ f.events = d.events ++ events

theorem Draft.Continues.refl (d : Draft) : d.Continues d :=
  ⟨[], "", .nil, (List.append_nil d.events).symm⟩

theorem Draft.Continues.trans {d f g : Draft} (hg : g.Continues f) (hf : f.Continues d) :
    g.Continues d := by
  obtain ⟨xs, s, hxs, hf⟩ := hf
  obtain ⟨ys, t, hys, hg⟩ := hg
  exact ⟨xs ++ ys, s ++ t, hxs.append hys, by rw [hg, hf, List.append_assoc]⟩

namespace Writer

variable {α : Type} {powers : Powers} {w : Writer α}

/-- Whether it succeeds or fails, a writer leaves a record that continues the
    one it found. -/
theorem Composed.records (h : w.Composed powers) (d : Draft) :
    (∀ a f, w d = .ok a f → f.Continues d) ∧
      ∀ failure f, w d = .error failure f → f.Continues d := by
  induction h generalizing d with
  | pure | setSeparator | nextSeparator | addFilter | addOrder =>
    refine ⟨fun a f hw => ?_, fun failure f hw => ?_⟩
    · cases hw
      exact .refl d
    · cases hw
  | throw _ =>
    refine ⟨fun a f hw => ?_, fun failure f hw => ?_⟩
    · cases hw
    · cases hw
      exact .refl d
  | push fragment =>
    obtain ⟨events, hspells, hpush⟩ := emits_push fragment d.separator d rfl
    rw [hpush]
    refine ⟨fun a f hw => ?_, fun failure f hw => ?_⟩
    · cases hw
      exact ⟨events, fragment, hspells, rfl⟩
    · cases hw
  | bind _ _ ihw ihk =>
    constructor
    · intro b f hbind
      obtain ⟨a, g, hw, hk⟩ := ok_of_bind hbind
      exact ((ihk a g).1 b f hk).trans ((ihw d).1 a g hw)
    · intro failure f hbind
      rcases error_of_bind hbind with hw | ⟨a, g, hw, hk⟩
      · exact (ihw d).2 failure f hw
      · exact ((ihk a g).2 failure f hk).trans ((ihw d).1 a g hw)
  | @node kind w _ ih =>
    -- the node itself is put on record first
    let inside : Draft :=
      { d with depth := d.depth + 1, events := d.events ++ [.enter kind d.depth] }
    have henter : inside.Continues d := ⟨[.enter kind d.depth], "", .enter kind _ .nil, rfl⟩
    constructor
    · intro u f hnode
      obtain ⟨g, hg, rfl⟩ := ok_of_node hnode
      have hinside := (ih inside).1 () g hg
      exact hinside.trans henter
    · intro failure f hnode
      exact ((ih inside).2 failure f (error_of_node hnode)).trans henter
  | capture _ _ ih =>
    constructor
    · intro text f hcapture
      obtain ⟨g, hg, _, rfl⟩ := ok_of_capture hcapture
      exact (ih { d with out := "" }).1 () g hg
    · intro failure f hcapture
      exact (ih { d with out := "" }).2 failure f (error_of_capture hcapture)
  | setCount slot n _ _ =>
    refine ⟨fun u f hw => ?_, fun failure f hw => ?_⟩
    · obtain ⟨_, rfl⟩ := ok_of_setCount hw
      cases slot <;> exact .refl d
    · obtain ⟨_, rfl⟩ := error_of_setCount hw
      exact .refl f

end Writer

/-! ## Text that is not put aside -/

/-- `e.Adds text g`: from `e` to `g` the text was added to the text at hand and
    put on record, and no clause was collected. -/
structure Draft.Adds (e : Draft) (text : String) (g : Draft) : Prop where
  out    : g.out = e.out ++ text
  events : ∃ events, Spells events text ∧ g.events = e.events ++ events
  filter : g.filter = e.filter
  order  : g.order = e.order

theorem Draft.Adds.trans {d f g : Draft} {s t : String} (hf : d.Adds s f) (hg : f.Adds t g) :
    d.Adds (s ++ t) g := by
  obtain ⟨xs, hxs, hf'⟩ := hf.events
  obtain ⟨ys, hys, hg'⟩ := hg.events
  refine ⟨?_, ⟨xs ++ ys, hxs.append hys, ?_⟩, hg.filter.trans hf.filter, hg.order.trans hf.order⟩
  · rw [hg.out, hf.out, String.append_assoc]
  · rw [hg', hf', List.append_assoc]

/-- `e.Admits d`: the next literal is placed alike, and no count is said on `e`
    that is not said on `d`.  So what can be written on `d` can be written on
    `e`. -/
structure Draft.Admits (e d : Draft) : Prop where
  separator  : e.separator = d.separator
  startAt    : e.startAt = none ∨ e.startAt = d.startAt
  maxResults : e.maxResults = none ∨ e.maxResults = d.maxResults

theorem Draft.Admits.refl (d : Draft) : d.Admits d :=
  ⟨rfl, Or.inr rfl, Or.inr rfl⟩

section Counts

variable {d e : Draft} (n : UInt32) (slot : PageSlot)

theorem Draft.adds_withCount (e : Draft) : e.Adds "" (e.withCount n slot) := by
  have hevents : ∃ events, Spells events "" ∧ e.events = e.events ++ events :=
    ⟨[], .nil, (List.append_nil e.events).symm⟩
  cases slot <;> exact ⟨String.append_empty.symm, hevents, rfl, rfl⟩

theorem Draft.Admits.withCount (h : e.Admits d) :
    (e.withCount n slot).Admits (d.withCount n slot) := by
  cases slot with
  | startAt => exact { h with startAt := Or.inr rfl }
  | maxResults => exact { h with maxResults := Or.inr rfl }

theorem Draft.Admits.count?_eq_none (h : e.Admits d) (hnone : d.count? slot = none) :
    e.count? slot = none := by
  have hsame : e.count? slot = none ∨ e.count? slot = d.count? slot := by
    cases slot with
    | startAt => exact h.startAt
    | maxResults => exact h.maxResults
  rcases hsame with hnone' | heq
  · exact hnone'
  · exact heq.trans hnone

end Counts

namespace Writer

variable {α β : Type} {powers : Powers} {w : Writer α}

/-- What the writer adds to a draft it adds to every draft that admits it, and
    it returns the same. -/
def Transcribes (w : Writer α) : Prop :=
  ∀ d f a, w d = .ok a f → ∃ text, ∀ e : Draft, e.Admits d →
    ∃ g, w e = .ok a g ∧ e.Adds text g ∧ g.Admits f

theorem IsTextual.transcribes (h : w.IsTextual) : w.Transcribes := by
  intro d f a hw
  obtain ⟨outcome, hemits⟩ := h d.separator
  cases outcome with
  | error failure =>
    obtain ⟨d', hd'⟩ := hemits d rfl
    rw [hd'] at hw
    cases hw
  | ok m =>
    refine ⟨m.text, fun e he => ?_⟩
    obtain ⟨_, _, hd⟩ := hemits d rfl
    obtain ⟨events, hspells, heq⟩ := hemits e he.separator
    rw [hd] at hw
    cases hw
    exact ⟨_, heq, ⟨rfl, ⟨events, hspells, rfl⟩, rfl, rfl⟩, rfl, he.startAt, he.maxResults⟩

theorem Transcribes.bind {k : α → Writer β} (hw : w.Transcribes) (hk : ∀ a, (k a).Transcribes) :
    (w >>= k).Transcribes := by
  intro d f b hbind
  obtain ⟨a, d', hd', hf⟩ := ok_of_bind hbind
  obtain ⟨s, hs⟩ := hw d d' a hd'
  obtain ⟨t, ht⟩ := hk a d' f b hf
  refine ⟨s ++ t, fun e he => ?_⟩
  obtain ⟨e', he', hadds, hadmits⟩ := hs e he
  obtain ⟨g, hg, hadds', hadmits'⟩ := ht e' hadmits
  refine ⟨g, ?_, hadds.trans hadds', hadmits'⟩
  rw [bind_apply, he']
  exact hg

theorem Transcribes.node {w : Writer Unit} (hw : w.Transcribes) (kind : String) :
    (Writer.node kind w).Transcribes := by
  intro d f u hnode
  obtain ⟨d', hd', rfl⟩ := ok_of_node hnode
  obtain ⟨text, htext⟩ := hw _ d' () hd'
  refine ⟨text, fun e he => ?_⟩
  let inside : Draft :=
    { e with depth := e.depth + 1, events := e.events ++ [.enter kind e.depth] }
  obtain ⟨g, hg, hadds, hadmits⟩ := htext inside ⟨he.separator, he.startAt, he.maxResults⟩
  obtain ⟨events, hspells, hevents⟩ := hadds.events
  refine ⟨{ g with depth := g.depth - 1 }, ?_, ⟨hadds.out, ?_, hadds.filter, hadds.order⟩,
    hadmits.separator, hadmits.startAt, hadmits.maxResults⟩
  · simp only [Writer.node, bind_apply, modify_apply]
    rw [hg]
  · refine ⟨.enter kind e.depth :: events, .enter kind e.depth hspells, ?_⟩
    rw [hevents, List.append_assoc]
    rfl

/-- A count that is said on a draft can be said on every draft that admits
    it. -/
theorem transcribes_setCount (name : String) (slot : PageSlot) (n : UInt32) :
    (setCount name slot n).Transcribes := by
  intro d f u hw
  obtain ⟨hnone, rfl⟩ := ok_of_setCount hw
  refine ⟨"", fun e he => ?_⟩
  have hnone' := he.count?_eq_none slot hnone
  exact ⟨_, setCount_of_none hnone', e.adds_withCount n slot, he.withCount n slot⟩

/-- Where no clause is collected, text is added, and added alike to every draft
    that admits it. -/
theorem Composed.transcribes (h : w.Composed powers) (hcollects : ¬ powers.collects) :
    w.Transcribes := by
  induction h with
  | pure a => exact IsTextual.transcribes fun s => ⟨_, emits_pure a s⟩
  | throw _ => exact IsTextual.transcribes fun s => ⟨_, emits_throw _ s⟩
  | bind _ _ ihw ihk => exact ihw.bind ihk
  | push fragment => exact IsTextual.transcribes fun s => ⟨_, emits_push fragment s⟩
  | setSeparator next => exact IsTextual.transcribes fun s => ⟨_, emits_setSeparator next s⟩
  | nextSeparator => exact IsTextual.transcribes fun s => ⟨_, emits_nextSeparator s⟩
  | node kind _ ih => exact ih.node kind
  | setCount slot n _ _ => exact transcribes_setCount _ slot n
  | capture hc _ _ | addFilter _ hc | addOrder _ _ _ hc => exact absurd hc hcollects

/-- Text on a clean sheet is put on record, and leaves the text at hand and the
    clauses as they were.  On its own it is written alike. -/
theorem Transcribes.capture {w : Writer Unit} (hw : w.Transcribes) {d f : Draft} {text : String}
    (h : Writer.capture w d = .ok text f) :
    (f.out = d.out ∧ f.filter = d.filter ∧ f.order = d.order) ∧
      (∃ events, Spells events text ∧ f.events = d.events ++ events) ∧
      ∃ g, w { Draft.blank with separator := d.separator } = .ok () g ∧
        Draft.Adds { Draft.blank with separator := d.separator } text g ∧
        g.separator = f.separator := by
  obtain ⟨g, hg, rfl, rfl⟩ := ok_of_capture h
  obtain ⟨text, htext⟩ := hw _ g () hg
  obtain ⟨g', hg', hadds, _⟩ := htext _ (.refl _)
  rw [hg] at hg'
  cases hg'
  have hout : g.out = text := by simpa using hadds.out
  subst hout
  -- a blank draft admits whatever the sheet did
  have hblank : Draft.Admits { Draft.blank with separator := d.separator } { d with out := "" } :=
    ⟨rfl, Or.inl rfl, Or.inl rfl⟩
  obtain ⟨own, hown, haddsOwn, hadmits⟩ := htext _ hblank
  exact ⟨⟨rfl, hadds.filter, hadds.order⟩, hadds.events, own, hown, haddsOwn, hadmits.separator⟩

end Writer

/-! ## Trees -/

namespace Expr

variable {ctx : Context} {e : Expr}

/-- No part of the tree adds to the filter or to the order. -/
def HasNoCollectingStep (e : Expr) : Prop :=
  e.AllParts fun t => t.isCollectingStep = false

/-- Whatever the tree, writing it continues the record. -/
theorem visit_records (ctx : Context) (e : Expr) (d : Draft) :
    (∀ u f, (e.operand ctx).visit d = .ok u f → f.Continues d) ∧
      ∀ failure f, (e.operand ctx).visit d = .error failure f → f.Continues d := by
  have hparts : e.AllParts (Powers.all.Suffice ctx) :=
    fun _ _ => ⟨fun _ _ => trivial, fun _ => trivial, fun _ => trivial⟩
  exact (e.operand_composed hparts).visit.records d

theorem visit_transcribes (ctx : Context) (h : e.HasNoCollectingStep) :
    (e.operand ctx).visit.Transcribes := by
  have hparts : e.AllParts (Powers.Suffice { Powers.all with collects := False } ctx) := by
    intro t ht
    refine ⟨fun _ _ => trivial, fun _ => trivial, fun hcollects => ?_⟩
    exact absurd hcollects (Bool.eq_false_iff.mp (h t ht))
  exact (e.operand_composed hparts).visit.transcribes id

/-- A text that is added to a blank draft is all of its search. -/
theorem search_text_of_adds {d : Draft} {text : String} (h : Draft.blank.Adds text d) :
    d.search.text = text := by
  simp [Draft.search, h.out, h.filter, h.order, Draft.blank]

/-- Where no clause is collected, the pieces on record make up the search. -/
theorem emitted_of_visit {d : Draft} (h : e.HasNoCollectingStep)
    (hvisit : (e.operand ctx).visit .blank = .ok () d) : emitted d.events = d.search.text := by
  obtain ⟨text, htext⟩ := visit_transcribes ctx h _ d () hvisit
  obtain ⟨d', hd', hadds, _⟩ := htext .blank (.refl _)
  rw [hvisit] at hd'
  cases hd'
  obtain ⟨events, hspells, hevents⟩ := hadds.events
  rw [search_text_of_adds hadds, hevents]
  exact hspells.emitted_eq

/-- `e.IsWrittenAs ctx s text next`: where `s` stands before the next literal,
    the tree on its own is written as the text, and then `next` does. -/
def IsWrittenAs (ctx : Context) (e : Expr) (s : Separator) (text : String)
    (next : Separator) : Prop :=
  ∃ d, (e.operand ctx).visit { Draft.blank with separator := s } = .ok () d ∧ d.out = text ∧
    d.separator = next

theorem isWrittenAs_of_adds {s next : Separator} {text : String} {d : Draft}
    (hvisit : (e.operand ctx).visit { Draft.blank with separator := s } = .ok () d)
    (hadds : Draft.Adds { Draft.blank with separator := s } text d) (hnext : d.separator = next) :
    e.IsWrittenAs ctx s text next := by
  have hout : d.out = text := by simpa [Draft.blank] using hadds.out
  exact ⟨d, hvisit, hout, hnext⟩

end Expr

/-! ## Steps -/

/-- A step of a query, and what it was written as. -/
structure Piece where
  step : Step
  text : String

namespace Piece

/-- The clause of a filtering step. -/
def clause? (piece : Piece) : Option String :=
  match piece.step with
  | .filter _ => some piece.text
  | _         => none

/-- The key of an ordering step. -/
def key? (piece : Piece) : Option OrderKey :=
  match piece.step with
  | .sort step _ => some { text := piece.text, descending := step.isDescending }
  | _            => none

/-- The clauses of all filtering steps, in order. -/
def clauses (pieces : List Piece) : List String :=
  pieces.filterMap clause?

/-- The keys of all ordering steps, in order. -/
def keys (pieces : List Piece) : List OrderKey :=
  pieces.filterMap key?

/-- The sort keys after the step: an ordering refines the keys so far or
    replaces them. -/
def sortKeys (keys : List OrderKey) (piece : Piece) : List OrderKey :=
  match piece.step with
  | .sort step _ =>
    let key := { text := piece.text, descending := step.isDescending }
    if step.refines then keys ++ [key] else [key]
  | _ => keys

/-- The sort keys that are in force after all steps. -/
def inForce (pieces : List Piece) : List OrderKey :=
  pieces.foldl sortKeys []

/-- `piece.IsWritten ctx s next`: where `s` stands before the next literal, the
    piece is the text of the predicate or of the key on its own, and then `next`
    does.  A predicate starts a list anew, a key goes on with the one at hand,
    and any other step is written as nothing. -/
def IsWritten (ctx : Context) (piece : Piece) (s next : Separator) : Prop :=
  match piece.step with
  | .filter p   => CompilesTo ctx p piece.text ∧ p.IsWrittenAs ctx .first piece.text next
  | .sort _ key => key.IsWrittenAs ctx s piece.text next
  | _           => piece.text = "" ∧ next = s

/-- `AreWritten ctx pieces next`: from the start of a list the pieces are written
    one after another, each where the one before it left off, and then `next`
    stands before the next literal. -/
inductive AreWritten (ctx : Context) : List Piece → Separator → Prop
  | nil : AreWritten ctx [] .first
  | concat {pieces : List Piece} {piece : Piece} {s next : Separator} :
      AreWritten ctx pieces s → piece.IsWritten ctx s next →
      AreWritten ctx (pieces ++ [piece]) next

end Piece

/-- The draft holds the clauses of the pieces and the sort keys in force, and no
    text is at hand. -/
def Draft.Holds (d : Draft) (pieces : List Piece) : Prop :=
  ∃ startAt maxResults, d.Reflects
    { clauses    := Piece.clauses pieces
      keys       := Piece.inForce pieces
      startAt    := startAt
      maxResults := maxResults }

/-- The tree whose text a step collects. -/
def Step.collected? : Step → Option Expr
  | filter p   => some p
  | sort _ key => some key
  | _          => none

namespace Piece

@[simp] theorem inForce_concat (pieces : List Piece) (piece : Piece) :
    inForce (pieces ++ [piece]) = piece.sortKeys (inForce pieces) := by
  simp [inForce, List.foldl_append]

@[simp] theorem clauses_concat (pieces : List Piece) (piece : Piece) :
    clauses (pieces ++ [piece]) = clauses pieces ++ piece.clause?.toList :=
  filterMap_concat _ _ _

@[simp] theorem keys_concat (pieces : List Piece) (piece : Piece) :
    keys (pieces ++ [piece]) = keys pieces ++ piece.key?.toList :=
  filterMap_concat _ _ _

/-- The keys in force are the last ones. -/
theorem inForce_suffix (pieces : List Piece) : inForce pieces <:+ keys pieces := by
  induction pieces using List.reverseRecOn with
  | nil => exact List.suffix_rfl
  | append_singleton pieces piece ih =>
    rw [inForce_concat, keys_concat]
    obtain ⟨s, text⟩ := piece
    cases s with
    | sort step key =>
      show (if step.refines then inForce pieces ++ [_] else [_]) <:+ keys pieces ++ [_]
      split
      · obtain ⟨before, hbefore⟩ := ih
        exact ⟨before, by rw [← List.append_assoc, hbefore]⟩
      · exact List.suffix_append _ _
    | filter | skip | take | select | distinct | count | any | first | firstOrDefault | toList =>
      simpa [sortKeys, key?] using ih

end Piece

/-- The ordering that a step makes. -/
def Step.sort? : Step → Option SortStep
  | sort step _ => some step
  | _           => none

/-- The orderings that the steps make, one after another. -/
def orderings (steps : List Step) : List SortStep :=
  steps.filterMap Step.sort?

/-- There are as many keys as orderings. -/
theorem Piece.keys_eq_nil_iff (pieces : List Piece) :
    keys pieces = [] ↔ orderings (pieces.map Piece.step) = [] := by
  rw [keys, orderings, List.filterMap_map, List.filterMap_eq_nil_iff, List.filterMap_eq_nil_iff]
  refine forall₂_congr fun piece _ => ?_
  obtain ⟨s, text⟩ := piece
  cases s <;> simp [key?, Step.sort?]

/-- All keys are in force exactly if no ordering but the first starts anew. -/
theorem Piece.inForce_eq_keys_iff (pieces : List Piece) :
    inForce pieces = keys pieces ↔
      ∀ step ∈ (orderings (pieces.map Piece.step)).tail, step.refines = true := by
  induction pieces using List.reverseRecOn with
  | nil => simp [inForce, keys, orderings]
  | append_singleton pieces piece ih =>
    have hsteps : orderings ((pieces ++ [piece]).map Piece.step) =
        orderings (pieces.map Piece.step) ++ piece.step.sort?.toList := by
      rw [List.map_append]
      exact filterMap_concat _ _ _
    rw [inForce_concat, keys_concat, hsteps]
    obtain ⟨s, text⟩ := piece
    cases s with
    | sort step key =>
      show (if step.refines then inForce pieces ++ [_] else [_]) = keys pieces ++ [_] ↔
        ∀ t ∈ (orderings (pieces.map Piece.step) ++ [step]).tail, t.refines = true
      -- the first ordering has nothing to replace, a later one has
      by_cases hfirst : orderings (pieces.map Piece.step) = []
      · have hkeys := (keys_eq_nil_iff pieces).mpr hfirst
        rw [hfirst] at ih
        have hforce : inForce pieces = [] := (ih.mpr (by simp)).trans hkeys
        simp [hfirst, hkeys, hforce]
      · have hkeys : keys pieces ≠ [] := (keys_eq_nil_iff pieces).not.mpr hfirst
        rw [List.tail_append_of_ne_nil hfirst]
        by_cases hrefines : step.refines = true
        · rw [if_pos hrefines, List.append_left_inj, ih]
          simp [hrefines, or_imp, forall_and]
        · rw [if_neg hrefines]
          simp [hrefines, hkeys]
    | filter | skip | take | select | distinct | count | any | first | firstOrDefault | toList =>
      simpa [sortKeys, key?, Step.sort?] using ih

section Steps

variable {ctx : Context} {d f : Draft} {pieces : List Piece}

/-- What a draft holds does not depend on its paging. -/
theorem Draft.Holds.of_eq (hd : d.Holds pieces)
    (h : f.out = d.out ∧ f.filter = d.filter ∧ f.order = d.order) : f.Holds pieces := by
  obtain ⟨_, _, hd⟩ := hd
  obtain ⟨hout, hfilter, horder⟩ := h
  exact ⟨f.startAt, f.maxResults, hout.trans hd.out, hfilter.trans hd.filter,
    horder.trans hd.order, rfl, rfl⟩

theorem Draft.Holds.addFilter (hd : d.Holds pieces) (p : Expr) (clause : String) :
    ∃ f, Writer.addFilter clause d = .ok () f ∧
      (f.events = d.events ∧ f.separator = d.separator) ∧
      f.Holds (pieces ++ [⟨.filter p, clause⟩]) := by
  obtain ⟨_, _, hd⟩ := hd
  obtain ⟨f, hadd, hkept, hf⟩ := hd.addFilter clause
  exact ⟨f, hadd, hkept, _, _, by simpa [Piece.clause?, Piece.sortKeys] using hf⟩

theorem Draft.Holds.addOrder (hd : d.Holds pieces) (step : SortStep) (key : Expr) (text : String) :
    ∃ f, Writer.addOrder step.refines step.isDescending text d = .ok () f ∧
      (f.events = d.events ∧ f.separator = d.separator) ∧
      f.Holds (pieces ++ [⟨.sort step key, text⟩]) := by
  obtain ⟨_, _, hd⟩ := hd
  obtain ⟨f, hadd, hkept, hf⟩ := hd.addOrder step.refines ⟨text, step.isDescending⟩
  exact ⟨f, hadd, hkept, _, _, by simpa [Piece.clause?, Piece.sortKeys] using hf⟩

/-- The pieces of steps that collect nothing make no difference. -/
theorem Draft.Holds.concat {s : Step} (hd : d.Holds pieces) (hs : s.collected? = none)
    (text : String) : d.Holds (pieces ++ [⟨s, text⟩]) := by
  obtain ⟨startAt, maxResults, hd⟩ := hd
  refine ⟨startAt, maxResults, ?_⟩
  cases s with
  | filter | sort => cases hs
  | skip | take | select | distinct | count | any | first | firstOrDefault | toList =>
    simpa [Piece.clause?, Piece.sortKeys] using hd

/-- **One step**: it is written as a piece, which is put on record and joins
    what the draft holds. -/
theorem Step.writer_transcript {s : Step} (hs : ∀ e ∈ s.collected?, e.HasNoCollectingStep)
    (hd : d.Holds pieces) (h : s.writer ctx d = .ok () f) :
    ∃ text, Piece.IsWritten ctx ⟨s, text⟩ d.separator f.separator ∧
      f.Holds (pieces ++ [⟨s, text⟩]) ∧
      ∃ events, Spells events text ∧ f.events = d.events ++ events := by
  -- a step that collects nothing leaves the record alone
  have hquiet : s.collected? = none → (f.out = d.out ∧ f.filter = d.filter ∧ f.order = d.order) →
      f.events = d.events → Piece.IsWritten ctx ⟨s, ""⟩ d.separator f.separator →
      ∃ text, Piece.IsWritten ctx ⟨s, text⟩ d.separator f.separator ∧
        f.Holds (pieces ++ [⟨s, text⟩]) ∧
        ∃ events, Spells events text ∧ f.events = d.events ++ events := by
    intro hnone hsame hevents hwritten
    have hf := (hd.of_eq hsame).concat hnone ""
    exact ⟨"", hwritten, hf, [], .nil, by rw [hevents, List.append_nil]⟩
  cases s with
  | filter p =>
    obtain ⟨_, _, hreset, h⟩ := Writer.ok_of_bind h
    cases hreset
    obtain ⟨clause, g, hcapture, h⟩ := Writer.ok_of_bind h
    obtain ⟨hsame, ⟨events, hspells, hevents⟩, own, hown, hadds, hnext⟩ :=
      (Expr.visit_transcribes ctx (hs p rfl)).capture hcapture
    obtain ⟨f', hadd, ⟨hevents', hkept⟩, hf⟩ := (hd.of_eq hsame).addFilter p clause
    rw [hadd] at h
    cases h
    have hcompiles : CompilesTo ctx p clause := by
      have hsearch := compilesTo_of_compile (Expr.compile_of_visit_ok ctx hown)
      rwa [Expr.search_text_of_adds hadds] at hsearch
    have hwritten : p.IsWrittenAs ctx .first clause f.separator :=
      Expr.isWrittenAs_of_adds hown hadds (hnext.trans hkept.symm)
    exact ⟨clause, ⟨hcompiles, hwritten⟩, hf, events, hspells, hevents'.trans hevents⟩
  | sort step key =>
    obtain ⟨text, g, hcapture, h⟩ := Writer.ok_of_bind h
    obtain ⟨hsame, ⟨events, hspells, hevents⟩, own, hown, hadds, hnext⟩ :=
      (Expr.visit_transcribes ctx (hs key rfl)).capture hcapture
    obtain ⟨f', hadd, ⟨hevents', hkept⟩, hf⟩ := (hd.of_eq hsame).addOrder step key text
    rw [hadd] at h
    cases h
    have hwritten : key.IsWrittenAs ctx d.separator text f.separator :=
      Expr.isWrittenAs_of_adds hown hadds (hnext.trans hkept.symm)
    exact ⟨text, hwritten, hf, events, hspells, hevents'.trans hevents⟩
  | skip n | take n =>
    obtain ⟨_, rfl⟩ := Writer.ok_of_setCount h
    exact hquiet rfl ⟨rfl, rfl, rfl⟩ rfl ⟨rfl, rfl⟩
  | select projection | distinct | count | any | first | firstOrDefault | toList =>
    cases h
    exact hquiet rfl ⟨rfl, rfl, rfl⟩ rfl ⟨rfl, rfl⟩

end Steps

/-! ## Whole chains -/

namespace Chain

variable {ctx : Context} {c : Chain}

/-- The predicates and the keys of the chain collect no clauses of their own. -/
def IsFlat (c : Chain) : Prop :=
  ∀ s ∈ c.steps, ∀ e ∈ s.collected?, e.HasNoCollectingStep

/-- **Whole chains**: the record of a chain is made up of the pieces of its
    steps, in order, and the draft holds them. -/
theorem visit_transcript (hc : c.IsFlat) {d f : Draft} (hd : d.Holds [])
    (hfirst : d.separator = .first) (h : (c.toExpr.operand ctx).visit d = .ok () f) :
    ∃ pieces, pieces.map Piece.step = c.steps ∧ Piece.AreWritten ctx pieces f.separator ∧
      f.Holds pieces ∧
      ∃ events, Spells events (String.join (pieces.map Piece.text)) ∧
        f.events = d.events ++ events := by
  induction c using induction_on_steps generalizing d f with
  | nil entity =>
    obtain ⟨g, hg, rfl⟩ := Writer.ok_of_node h
    cases hg
    refine ⟨[], rfl, ?_, hd.of_eq ⟨rfl, rfl, rfl⟩, [.enter _ d.depth], .enter _ _ .nil, rfl⟩
    show Piece.AreWritten ctx [] d.separator
    rw [hfirst]
    exact .nil
  | concat c s ih =>
    have hflat : c.IsFlat := fun t ht => hc t (mem_steps_concat.mpr (Or.inl ht))
    rw [toExpr_concat, Step.visit_extend] at h
    -- inside the node, the chain before the step is written first
    let kind := (s.extend c.entity c.toExpr).kind
    let inside : Draft :=
      { d with depth := d.depth + 1, events := d.events ++ [.enter kind d.depth] }
    have hinside : inside.Holds [] := hd.of_eq ⟨rfl, rfl, rfl⟩
    obtain ⟨g, hg, rfl⟩ := Writer.ok_of_node h
    obtain ⟨_, d', hbefore, hstep⟩ := Writer.ok_of_bind hg
    obtain ⟨pieces, hsteps, hwritten, hholds, events, hspells, hevents⟩ :=
      ih hflat hinside hfirst hbefore
    obtain ⟨text, htext, hholds', more, hmore, hevents'⟩ :=
      Step.writer_transcript (hc s (mem_steps_concat.mpr (Or.inr rfl))) hholds hstep
    have hlast : Draft.Holds { g with depth := g.depth - 1 } (pieces ++ [⟨s, text⟩]) :=
      hholds'.of_eq ⟨rfl, rfl, rfl⟩
    refine ⟨pieces ++ [⟨s, text⟩], ?_, hwritten.concat htext, hlast,
      .enter kind d.depth :: (events ++ more), ?_, ?_⟩
    · rw [List.map_append, hsteps]
      rfl
    · rw [List.map_append, String.join_append]
      have hjoin : String.join ([⟨s, text⟩].map Piece.text) = text := by simp
      rw [hjoin]
      exact .enter _ _ (hspells.append hmore)
    · show g.events = _
      rw [hevents', hevents]
      simp [inside]

/-- The search of a chain is assembled from the clauses of its pieces and the
    keys in force, while the record holds all of them in order. -/
theorem pieces_of_visit (hc : c.IsFlat) {d : Draft}
    (h : (c.toExpr.operand ctx).visit .blank = .ok () d) :
    ∃ pieces, pieces.map Piece.step = c.steps ∧ (∃ last, Piece.AreWritten ctx pieces last) ∧
      emitted d.events = String.join (pieces.map Piece.text) ∧
      d.search.text = conjunction (Piece.clauses pieces) ++ orderClause (Piece.inForce pieces) := by
  have hblank : Draft.blank.Holds [] := ⟨none, none, rfl, rfl, rfl, rfl, rfl⟩
  obtain ⟨pieces, hsteps, hwritten, ⟨_, _, hholds⟩, events, hspells, hevents⟩ :=
    visit_transcript hc hblank rfl h
  refine ⟨pieces, hsteps, ⟨_, hwritten⟩, ?_, ?_⟩
  · rw [hevents]
    exact hspells.emitted_eq
  · rw [hholds.search_eq]
    rfl

end Chain

namespace Expr

/-- **What an observer is told.** No piece of text is empty.  The search is
    finished once, last, and it is the one that is returned; if writing fails it
    is not finished.  Where no clause is collected, the pieces make up the text
    of the search.  For a query whose predicates and keys collect none of their
    own they make up the texts of the predicates and of the keys, step after
    step, where a key goes on with the list that the steps before it left; the
    text of the search has all those predicates, but only the keys in force.
    These are the last ones, and all of them just if no ordering but the first
    starts anew. -/
theorem compile_is_transcribed (ctx : Context) (e : Expr) :
    .emit "" ∉ (e.compileTraced ctx).2 ∧
    (∀ failure, e.compile ctx = .error failure →
      ∀ search, .finish search ∉ (e.compileTraced ctx).2) ∧
    ∀ search, e.compile ctx = .ok search →
      (∃ events, (e.compileTraced ctx).2 = events ++ [.finish search] ∧
        ∀ search', .finish search' ∉ events) ∧
      (e.HasNoCollectingStep → emitted (e.compileTraced ctx).2 = search.text) ∧
      ∀ c : Chain, c.IsFlat → c.toExpr = e →
        ∃ pieces : List Piece,
          pieces.map Piece.step = c.steps ∧ (∃ last, Piece.AreWritten ctx pieces last) ∧
          emitted (e.compileTraced ctx).2 = String.join (pieces.map Piece.text) ∧
          search.text =
            conjunction (Piece.clauses pieces) ++ orderClause (Piece.inForce pieces) ∧
          Piece.inForce pieces <:+ Piece.keys pieces ∧
          (Piece.inForce pieces = Piece.keys pieces ↔
            ∀ step ∈ (orderings c.steps).tail, step.refines = true) := by
  obtain ⟨hrecordOk, hrecordError⟩ := visit_records ctx e .blank
  cases hvisit : (e.operand ctx).visit .blank with
  | error failure d =>
    obtain ⟨events, text, hspells, hevents⟩ := hrecordError failure d hvisit
    have hrecord : d.events = events := hevents
    rw [compile_of_visit_error ctx hvisit, compileTraced_of_visit_error ctx hvisit]
    dsimp only
    rw [hrecord]
    refine ⟨fun hmem => hspells.emit_ne hmem rfl, fun _ _ => hspells.not_finished, ?_⟩
    intro search hsearch
    cases hsearch
  | ok u d =>
    obtain ⟨events, text, hspells, hevents⟩ := hrecordOk u d hvisit
    have hrecord : d.events = events := hevents
    rw [compile_of_visit_ok ctx hvisit, compileTraced_of_visit_ok ctx hvisit]
    -- the last event tells of no text
    have hemitted : emitted (d.events ++ [.finish d.search]) = emitted d.events := by
      rw [emitted_append]
      exact String.append_empty
    refine ⟨?_, ?_, ?_⟩
    · intro hmem
      rcases List.mem_append.mp hmem with hmem | hlast
      · rw [hrecord] at hmem
        exact hspells.emit_ne hmem rfl
      · cases List.mem_singleton.mp hlast
    · intro failure hfailure
      cases hfailure
    · intro search hsearch
      cases hsearch
      refine ⟨⟨d.events, rfl, ?_⟩, ?_, ?_⟩
      · rw [hrecord]
        exact hspells.not_finished
      · intro hnone
        rw [hemitted]
        exact emitted_of_visit hnone hvisit
      · rintro c hc rfl
        obtain ⟨pieces, hsteps, hwritten, hpieces, hsearch⟩ := Chain.pieces_of_visit hc hvisit
        refine ⟨pieces, hsteps, hwritten, hemitted.trans hpieces, hsearch,
          Piece.inForce_suffix pieces, ?_⟩
        rw [← hsteps]
        exact Piece.inForce_eq_keys_iff pieces

theorem compile_is_transcribed_votedIssues :
    Chain.votedIssues.IsFlat ∧
    emitted (Chain.votedIssues.toExpr.compileTraced Chain.votingContext).2 =
      "status = \"Open\"votesvotes > 3\"Team\"" ∧
    ∃ pieces : List Piece, pieces.map Piece.step = Chain.votedIssues.steps ∧
      (∃ last, Piece.AreWritten Chain.votingContext pieces last) ∧
      "status = \"Open\"votesvotes > 3\"Team\"" = String.join (pieces.map Piece.text) ∧
      "(status = \"Open\" AND votes > 3) order by votes, \"Team\" desc" =
        conjunction (Piece.clauses pieces) ++ orderClause (Piece.keys pieces) := by
  have hflat : Chain.votedIssues.IsFlat := by
    simp [Chain.IsFlat, Chain.votedIssues, Step.collected?, HasNoCollectingStep, Chain.votedItem,
      field, typedField, ofValue, customField, isCollectingStep, operands]
  obtain ⟨-, -, hall⟩ := compile_is_transcribed Chain.votingContext Chain.votedIssues.toExpr
  obtain ⟨-, -, hchain⟩ := hall _ rfl
  obtain ⟨pieces, hsteps, hwritten, hpieces, htext, -, hforce⟩ := hchain _ hflat rfl
  have hrecord : emitted (Chain.votedIssues.toExpr.compileTraced Chain.votingContext).2 =
      "status = \"Open\"votesvotes > 3\"Team\"" := rfl
  refine ⟨hflat, hrecord, pieces, hsteps, hwritten, hrecord.symm.trans hpieces, ?_⟩
  rw [← hforce.mpr (by decide)]
  exact htext

/-- A query whose second ordering replaces its first. -/
def reordered : Chain :=
  { entity := "Issue"
    steps :=
      [.sort .orderBy (Chain.votedItem.field "Status"),
       .sort .orderBy (Chain.votedItem.field "Votes")] }

/-- A key that is replaced was told of, though the search has nothing of it. -/
theorem replaced_key_is_told :
    (reordered.toExpr.compile Chain.votingContext).map Search.text = .ok " order by votes" ∧
      emitted (reordered.toExpr.compileTraced Chain.votingContext).2 = "statusvotes" :=
  ⟨rfl, rfl⟩

/-- A query that is ordered by a literal, after the given steps. -/
def orderedByLiteral (before : List Step) : Chain :=
  { entity := "Issue", steps := before ++ [.sort .orderBy (.ofValue (.str "x"))] }

-- the literal of the predicate before it makes the key a later item of a list
example :
    let isOpen := Step.filter (.binary .equal (Chain.votedItem.field "Status")
      (.ofValue (.str "Open")))
    ((orderedByLiteral []).toExpr.compile Chain.votingContext).map Search.text =
        .ok " order by \"x\"" ∧
      ((orderedByLiteral [isOpen]).toExpr.compile Chain.votingContext).map Search.text =
        .ok "status = \"Open\" order by , \"x\"" :=
  ⟨rfl, rfl⟩

end Expr

end IssueSearch
