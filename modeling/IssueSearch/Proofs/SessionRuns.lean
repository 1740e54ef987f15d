import IssueSearch.Proofs.Execution

/-! # Runs of a session

    A session is called again and again: for its fields, for the search of a
    query, for the answer to a query.  Any of these may fail, at folding, at
    fetching the fields, at writing the search or at sending it.

    * `SessionCall.next_eq` says once what a call does to a session: it may ask
      for the fields, and then it may send one search.
    * `Session.requests_after`: what was sent over a whole run.
    * `Session.Answers`: the answer to a query is made of what the server
      answers to the search that was put on record for it.
    * `Session.Fetched`: what is remembered of the fetches, and
      `Session.fetched_after`, that this is so after every run.
    * `Session.run_sends_and_fetches`: each search is sent once and answered as
      it was sent, and the first field table that was fetched is the only one
      that is used. -/

namespace IssueSearch

/-- What writing a search depends on, for the given fields. -/
def SessionSetup.context (setup : SessionSetup) (table : FieldTable) : Context :=
  { fields := table, library := setup.library, options := setup.options }

/-- The request for fields of the given number fails. -/
def Server.FailsAt (server : Server) (n : Nat) : Prop :=
  ∃ reason, server.fields n = .error reason

/-- A call that is made on a session. -/
inductive SessionCall where
  | fields
  | compile (query : Expr)
  | execute (query : Expr)

namespace SessionCall

/-- Does the call look at the fields?  A query that cannot be folded is given up
    before. -/
def needsFields (lib : Library) : SessionCall → Bool
  | fields                        => true
  | compile query | execute query => (query.fold lib).isOk

/-- The search that a call sends.  Only `execute` sends one, and it is the
    search that `compile` has for the query at that point, with the paging
    filled in. -/
def request? (setup : SessionSetup) (s : Session) : SessionCall → Option SearchRequest
  | execute query =>
    (s.compile setup query).1.toOption.map fun search => search.request setup.paging
  | _ => none

/-- The session after a call. -/
def next (setup : SessionSetup) (s : Session) : SessionCall → Session
  | fields        => (s.fields setup).2
  | compile query => (s.compile setup query).2
  | execute query => (s.execute setup query).2

end SessionCall

namespace Session

/-- The session after it was asked for its fields, if they were needed. -/
def asked (setup : SessionSetup) (s : Session) (needed : Bool) : Session :=
  if needed then (s.fields setup).2 else s

/-- The session after it sent a search, if there was one. -/
def sent (s : Session) (request? : Option SearchRequest) : Session :=
  { s with requests := s.requests ++ request?.toList }

/-- The session after a run of calls. -/
def after (setup : SessionSetup) (s : Session) (calls : List SessionCall) : Session :=
  calls.foldl (SessionCall.next setup) s

/-- Every call of a run, with the session it is made on. -/
def visits (setup : SessionSetup) (s : Session) : List SessionCall → List (Session × SessionCall)
  | []        => []
  | c :: rest => (s, c) :: visits setup (c.next setup s) rest

variable {setup : SessionSetup}

/-! ## One call -/

/-- A query is folded, the fields are asked for, and the search is written, in
    this order. -/
theorem prepare_of_fold {e : Expr} {folded : Folded Expr} (h : e.fold setup.library = .ok folded)
    (s : Session) :
    (s.prepare setup e).2 = (s.fields setup).2 ∧
      ∀ tree search, (s.prepare setup e).1 = .ok (tree, search) ↔
        folded.tree = tree ∧ ∃ table, (s.fields setup).1 = .ok table ∧
          tree.compile (setup.context table) = .ok search := by
  unfold prepare
  rw [h]
  cases hfields : s.fields setup with
  | mk outcome s' =>
    cases outcome with
    | error failure => exact ⟨rfl, fun tree search => by simp⟩
    | ok table =>
      dsimp only
      -- the context is the one that `SessionSetup.context` spells out
      rw [show ({ fields := table, library := setup.library, options := setup.options } : Context) =
        setup.context table from rfl]
      cases hcompile : folded.tree.compile (setup.context table) with
      | error failure =>
        refine ⟨rfl, fun tree search => ⟨?_, ?_⟩⟩
        · intro heq
          cases heq
        · rintro ⟨rfl, _, heq, hok⟩
          cases heq
          rw [hcompile] at hok
          cases hok
      | ok found =>
        refine ⟨rfl, fun tree search => ⟨?_, ?_⟩⟩
        · intro heq
          cases heq
          exact ⟨rfl, table, rfl, hcompile⟩
        · rintro ⟨rfl, _, heq, hok⟩
          cases heq
          rw [hcompile] at hok
          cases hok
          rfl

/-- A query that cannot be folded is given up at once. -/
theorem prepare_of_fold_error {e : Expr} {failure : EvalError}
    (h : e.fold setup.library = .error failure) (s : Session) :
    s.prepare setup e = (.error (.search (.evaluation failure)), s) := by
  unfold prepare
  rw [h]

/-- Preparing a query asks for the fields once it is folded. -/
theorem prepare_snd (s : Session) (e : Expr) :
    (s.prepare setup e).2 = s.asked setup (e.fold setup.library).isOk := by
  cases hfold : e.fold setup.library with
  | error failure =>
    rw [prepare_of_fold_error hfold]
    rfl
  | ok folded => exact (prepare_of_fold hfold s).1

/-- Compiling a query is preparing it, and leaving the folded tree aside. -/
theorem compile_eq (s : Session) (e : Expr) :
    s.compile setup e = ((s.prepare setup e).1.map Prod.snd, (s.prepare setup e).2) := by
  unfold compile
  cases s.prepare setup e with
  | mk outcome s' => cases outcome <;> rfl

/-- Compiling a query succeeds exactly if folding it, asking for the fields and
    writing its search all succeed. -/
theorem compile_eq_ok_iff (s : Session) (e : Expr) (search : Search) :
    (s.compile setup e).1 = .ok search ↔
      ∃ folded table, e.fold setup.library = .ok folded ∧ (s.fields setup).1 = .ok table ∧
        folded.tree.compile (setup.context table) = .ok search := by
  rw [compile_eq]
  cases hfold : e.fold setup.library with
  | error failure => simp [prepare_of_fold_error hfold, Except.map]
  | ok folded =>
    have hprepare := (prepare_of_fold hfold s).2
    constructor
    · intro h
      cases houtcome : (s.prepare setup e).1 with
      | error failure =>
        rw [houtcome] at h
        cases h
      | ok found =>
        rw [houtcome] at h
        cases h
        obtain ⟨htree, table, hfields, hcompile⟩ := (hprepare found.1 found.2).mp houtcome
        exact ⟨folded, table, rfl, hfields, htree ▸ hcompile⟩
    · rintro ⟨_, table, heq, hfields, hcompile⟩
      cases heq
      rw [(hprepare folded.tree search).mpr ⟨rfl, table, hfields, hcompile⟩]
      rfl

/-- Executing a query sends its search if it has one, whatever the answer. -/
theorem execute_snd (s : Session) (e : Expr) :
    (s.execute setup e).2 =
      (s.prepare setup e).2.sent (SessionCall.request? setup s (.execute e)) := by
  have hrequest : SessionCall.request? setup s (.execute e) =
      (s.compile setup e).1.toOption.map fun search => search.request setup.paging := rfl
  rw [hrequest, compile_eq]
  cases hprepare : (s.prepare setup e).1 with
  | error failure =>
    rw [execute_of_prepare_error hprepare]
    simp [sent, Except.map, Except.toOption]
  | ok found =>
    obtain ⟨folded, search⟩ := found
    rw [execute_of_prepare hprepare, ← requests_prepare setup s e]
    rfl

end Session

/-- **What one call does**: if it looks at the fields, they are asked for; if it
    has a search, that is sent; nothing else changes. -/
theorem SessionCall.next_eq (setup : SessionSetup) (s : Session) (c : SessionCall) :
    c.next setup s =
      (s.asked setup (c.needsFields setup.library)).sent (c.request? setup s) := by
  have hnone : ∀ t : Session, t.sent none = t := fun t => by simp [Session.sent]
  cases c with
  | fields => exact (hnone _).symm
  | compile e =>
    show (s.compile setup e).2 = _
    rw [Session.compile_eq, Session.prepare_snd]
    exact (hnone _).symm
  | execute e =>
    show (s.execute setup e).2 = _
    rw [Session.execute_snd, Session.prepare_snd]
    rfl

namespace Session

variable (setup : SessionSetup)

theorem after_append (s : Session) (calls later : List SessionCall) :
    s.after setup (calls ++ later) = (s.after setup calls).after setup later :=
  List.foldl_append

/-! ## Searches that are sent -/

/-- A call adds its search, if it has one, to those sent before. -/
theorem requests_next (s : Session) (c : SessionCall) :
    (c.next setup s).requests = s.requests ++ (c.request? setup s).toList := by
  have hasked : (s.asked setup (c.needsFields setup.library)).requests = s.requests := by
    unfold asked
    split
    · exact requests_fields setup s
    · rfl
  rw [SessionCall.next_eq]
  show (s.asked setup _).requests ++ _ = _
  rw [hasked]

/-- **What is sent over a run**: the searches of its calls, in their order. -/
theorem requests_after (s : Session) (calls : List SessionCall) :
    (s.after setup calls).requests =
      s.requests ++ (s.visits setup calls).filterMap fun v => v.2.request? setup v.1 := by
  -- the later calls are made on the session that the first one leaves
  induction calls generalizing s with
  | nil => simp [after, visits]
  | cons c rest ih =>
    have hrest := ih (c.next setup s)
    rw [requests_next] at hrest
    show ((c.next setup s).after setup rest).requests = _
    rw [hrest, visits, List.filterMap_cons, List.append_assoc]
    cases c.request? setup s <;> rfl

/-- What was sent stays on record, and so does what a call sends. -/
theorem requests_prefix_after {s t : Session} {c : SessionCall} {calls : List SessionCall}
    (h : (t, c) ∈ s.visits setup calls) :
    t.requests ++ (c.request? setup t).toList <+: (s.after setup calls).requests := by
  induction calls generalizing s with
  | nil => cases h
  | cons first rest ih =>
    rcases List.mem_cons.mp h with heq | hlater
    · cases heq
      rw [← requests_next]
      show _ <+: ((c.next setup t).after setup rest).requests
      rw [requests_after]
      exact List.prefix_append _ _
    · exact ih hlater

/-- `s.Answers setup e log`: on the session, the answer to the query is made of
    what the server answers to the search that the log has after those sent
    before.  A query without a search is answered with its failure. -/
structure Answers (s : Session) (e : Expr) (log : List SearchRequest) : Prop where
  sent : ∀ search, (s.compile setup e).1 = .ok search →
    ∃ folded, e.fold setup.library = .ok folded ∧
      log[s.requests.length]? = some (search.request setup.paging) ∧
      (s.execute setup e).1 = answer setup.library folded.tree (search.request setup.paging)
        (setup.server.search s.requests.length (search.request setup.paging))
  unsent : ∀ failure, (s.compile setup e).1 = .error failure →
    (s.execute setup e).1 = .error failure

/-- A query is answered from the log as it was when the query was executed, and
    ever after. -/
theorem answers_of_prefix {s : Session} {e : Expr} {log : List SearchRequest}
    (h : s.requests ++ (SessionCall.request? setup s (.execute e)).toList <+: log) :
    s.Answers setup e log where
  sent := by
    intro search hcompile
    obtain ⟨tree, hprepare⟩ := prepare_of_compile hcompile
    obtain ⟨folded, hfold, rfl⟩ := foldsTo_of_prepare hprepare
    have hrequest : SessionCall.request? setup s (.execute e) =
        some (search.request setup.paging) := by
      rw [SessionCall.request?, hcompile]
      rfl
    rw [hrequest] at h
    obtain ⟨later, rfl⟩ := h
    refine ⟨folded, hfold, by simp, ?_⟩
    rw [execute_of_prepare hprepare]
  unsent := by
    intro failure hcompile
    rw [compile_eq] at hcompile
    cases hprepare : (s.prepare setup e).1 with
    | ok found =>
      rw [hprepare] at hcompile
      cases hcompile
    | error failure' =>
      rw [hprepare] at hcompile
      cases hcompile
      rw [execute_of_prepare_error hprepare]

/-! ## Fields that are fetched -/

/-- A table that is known is used, and no other is asked for. -/
theorem fields_of_known {s : Session} {table : FieldTable} (h : s.table? = some table) :
    s.fields setup = (.ok table, s) := by
  unfold fields
  rw [h]

/-- Without a table the server is asked, and its table, if it gives one, is
    remembered. -/
theorem fields_of_unknown {s : Session} (h : s.table? = none) :
    (s.fields setup).2.table? = (setup.server.fields s.fetches).toOption ∧
      (s.fields setup).2.fetches = s.fetches + 1 := by
  unfold fields
  rw [h]
  dsimp only
  cases setup.server.fields s.fetches with
  | error reason => exact ⟨rfl, rfl⟩
  | ok table => exact ⟨rfl, rfl⟩

/-- **One call, with a table**: the table stays, and nothing is fetched. -/
theorem next_of_known {s : Session} {table : FieldTable} (h : s.table? = some table)
    (c : SessionCall) :
    (c.next setup s).table? = some table ∧ (c.next setup s).fetches = s.fetches := by
  have hasked : s.asked setup (c.needsFields setup.library) = s := by
    unfold asked
    rw [fields_of_known setup h]
    split <;> rfl
  rw [SessionCall.next_eq, hasked]
  exact ⟨h, rfl⟩

/-- **One call, without a table**: if it looks at the fields, they are fetched. -/
theorem next_of_unknown {s : Session} (h : s.table? = none) (c : SessionCall) :
    (c.next setup s).table? =
        (if c.needsFields setup.library then (setup.server.fields s.fetches).toOption else none) ∧
      (c.next setup s).fetches =
        if c.needsFields setup.library then s.fetches + 1 else s.fetches := by
  rw [SessionCall.next_eq]
  show (s.asked setup _).table? = _ ∧ (s.asked setup _).fetches = _
  unfold asked
  by_cases hneeds : c.needsFields setup.library = true
  · rw [if_pos hneeds, if_pos hneeds, if_pos hneeds]
    exact fields_of_unknown setup h
  · rw [if_neg hneeds, if_neg hneeds, if_neg hneeds]
    exact ⟨h, rfl⟩

/-- **A run, with a table**: the table stays, and nothing is fetched. -/
theorem after_of_known {s : Session} {table : FieldTable} (h : s.table? = some table)
    (calls : List SessionCall) :
    (s.after setup calls).table? = some table ∧ (s.after setup calls).fetches = s.fetches := by
  induction calls generalizing s with
  | nil => exact ⟨h, rfl⟩
  | cons c rest ih =>
    obtain ⟨htable, hfetches⟩ := next_of_known setup h c
    obtain ⟨htable', hfetches'⟩ := ih htable
    exact ⟨htable', hfetches'.trans hfetches⟩

/-- What a session remembers of its fetches: all of them failed, or the last one
    gave the table and all others failed. -/
inductive Fetched (server : Server) (s : Session) : Prop
  | failed : s.table? = none → (∀ n < s.fetches, server.FailsAt n) → Fetched server s
  | found (table : FieldTable) (last : Nat) : s.table? = some table → s.fetches = last + 1 →
      server.fields last = .ok table → (∀ n < last, server.FailsAt n) → Fetched server s

theorem fetched_next {s : Session} (h : s.Fetched setup.server) (c : SessionCall) :
    (c.next setup s).Fetched setup.server := by
  cases h with
  | found table last htable hfetches hlast hfailed =>
    obtain ⟨htable', hfetches'⟩ := next_of_known setup htable c
    exact .found table last htable' (hfetches'.trans hfetches) hlast hfailed
  | failed htable hfailed =>
    obtain ⟨htable', hfetches'⟩ := next_of_unknown setup htable c
    by_cases hneeds : c.needsFields setup.library = true
    · rw [if_pos hneeds] at htable' hfetches'
      -- the fetch that was just made decides
      cases hanswer : setup.server.fields s.fetches with
      | ok table =>
        rw [hanswer] at htable'
        exact .found table s.fetches htable' hfetches' hanswer hfailed
      | error reason =>
        rw [hanswer] at htable'
        refine .failed htable' fun n hn => ?_
        rcases Nat.lt_or_ge n s.fetches with hlt | hge
        · exact hfailed n hlt
        · have hn' : n = s.fetches := by omega
          exact ⟨reason, hn' ▸ hanswer⟩
    · rw [if_neg hneeds] at htable' hfetches'
      exact .failed htable' (hfetches' ▸ hfailed)

/-- **After every run** the session remembers its fetches. -/
theorem fetched_after {s : Session} (h : s.Fetched setup.server) (calls : List SessionCall) :
    (s.after setup calls).Fetched setup.server := by
  induction calls generalizing s with
  | nil => exact h
  | cons c rest ih => exact ih (fetched_next setup h c)

theorem fetched_start (server : Server) : start.Fetched server :=
  .failed rfl fun n hn => absurd hn (Nat.not_lt_zero n)

/-! ## Whole runs -/

/-- **Each search is sent once and answered, and one field table is used.**  Over
    every run of calls:

    * what was sent is, in the order of the calls, the search of each query that
      was to be executed, as compiling it would have given it at that point; it
      has one exactly if folding, asking for the fields and writing succeed;
    * the answer to each of these queries is made of what the server answers to
      its search as that was sent, by its place among all that was sent;
    * a table that is known is that of the first fetch that succeeded; all later
      calls use it, and fetch no other;
    * as long as none is known every fetch has failed, and the next call that
      looks at the fields, which is any whose query can be folded, fetches
      again. -/
theorem run_sends_and_fetches (setup : SessionSetup) (calls : List SessionCall) :
    let s := start.after setup calls
    s.requests = (start.visits setup calls).filterMap (fun v => v.2.request? setup v.1) ∧
      (∀ t e, (t, SessionCall.execute e) ∈ start.visits setup calls →
        t.Answers setup e s.requests) ∧
      (∀ e search, (s.compile setup e).1 = .ok search ↔
        ∃ folded table, e.fold setup.library = .ok folded ∧ (s.fields setup).1 = .ok table ∧
          folded.tree.compile (setup.context table) = .ok search) ∧
      (∀ table, s.table? = some table →
        (∃ last, s.fetches = last + 1 ∧ setup.server.fields last = .ok table ∧
          ∀ n < last, setup.server.FailsAt n) ∧
        ∀ later, ((start.after setup (calls ++ later)).fields setup).1 = .ok table ∧
          (start.after setup (calls ++ later)).fetches = s.fetches) ∧
      (s.table? = none →
        (∀ n < s.fetches, setup.server.FailsAt n) ∧
        ∀ c : SessionCall,
          (c.next setup s).table? = (if c.needsFields setup.library then
            (setup.server.fields s.fetches).toOption else none) ∧
          (c.next setup s).fetches =
            if c.needsFields setup.library then s.fetches + 1 else s.fetches) := by
  intro s
  have hfetched : s.Fetched setup.server := fetched_after setup (fetched_start setup.server) calls
  refine ⟨?_, ?_, fun e search => compile_eq_ok_iff s e search, ?_, ?_⟩
  · have hsent := requests_after setup start calls
    rwa [show start.requests = [] from rfl, List.nil_append] at hsent
  · intro t e hvisit
    exact answers_of_prefix setup (requests_prefix_after setup hvisit)
  · intro table htable
    constructor
    · -- the table can only come from the last fetch
      cases hfetched with
      | failed hnone _ =>
        rw [htable] at hnone
        cases hnone
      | found table' last htable' hfetches hlast hfailed =>
        rw [htable] at htable'
        cases htable'
        exact ⟨last, hfetches, hlast, hfailed⟩
    · intro later
      rw [after_append]
      obtain ⟨hlater, hfetches⟩ := after_of_known setup htable later
      exact ⟨by rw [fields_of_known setup hlater], hfetches⟩
  · intro hnone
    refine ⟨?_, fun c => next_of_unknown setup hnone c⟩
    cases hfetched with
    | failed _ hfailed => exact hfailed
    | found table last htable _ _ _ =>
      rw [hnone] at htable
      cases htable

/-- A server that fails to tell its fields at first, and tells other fields when
    it is asked a third time. -/
def lateServer : SessionSetup :=
  { twoIssues with
    server :=
      { twoIssues.server with
        fields := fun n =>
          match n with
          | 0 => .error "unavailable"
          | 1 => .ok Chain.votingContext.fields
          | _ => .ok .empty } }

/-- The issues with more than three votes. -/
def popularIssues : Expr :=
  Chain.toExpr { entity := "Issue", steps := [.filter (.binary .greaterThan
    (Chain.votedItem.field "Votes") (.ofValue (.int 3)))] }

/-- The first fetch fails, and with it the first query; the second query sends
    its search with the fields of the second fetch, which the third query
    uses as well.  The second query is answered with the issues that its search
    finds. -/
theorem run_sends_and_fetches_lateServer :
    let calls := [SessionCall.execute popularIssues, .execute popularIssues,
      .compile (.parameter { name := "x", type := .any }), .execute popularIssues]
    let s := start.after lateServer calls
    s.table? = some Chain.votingContext.fields ∧ s.fetches = 2 ∧
      s.requests = [⟨"votes > 3", 0, 500⟩, ⟨"votes > 3", 0, 500⟩] ∧
      ((start.after lateServer [.execute popularIssues]).execute lateServer popularIssues).1 =
        .ok (.array [.record "Issue" none [("Votes", .int 3)],
          .record "Issue" none [("Votes", .int 4)]]) ∧
      ∀ later, (start.after lateServer (calls ++ later)).fetches = 2 := by
  intro calls s
  have htable : s.table? = some Chain.votingContext.fields := rfl
  obtain ⟨hsent, hanswers, -, hknown, -⟩ := run_sends_and_fetches lateServer calls
  refine ⟨htable, rfl, hsent.trans rfl, ?_, fun later => ((hknown _ htable).2 later).2⟩
  have hsecond := hanswers (start.after lateServer [.execute popularIssues]) popularIssues
    (List.mem_cons_of_mem _ List.mem_cons_self)
  obtain ⟨folded, hfold, -, hanswer⟩ := hsecond.sent ⟨"votes > 3", none, none⟩ rfl
  cases hfold
  exact hanswer

/-- **The next call need not fetch again** after a fetch that failed: a query
    that cannot be folded is given up before the fields are looked at. -/
theorem failed_fetch_is_not_repeated :
    let s := start.after lateServer [.fields]
    let c := SessionCall.compile (.binary .divide (.ofValue (.int 1)) (.ofValue (.int 0)))
    lateServer.server.FailsAt 0 ∧ s.fetches = 1 ∧ s.table? = none ∧
      (c.next lateServer s).fetches = 1 :=
  ⟨⟨_, rfl⟩, rfl, rfl, rfl⟩

end Session

end IssueSearch
