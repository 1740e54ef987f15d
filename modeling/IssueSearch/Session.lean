import IssueSearch.Eval.Fold
import IssueSearch.Search.Bind
import IssueSearch.Search.Compile

/-! # Sessions with a search server

    A session answers queries one after another.  It asks the server for the
    field table when it first needs one and keeps the first table it gets; a
    failed request leaves nothing behind, so the next query asks again.

    * `Session.compile` folds a query and writes its search.
    * `Session.execute` also sends the search, puts the results in place of
      what the server has done, and evaluates the rest. -/

namespace IssueSearch

/-- What is sent to the server. -/
structure SearchRequest where
  text       : String
  startAt    : UInt32
  maxResults : UInt32
deriving DecidableEq

/-- The paging of a query that asks for none. -/
structure Paging where
  startAt    : UInt32
  maxResults : UInt32
deriving DecidableEq

/-- The usual paging. -/
def Paging.usual : Paging := { startAt := 0, maxResults := 500 }

/-- The request for a search, with the paging filled in. -/
def Search.request (s : Search) (paging : Paging) : SearchRequest :=
  { text := s.text, startAt := s.startAt.getD paging.startAt,
    maxResults := s.maxResults.getD paging.maxResults }

/-- A search server: what its n-th request for fields and its n-th search
    answer, counted from zero. -/
structure Server where
  fields : Nat → Except String FieldTable
  search : Nat → SearchRequest → Except String (List Record)

/-- The page of a list of records that a request asks for. -/
def SearchRequest.page (r : SearchRequest) (records : List Record) : List Record :=
  (records.drop r.startAt.toNat).take r.maxResults.toNat

/-- Why a session has no answer. -/
inductive SessionError where
  /-- The server did not tell its fields. -/
  | fields (reason : String)
  /-- The query has no search. -/
  | search (failure : SearchError)
  /-- The server did not answer the search. -/
  | request (text reason : String)
  /-- What remained to be done with the results failed. -/
  | results (failure : EvalError)
deriving DecidableEq

/-- The message of a failure, with what caused it. -/
def SessionError.message : SessionError → String
  | fields reason                 => "Failed to fetch field metadata: " ++ reason
  | search (.evaluation failure)  =>
    (SearchError.evaluation failure).message ++ ": " ++ failure.message
  | search failure                => failure.message
  | request text reason           => "Search failed for query: " ++ text ++ ": " ++ reason
  | results failure               =>
    "Failed to apply in-memory operators to search results: " ++ failure.message

/-- What a session works with. -/
structure SessionSetup where
  server  : Server
  library : Library
  options : TextOptions
  paging  : Paging

/-- What a session remembers. -/
structure Session where
  /-- The first field table that the server gave. -/
  table?   : Option FieldTable
  /-- How often the server was asked for its fields. -/
  fetches  : Nat
  /-- The searches sent, the earliest first. -/
  requests : List SearchRequest

namespace Session

/-- The session before the first query. -/
def start : Session := { table? := none, fetches := 0, requests := [] }

/-- The field table, asked for if it is not known yet. -/
def fields (setup : SessionSetup) (s : Session) : Except SessionError FieldTable × Session :=
  match s.table? with
  | some table => (.ok table, s)
  | none =>
    match setup.server.fields s.fetches with
    | .ok table     => (.ok table, { s with table? := some table, fetches := s.fetches + 1 })
    | .error reason => (.error (.fields reason), { s with fetches := s.fetches + 1 })

/-- The folded tree of a query and its search. -/
def prepare (setup : SessionSetup) (e : Expr) (s : Session) :
    Except SessionError (Expr × Search) × Session :=
  match e.fold setup.library with
  | .error failure => (.error (.search (.evaluation failure)), s)
  | .ok folded =>
    match s.fields setup with
    | (.error failure, s) => (.error failure, s)
    | (.ok table, s) =>
      let ctx : Context :=
        { fields := table, library := setup.library, options := setup.options }
      match folded.tree.compile ctx with
      | .ok search     => (.ok (folded.tree, search), s)
      | .error failure => (.error (.search failure), s)

/-- The search of a query. -/
def compile (setup : SessionSetup) (e : Expr) (s : Session) :
    Except SessionError Search × Session :=
  match s.prepare setup e with
  | (.ok (_, search), s) => (.ok search, s)
  | (.error failure, s)  => (.error failure, s)

/-- The type of the items that a tree searches for. -/
def elementType (e : Expr) : DataType :=
  match e.entity? with
  | some entity => .record entity
  | none        => .any

/-- What is left of a tree after its search, evaluated on the results. -/
def complete (lib : Library) (e : Expr) (records : List Record) : Except EvalError Value :=
  (e.bindResults (resultsExpr (records.map Record.toValue) (elementType e))).eval lib

/-- Sends a search: it is put on record, and the server answers it. -/
def send (setup : SessionSetup) (request : SearchRequest) (s : Session) :
    Except String (List Record) × Session :=
  (setup.server.search s.requests.length request, { s with requests := s.requests ++ [request] })

/-- The answer to a query, from the server's answer to its search. -/
def answer (lib : Library) (e : Expr) (request : SearchRequest) :
    Except String (List Record) → Except SessionError Value
  | .error reason => .error (.request request.text reason)
  | .ok records   => (complete lib e records).mapError .results

/-- The answer to a query. -/
def execute (setup : SessionSetup) (e : Expr) (s : Session) :
    Except SessionError Value × Session :=
  match s.prepare setup e with
  | (.error failure, s) => (.error failure, s)
  | (.ok (folded, search), s) =>
    let request := search.request setup.paging
    let (found, s) := s.send setup request
    (answer setup.library folded request found, s)

end Session

end IssueSearch
