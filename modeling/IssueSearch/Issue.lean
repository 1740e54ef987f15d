import IssueSearch.Field.Table

/-! # Issues

    An issue of the tracker, the record that a search returns for it, and the
    table of its searchable fields. -/

namespace IssueSearch

open Calendar (DateTime)

/-- An issue. -/
structure Issue where
  key             : String
  summary         : String
  description     : Option String
  environment     : Option String
  project         : String
  issueType       : String
  status          : String
  priority        : Option String
  resolution      : Option String
  assignee        : Option String
  reporter        : Option String
  created         : Option DateTime
  updated         : Option DateTime
  dueDate         : Option DateTime
  resolutionDate  : Option DateTime
  labels          : List String
  components      : List String
  fixVersions     : List String
  affectsVersions : List String
  votes           : Int64
  watchers        : Int64
  sprint          : Option String

namespace Issue

/-- The project that a key belongs to: what stands before its first dash. -/
def projectOfKey (key : String) : String :=
  let cs := key.toList
  if cs.contains '-' then String.ofList (cs.takeWhile (· != '-')) else ""

/-- An open task without anything else known about it. -/
def ofKey (key summary : String) : Issue :=
  { key := key, summary := summary, description := none, environment := none,
    project := projectOfKey key, issueType := "Task", status := "Open", priority := none,
    resolution := none, assignee := none, reporter := none, created := none, updated := none,
    dueDate := none, resolutionDate := none, labels := [], components := [], fixVersions := [],
    affectsVersions := [], votes := 0, watchers := 0, sprint := none }

/-- A text that may be absent, as a value. -/
def textValue : Option String → Value
  | some s => .str s
  | none   => .null

/-- A date that may be absent, as a value. -/
def dateValue : Option DateTime → Value
  | some d => .date d
  | none   => .null

/-- A list of texts as a value. -/
def listValue (items : List String) : Value :=
  .array (items.map .str)

/-- The record of an issue, shown as its key. -/
def toRecord (i : Issue) : Record where
  typeName := "Issue"
  display  := some i.key
  fields   := sortFields
    [("key", .str i.key), ("summary", .str i.summary), ("description", textValue i.description),
     ("environment", textValue i.environment), ("project", .str i.project),
     ("issue_type", .str i.issueType), ("status", .str i.status),
     ("priority", textValue i.priority), ("resolution", textValue i.resolution),
     ("assignee", textValue i.assignee), ("reporter", textValue i.reporter),
     ("created", dateValue i.created), ("updated", dateValue i.updated),
     ("due_date", dateValue i.dueDate), ("resolution_date", dateValue i.resolutionDate),
     ("labels", listValue i.labels), ("components", listValue i.components),
     ("fix_versions", listValue i.fixVersions),
     ("affects_versions", listValue i.affectsVersions), ("votes", .int i.votes),
     ("watchers", .int i.watchers), ("sprint", textValue i.sprint)]

/-! ## Searchable fields -/

/-- Fields that have an order. -/
def ordered : List Ability := [.comparable, .sortable]

/-- Fields that have an order and whose history is kept. -/
def tracked : List Ability := [.comparable, .sortable, .was, .wasInclude, .changed]

/-- Fields that hold several values. -/
def several : List Ability := [.inclusion, .check]

/-- A row of the table. -/
def row (name remote : String) (abilities : List Ability) (type : DataType) : Property × Field :=
  ({ owner := "Issue", name := name },
   { remoteName := remote, abilities := .ofList abilities, type := type })

/-- The searchable fields of an issue. -/
def fieldTable : FieldTable := .ofList
  [row "key" "key" (ordered ++ [.inclusion]) .any,
   row "project" "project" (ordered ++ [.inclusion]) .any,
   row "issue_type" "issuetype" (ordered ++ [.inclusion]) .any,
   row "summary" "summary" [.contains] .any,
   row "description" "description" [.contains] .any,
   row "environment" "environment" [.contains] .any,
   row "status" "status" tracked .any,
   row "priority" "priority" tracked .any,
   row "resolution" "resolution" tracked .any,
   row "assignee" "assignee" tracked .any,
   row "reporter" "reporter" tracked .any,
   row "created" "created" ordered (.nullable .date),
   row "updated" "updated" ordered (.nullable .date),
   row "due_date" "due" ordered (.nullable .date),
   row "resolution_date" "resolved" ordered (.nullable .date),
   row "labels" "labels" several .any,
   row "components" "component" several .any,
   row "fix_versions" "fixVersion" (several ++ [.was, .changed]) .any,
   row "affects_versions" "affectedVersion" several .any,
   row "votes" "votes" ordered .any,
   row "watchers" "watchers" ordered .any,
   row "sprint" "sprint" several .any]

end Issue

end IssueSearch
