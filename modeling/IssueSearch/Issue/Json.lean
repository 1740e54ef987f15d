import IssueSearch.Data.Json
import IssueSearch.Issue

/-! # Issues as JSON

    An issue is an object with a member for each of its parts.  Key, summary,
    project, type and status have to be there; a text or date that is absent
    may be `null` or left out, and lists and counts may be left out. -/

namespace IssueSearch.Issue

open Calendar (DateTime)

/-- A text that may be absent. -/
def textJson : Option String → Json
  | some s => .str s
  | none   => .null

/-- A date that may be absent. -/
def dateJson : Option DateTime → Json
  | some d => .str d.interchange
  | none   => .null

/-- A list of texts. -/
def listJson (items : List String) : Json :=
  .arr (items.map .str)

/-- The JSON form of an issue, with every member. -/
def toJson (i : Issue) : Json := .obj
  [("key", .str i.key), ("summary", .str i.summary), ("description", textJson i.description),
   ("environment", textJson i.environment), ("project", .str i.project),
   ("issue_type", .str i.issueType), ("status", .str i.status),
   ("priority", textJson i.priority), ("resolution", textJson i.resolution),
   ("assignee", textJson i.assignee), ("reporter", textJson i.reporter),
   ("created", dateJson i.created), ("updated", dateJson i.updated),
   ("due_date", dateJson i.dueDate), ("resolution_date", dateJson i.resolutionDate),
   ("labels", listJson i.labels), ("components", listJson i.components),
   ("fix_versions", listJson i.fixVersions), ("affects_versions", listJson i.affectsVersions),
   ("votes", .int i.votes.toInt), ("watchers", .int i.watchers.toInt),
   ("sprint", textJson i.sprint)]

/-- Reads an issue. -/
def ofJson (j : Json) : Decoded Issue := do
  let members ← j.asObj
  let required (key : String) : Decoded String := do (← Decoded.member key members).asStr
  let text (key : String) : Decoded (Option String) :=
    Decoded.memberOr key none (Json.asOption Json.asStr) members
  let date (key : String) : Decoded (Option DateTime) :=
    Decoded.memberOr key none (Json.asOption DateTime.ofJson) members
  let list (key : String) : Decoded (List String) :=
    Decoded.memberOr key [] Json.asStrs members
  let count (key : String) : Decoded Int64 := Decoded.memberOr key 0 Json.asInt64 members
  .ok
    { key := ← required "key", summary := ← required "summary",
      description := ← text "description", environment := ← text "environment",
      project := ← required "project", issueType := ← required "issue_type",
      status := ← required "status", priority := ← text "priority",
      resolution := ← text "resolution", assignee := ← text "assignee",
      reporter := ← text "reporter", created := ← date "created", updated := ← date "updated",
      dueDate := ← date "due_date", resolutionDate := ← date "resolution_date",
      labels := ← list "labels", components := ← list "components",
      fixVersions := ← list "fix_versions", affectsVersions := ← list "affects_versions",
      votes := ← count "votes", watchers := ← count "watchers", sprint := ← text "sprint" }

end IssueSearch.Issue
