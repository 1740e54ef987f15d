/-! # Functions of the search server

    Functions that only the server can compute, such as the current user or
    the start of the week.  In a query tree they are calls of remote methods;
    the search language spells their names in its own way. -/

namespace IssueSearch.Remote

/-- The remote method that names a field by its title. -/
def customField : String := "custom_field"

/-- The server functions without an argument, by method name and by the
    server's name. -/
def plainFunctions : List (String × String) :=
  [("current_user", "currentUser"), ("now", "now"), ("current_login", "currentLogin"),
   ("last_login", "lastLogin"), ("start_of_day", "startOfDay"), ("start_of_week", "startOfWeek"),
   ("start_of_month", "startOfMonth"), ("start_of_year", "startOfYear"),
   ("end_of_day", "endOfDay"), ("end_of_week", "endOfWeek"), ("end_of_month", "endOfMonth"),
   ("end_of_year", "endOfYear"), ("open_sprints", "openSprints"),
   ("closed_sprints", "closedSprints"), ("future_sprints", "futureSprints"),
   ("issue_history", "issueHistory"), ("watched_issues", "watchedIssues"),
   ("voted_issues", "votedIssues")]

/-- The server functions of one argument, by method name and by the server's
    name. -/
def unaryFunctions : List (String × String) :=
  [("members_of", "membersOf"), ("released_versions", "releasedVersions"),
   ("unreleased_versions", "unreleasedVersions"),
   ("latest_released_version", "latestReleasedVersion"),
   ("earliest_unreleased_version", "earliestUnreleasedVersion"),
   ("linked_issues", "linkedIssues"), ("components_lead_by_user", "componentsLeadByUser"),
   ("projects_lead_by_user", "projectsLeadByUser")]

/-- The server's name of a function, if the function is known. -/
def serverName? (name : String) : Option String :=
  (plainFunctions ++ unaryFunctions).lookup name

/-- The name written into the search text: the server's, or else the method's
    own. -/
def writtenName (name : String) : String :=
  (serverName? name).getD name

end IssueSearch.Remote
