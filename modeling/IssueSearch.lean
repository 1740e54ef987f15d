import IssueSearch.Calendar.DateTime
import IssueSearch.Calendar.Day
import IssueSearch.Calendar.Text
import IssueSearch.Command.Arguments
import IssueSearch.Command.Run
import IssueSearch.Data.DataType
import IssueSearch.Data.Json
import IssueSearch.Data.Order
import IssueSearch.Data.Value
import IssueSearch.Eval.Arithmetic
import IssueSearch.Eval.Error
import IssueSearch.Eval.Fold
import IssueSearch.Eval.Library
import IssueSearch.Eval.Meaning
import IssueSearch.Eval.Sequence
import IssueSearch.Eval.Standard
import IssueSearch.Expr.Basic
import IssueSearch.Expr.Build
import IssueSearch.Expr.Chain
import IssueSearch.Expr.Json
import IssueSearch.Field.Abilities
import IssueSearch.Field.Resolve
import IssueSearch.Field.Table
import IssueSearch.Issue
import IssueSearch.Issue.Json
import IssueSearch.Json.Basic
import IssueSearch.Json.Decode
import IssueSearch.Json.Reader
import IssueSearch.Json.Writer
import IssueSearch.Main
import IssueSearch.Method.Operator
import IssueSearch.Method.Remote
import IssueSearch.Method.Role
import IssueSearch.Number.Binary64
import IssueSearch.Number.Decimal
import IssueSearch.Number.Integer
import IssueSearch.Proofs.Agreement
import IssueSearch.Proofs.Binding
import IssueSearch.Proofs.Brackets
import IssueSearch.Proofs.CallStyles
import IssueSearch.Proofs.Causes
import IssueSearch.Proofs.Chains
import IssueSearch.Proofs.Closed
import IssueSearch.Proofs.Commas
import IssueSearch.Proofs.Composition
import IssueSearch.Proofs.Concurrence
import IssueSearch.Proofs.Congruence
import IssueSearch.Proofs.Dates
import IssueSearch.Proofs.DayMoves
import IssueSearch.Proofs.Distinct
import IssueSearch.Proofs.Emission
import IssueSearch.Proofs.Equality
import IssueSearch.Proofs.Execution
import IssueSearch.Proofs.Failures
import IssueSearch.Proofs.FoldedForms
import IssueSearch.Proofs.FoldedSearch
import IssueSearch.Proofs.Folding
import IssueSearch.Proofs.Forms
import IssueSearch.Proofs.Hoisting
import IssueSearch.Proofs.JsonText
import IssueSearch.Proofs.Lists
import IssueSearch.Proofs.LocalValues
import IssueSearch.Proofs.Narrowing
import IssueSearch.Proofs.Orderings
import IssueSearch.Proofs.Paging
import IssueSearch.Proofs.Parts
import IssueSearch.Proofs.Phrases
import IssueSearch.Proofs.Preorder
import IssueSearch.Proofs.Quoting
import IssueSearch.Proofs.Readable
import IssueSearch.Proofs.Replacement
import IssueSearch.Proofs.Scopes
import IssueSearch.Proofs.Sequences
import IssueSearch.Proofs.SessionRuns
import IssueSearch.Proofs.Sorting
import IssueSearch.Proofs.Tokens
import IssueSearch.Proofs.Transcripts
import IssueSearch.Proofs.TreeJson
import IssueSearch.Proofs.ValueJson
import IssueSearch.Proofs.WholeNumbers
import IssueSearch.Report
import IssueSearch.Search.Bind
import IssueSearch.Search.Compile
import IssueSearch.Search.Draft
import IssueSearch.Search.Error
import IssueSearch.Search.Literal
import IssueSearch.Session
import IssueSearch.Settings
import IssueSearch.Text.Blank
import IssueSearch.Text.Case
import IssueSearch.Text.CaseTable
import IssueSearch.Toml.Basic
import IssueSearch.Toml.Reader
