import PageQuery.Binary64.Basic
import PageQuery.Binary64.Shortest
import PageQuery.Builder.Action
import PageQuery.Builder.Assembly
import PageQuery.Builder.Basic
import PageQuery.Builder.Budget
import PageQuery.Builder.Changes
import PageQuery.Builder.Comparison
import PageQuery.Builder.Lock
import PageQuery.Builder.Perform
import PageQuery.Builder.Questions
import PageQuery.Builder.Session
import PageQuery.Concern
import PageQuery.Connection.Arguments
import PageQuery.Connection.Basic
import PageQuery.Connection.Client
import PageQuery.Cursor.Bound
import PageQuery.Cursor.Code
import PageQuery.Error
import PageQuery.Json.Basic
import PageQuery.Json.Number
import PageQuery.Json.Parser
import PageQuery.Json.Printer
import PageQuery.Numeral
import PageQuery.Options
import PageQuery.Page.Plan
import PageQuery.Proofs.Alias.Actions
import PageQuery.Proofs.Alias.Builders
import PageQuery.Proofs.Alias.Capture
import PageQuery.Proofs.Alias.Locking
import PageQuery.Proofs.Alias.Operations
import PageQuery.Proofs.Alias.Renaming
import PageQuery.Proofs.Alias.Sources
import PageQuery.Proofs.Alias.Statements
import PageQuery.Proofs.Alias.Taken
import PageQuery.Proofs.Binary64.Range
import PageQuery.Proofs.Call.Basic
import PageQuery.Proofs.Call.Commute
import PageQuery.Proofs.Call.Compound
import PageQuery.Proofs.Call.Mutator
import PageQuery.Proofs.Call.Part
import PageQuery.Proofs.Call.Registration
import PageQuery.Proofs.Connection.Assembly
import PageQuery.Proofs.Cursor.Code
import PageQuery.Proofs.Cursor.Spelling
import PageQuery.Proofs.Database.Aggregate
import PageQuery.Proofs.Database.Comparator
import PageQuery.Proofs.Database.Order
import PageQuery.Proofs.Database.Reading
import PageQuery.Proofs.Database.Seek
import PageQuery.Proofs.Database.SortKey
import PageQuery.Proofs.Defer.Actions
import PageQuery.Proofs.Defer.Builders
import PageQuery.Proofs.Defer.Locking
import PageQuery.Proofs.Defer.Operations
import PageQuery.Proofs.Defer.Scripts
import PageQuery.Proofs.Defer.Sessions
import PageQuery.Proofs.Draft.Acceptance
import PageQuery.Proofs.Draft.Basic
import PageQuery.Proofs.Draft.Bounds
import PageQuery.Proofs.Draft.Configured
import PageQuery.Proofs.Draft.Confluence
import PageQuery.Proofs.Draft.Connecting
import PageQuery.Proofs.Draft.Cursor
import PageQuery.Proofs.Draft.Locks
import PageQuery.Proofs.Draft.Progress
import PageQuery.Proofs.Draft.Questions
import PageQuery.Proofs.Draft.Setup
import PageQuery.Proofs.Filter.Clause
import PageQuery.Proofs.Filter.Conjunction
import PageQuery.Proofs.Filter.Retention
import PageQuery.Proofs.Json.Regular
import PageQuery.Proofs.Json.RoundTrip
import PageQuery.Proofs.Json.Scalars
import PageQuery.Proofs.Likeness.Builders
import PageQuery.Proofs.Likeness.Fragments
import PageQuery.Proofs.Likeness.Statements
import PageQuery.Proofs.Lock.Barred
import PageQuery.Proofs.Lock.Dependency
import PageQuery.Proofs.Lock.Expected
import PageQuery.Proofs.Lock.Final
import PageQuery.Proofs.Lock.Frozen
import PageQuery.Proofs.Lock.Queue
import PageQuery.Proofs.Lock.Reentry
import PageQuery.Proofs.Lock.Settling
import PageQuery.Proofs.Logic.Assembly
import PageQuery.Proofs.Logic.Operations
import PageQuery.Proofs.Logic.Rules
import PageQuery.Proofs.Logic.Scripts
import PageQuery.Proofs.Mirror.Actions
import PageQuery.Proofs.Mirror.Builders
import PageQuery.Proofs.Mirror.Changes
import PageQuery.Proofs.Mirror.Locking
import PageQuery.Proofs.Mirror.Operations
import PageQuery.Proofs.Mirror.Requests
import PageQuery.Proofs.Mirror.Sessions
import PageQuery.Proofs.Order.TieBreaker
import PageQuery.Proofs.Page.Between
import PageQuery.Proofs.Page.Fetching
import PageQuery.Proofs.Page.Flags
import PageQuery.Proofs.Page.Position
import PageQuery.Proofs.Page.Selection
import PageQuery.Proofs.Run.Change
import PageQuery.Proofs.Run.Contents
import PageQuery.Proofs.Run.Ends
import PageQuery.Proofs.Run.Exec
import PageQuery.Proofs.Run.Finalized
import PageQuery.Proofs.Run.Follow
import PageQuery.Proofs.Run.Locking
import PageQuery.Proofs.Run.Operations
import PageQuery.Proofs.Run.Path
import PageQuery.Proofs.Run.Preserve
import PageQuery.Proofs.Run.Program
import PageQuery.Proofs.Run.Scripts
import PageQuery.Proofs.Run.Session
import PageQuery.Proofs.Run.Settings
import PageQuery.Proofs.Run.Turns
import PageQuery.Proofs.Select.Latest
import PageQuery.Proofs.Select.Registration
import PageQuery.Proofs.Select.Settlement
import PageQuery.Proofs.Sql.Boundary
import PageQuery.Proofs.Sql.Condition
import PageQuery.Proofs.Sql.Constant
import PageQuery.Proofs.Sql.Identifier
import PageQuery.Proofs.Sql.Numbering
import PageQuery.Proofs.Sql.Numerals
import PageQuery.Proofs.Sql.Quotation
import PageQuery.Proofs.Sql.Rendering
import PageQuery.Proofs.Sql.Splice
import PageQuery.Proofs.Sql.Token
import PageQuery.Proofs.Statement.Columns
import PageQuery.Proofs.Statement.RowObject
import PageQuery.Proofs.Text.Base64
import PageQuery.Proofs.Text.Numeral
import PageQuery.Proofs.Text.Truncation
import PageQuery.Proofs.Walk.Listing
import PageQuery.Proofs.Walk.Pages
import PageQuery.Proofs.Walk.Reach
import PageQuery.Proofs.Walk.Request
import PageQuery.Proofs.Work.Actions
import PageQuery.Proofs.Work.Builders
import PageQuery.Proofs.Work.Locking
import PageQuery.Proofs.Work.Operations
import PageQuery.Proofs.Work.Returns
import PageQuery.Proofs.Work.Scripts
import PageQuery.Script.Basic
import PageQuery.Script.Expr
import PageQuery.Script.Weight
import PageQuery.Sql.Compile
import PageQuery.Sql.Literal
import PageQuery.Sql.Node
import PageQuery.Sql.OrderTerm
import PageQuery.Sql.Template
import PageQuery.Statement.Basic
import PageQuery.Statement.RowObject
import PageQuery.Statement.Source
import PageQuery.Text.Base64
import PageQuery.Text.Blank
