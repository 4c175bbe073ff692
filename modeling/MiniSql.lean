import MiniSql.Client
import MiniSql.Client.Cursor
import MiniSql.Database
import MiniSql.Error
import MiniSql.Grammar.Keyword
import MiniSql.Grammar.Parser
import MiniSql.Grammar.Predicate
import MiniSql.Grammar.Quoted
import MiniSql.Grammar.Statement
import MiniSql.Grammar.Token
import MiniSql.Grammar.Token.Scan
import MiniSql.Grammar.Tree
import MiniSql.Grammar.Tree.Render
import MiniSql.Mutation
import MiniSql.Number.Binary64
import MiniSql.Number.Decimal
import MiniSql.Number.Integer
import MiniSql.Number.Rounding
import MiniSql.Options
import MiniSql.Plan
import MiniSql.Plan.Arguments
import MiniSql.Plan.Expression
import MiniSql.Plan.OfTree
import MiniSql.Proofs.Grammar.Completeness
import MiniSql.Proofs.Grammar.Completeness.Follow
import MiniSql.Proofs.Grammar.Completeness.Predicates
import MiniSql.Proofs.Grammar.Completeness.Queries
import MiniSql.Proofs.Grammar.Lexes
import MiniSql.Proofs.Grammar.Reads
import MiniSql.Proofs.Grammar.RoundTrip
import MiniSql.Proofs.Grammar.RoundTrip.Predicates
import MiniSql.Proofs.Grammar.RoundTrip.Queries
import MiniSql.Proofs.Grammar.Scan
import MiniSql.Proofs.Grammar.Soundness
import MiniSql.Proofs.Grammar.Soundness.Predicates
import MiniSql.Proofs.Grammar.Soundness.Queries
import MiniSql.Proofs.Grammar.Spells
import MiniSql.Proofs.Plan.Shape
import MiniSql.Proofs.Session.Atomicity
import MiniSql.Proofs.Session.Invariants
import MiniSql.Proofs.Session.Step
import MiniSql.Proofs.Store.Change
import MiniSql.Proofs.Store.Keys
import MiniSql.Proofs.Store.WellTyped
import MiniSql.Proofs.Timed
import MiniSql.Proofs.Value.Same
import MiniSql.Query.Aggregate
import MiniSql.Query.Join
import MiniSql.Query.Projection
import MiniSql.Query.Rowset
import MiniSql.Query.Run
import MiniSql.Query.Sort
import MiniSql.Reference
import MiniSql.Reference.Resolve
import MiniSql.Schema
import MiniSql.Session
import MiniSql.Store.Catalog
import MiniSql.Store.Relation
import MiniSql.Store.SortedMap
import MiniSql.Text.Blank
import MiniSql.Text.Case
import MiniSql.Text.CaseTable
import MiniSql.Text.Letter
import MiniSql.Text.Range
import MiniSql.Time.Calendar
import MiniSql.Time.Clock
import MiniSql.Time.Instant
import MiniSql.Time.Read
import MiniSql.Timed
import MiniSql.Value
import MiniSql.Value.Coerce
import MiniSql.Value.Order
import MiniSql.Proofs.Internal
import MiniSql.Proofs.Plan.Accepted
import MiniSql.Proofs.Query.Width
import MiniSql.Proofs.Store.Locks
import MiniSql.Proofs.Store.Writes
import MiniSql.Proofs.Plan.Paged
import MiniSql.Proofs.Plan.Placeholders
import MiniSql.Proofs.Plan.Positions
import MiniSql.Proofs.Session.Internal
import MiniSql.Proofs.Number.Decimal
import MiniSql.Proofs.Plan.Fill
import MiniSql.Proofs.Plan.Binding
import MiniSql.Proofs.Store.Rows
import MiniSql.Proofs.Store.Draws
import MiniSql.Proofs.Store.Numbers
import MiniSql.Proofs.Session.Numbers
import MiniSql.Proofs.Query.Matching
import MiniSql.Proofs.Plan.Filtered
import MiniSql.Proofs.Session.Agreement
import MiniSql.Store.RowKey
import MiniSql.Proofs.Store.KeyedRows
import MiniSql.Proofs.Store.Log
import MiniSql.Proofs.Session.Frame
import MiniSql.Proofs.Steady
import MiniSql.Proofs.Store.Stamps
import MiniSql.Proofs.Session.Stamps
import MiniSql.Proofs.Client.Isolation
import MiniSql.Proofs.Store.Cells
import MiniSql.Proofs.Store.Completed
import MiniSql.Proofs.Store.Insert
import MiniSql.Proofs.Store.Update
import MiniSql.Proofs.Reference.Labels
import MiniSql.Proofs.Reference.Resolve
import MiniSql.Proofs.Query.Parts
import MiniSql.Proofs.Query.Stars
import MiniSql.Proofs.Plan.Select
import MiniSql.Proofs.Session.Stars
import MiniSql.Proofs.Plan.Comparison
import MiniSql.Proofs.Grammar.Precedence
import MiniSql.Proofs.Value.SortOrder
import MiniSql.Proofs.Plan.Sorted
import MiniSql.Proofs.Query.Sorted
import MiniSql.Proofs.Session.Sorted
import MiniSql.Proofs.Query.Join
import MiniSql.Proofs.Plan.Joined
import MiniSql.Proofs.Query.OuterJoin
import MiniSql.Proofs.Session.Joined
import MiniSql.Proofs.Grammar.Aspect
import MiniSql.Proofs.Grammar.Clauses
import MiniSql.Proofs.Plan.ClauseOrder
import MiniSql.Proofs.Grammar.OneWhere
import MiniSql.Proofs.Concur
import MiniSql.Proofs.Plan.Rearranged
import MiniSql.Proofs.Store.Assignments
import MiniSql.Proofs.Session.Assignments
import MiniSql.Proofs.Store.Batch
import MiniSql.Proofs.Plan.Insert
import MiniSql.Proofs.Session.Batch
import MiniSql.Proofs.Store.Align
import MiniSql.Proofs.Store.Forms
import MiniSql.Proofs.Session.Forms
import MiniSql.Proofs.Grammar.AddedWhere
import MiniSql.Proofs.Plan.Refiltered
import MiniSql.Proofs.Session.AllRows
import MiniSql.Proofs.Query.Sum
import MiniSql.Proofs.Session.Again
import MiniSql.Proofs.Store.Again
import MiniSql.Proofs.Query.Timeless
import MiniSql.Proofs.Query.Count
import MiniSql.Proofs.Plan.Conditioned
import MiniSql.Proofs.Session.Counts
import MiniSql.Proofs.Query.Extreme
import MiniSql.Proofs.Session.Extremes
import MiniSql.Proofs.Text.Bytes
import MiniSql.Proofs.Refused
import MiniSql.Proofs.Query.Refused
import MiniSql.Proofs.Store.Refused
import MiniSql.Proofs.Session.Refused
import MiniSql.Proofs.Session.MissingTables
import MiniSql.Proofs.Plan.Replaced
import MiniSql.Proofs.Plan.Checked
import MiniSql.Proofs.Session.Pages
import MiniSql.Proofs.Session.Parameters
import MiniSql.Proofs.Query.Reaches
import MiniSql.Proofs.Reference.Scope
import MiniSql.Proofs.Query.Names
import MiniSql.Proofs.Plan.Shown
import MiniSql.Proofs.Store.Names
import MiniSql.Proofs.Session.Names
import MiniSql.Proofs.Grammar.Gaps
import MiniSql.Proofs.Grammar.Slices
import MiniSql.Proofs.Grammar.Located
import MiniSql.Proofs.Text.SameLetters
import MiniSql.Proofs.Grammar.Respelled
import MiniSql.Proofs.Time.Calendar
import MiniSql.Proofs.Time.RoundTrip
import MiniSql.Proofs.Grammar.Quoting
import MiniSql.Store.Record
import MiniSql.Proofs.Store.Record
import MiniSql.Proofs.Store.RoundTrips
import MiniSql.Proofs.Session.Reached
