import FieldQuery.Assembly
import FieldQuery.Binary64
import FieldQuery.BindValue
import FieldQuery.Cache.Backend
import FieldQuery.Cache.Basic
import FieldQuery.Cache.Memory
import FieldQuery.Cache.Observed
import FieldQuery.Cache.Registry
import FieldQuery.Calendar
import FieldQuery.ColumnMap
import FieldQuery.Connection.Address
import FieldQuery.Connection.Pool
import FieldQuery.Connection.Settings
import FieldQuery.Connection.Written
import FieldQuery.Database
import FieldQuery.Decimal.Shortest
import FieldQuery.Declaration.Basic
import FieldQuery.Declaration.Expansion
import FieldQuery.Declaration.FieldType
import FieldQuery.Declaration.Generated
import FieldQuery.Declaration.Source.Expression
import FieldQuery.Declaration.Source.Grammar
import FieldQuery.Declaration.Source.Item
import FieldQuery.Declaration.Source.Path
import FieldQuery.Declaration.Source.Pattern
import FieldQuery.Declaration.Source.Reader
import FieldQuery.Declaration.Source.Token
import FieldQuery.Declaration.Source.Tree
import FieldQuery.Declaration.Source.Type
import FieldQuery.Dialect
import FieldQuery.Error
import FieldQuery.Event
import FieldQuery.Executor.Basic
import FieldQuery.Executor.Canned
import FieldQuery.Filter
import FieldQuery.Hash.Blake3
import FieldQuery.Json.Access
import FieldQuery.Json.Basic
import FieldQuery.Json.Document
import FieldQuery.Json.Lexeme
import FieldQuery.Json.Number
import FieldQuery.Json.Path
import FieldQuery.Json.Printer
import FieldQuery.Numbering
import FieldQuery.Plan.Basic
import FieldQuery.Plan.Build
import FieldQuery.Plan.Compile
import FieldQuery.Plan.Mapping
import FieldQuery.Plan.Stage
import FieldQuery.Record
import FieldQuery.Reference
import FieldQuery.Script.Call
import FieldQuery.Script.ColumnMap
import FieldQuery.Script.Declaration
import FieldQuery.Script.Dialect
import FieldQuery.Script.Error
import FieldQuery.Script.Event
import FieldQuery.Script.Filter
import FieldQuery.Script.Reply
import FieldQuery.Script.Scope
import FieldQuery.Script.Table
import FieldQuery.Script.Value
import FieldQuery.Statement
import FieldQuery.Table
import FieldQuery.Text.Bytes
import FieldQuery.Text.CharSet
import FieldQuery.Text.LetterCase
import FieldQuery.Text.Percent
import FieldQuery.Text.Printable
import FieldQuery.Text.Quoted
import FieldQuery.Text.Shorten
import FieldQuery.Text.SnakeCase
import FieldQuery.Text.WhiteSpace
import FieldQuery.Wire.Reply
import FieldQuery.Wire.TypeName
import FieldQuery.Wire.Value
import FieldQuery.Proofs.Distinct
import FieldQuery.Proofs.Cache.Registry
import FieldQuery.Proofs.Cache.Memory
import FieldQuery.Proofs.Cache.Pending
import FieldQuery.Proofs.Cache.Invalidation
import FieldQuery.Proofs.Cache.Loss
import FieldQuery.Proofs.Cache.Outage
import FieldQuery.Proofs.Cache.Provenance
import FieldQuery.Proofs.Cache.Restart
import FieldQuery.Proofs.Database.Registrations
import FieldQuery.Proofs.Database.Requests
import FieldQuery.Proofs.Database.Outage
import FieldQuery.Proofs.Database.Staleness
import FieldQuery.Proofs.Database.Traffic
import FieldQuery.Proofs.Plan.Sources
import FieldQuery.Proofs.Plan.Growth
import FieldQuery.Proofs.Plan.Calls
import FieldQuery.Proofs.Plan.Touched
import FieldQuery.Proofs.Plan.Marks
import FieldQuery.Proofs.Plan.LiteralText
import FieldQuery.Proofs.Plan.Literals
import FieldQuery.Proofs.Condition.Reading
import FieldQuery.Proofs.Condition.Text
import FieldQuery.Proofs.Condition.Layout
import FieldQuery.Proofs.Condition.Leaves
import FieldQuery.Proofs.Condition.Meaning
import FieldQuery.Proofs.Condition.Clauses
import FieldQuery.Proofs.Plan.Columns
import FieldQuery.Proofs.Plan.Continuation
import FieldQuery.Proofs.Plan.WriteTargets
import FieldQuery.Proofs.Database.Refusals
import FieldQuery.Proofs.Reference.Tokens
import FieldQuery.Proofs.Reference.Forest
import FieldQuery.Proofs.Reference.Spelling
import FieldQuery.Proofs.Plan.Entries
import FieldQuery.Proofs.Plan.Links
import FieldQuery.Proofs.Plan.Aliases
import FieldQuery.Proofs.Plan.Selection
import FieldQuery.Proofs.Plan.JoinOrder
import FieldQuery.Proofs.Plan.Segments
import FieldQuery.Proofs.Plan.SegmentText
import FieldQuery.Proofs.Plan.Notes
import FieldQuery.Proofs.Plan.Correlations
import FieldQuery.Proofs.Plan.Chains
import FieldQuery.Proofs.Dialect.Quoting
import FieldQuery.Proofs.Plan.SourceNames
import FieldQuery.Proofs.Plan.DerivedTables
import FieldQuery.Proofs.Plan.Shadowing
import FieldQuery.Proofs.Plan.Wrapping
import FieldQuery.Proofs.Plan.Failures
import FieldQuery.Proofs.Plan.Stages
import FieldQuery.Proofs.Cache.Renderings
import FieldQuery.Proofs.Database.Keys
import FieldQuery.Proofs.Plan.Destinations
import FieldQuery.Proofs.Condition.Renaming
import FieldQuery.Proofs.Plan.Renaming
import FieldQuery.Proofs.Plan.RenamedCalls
import FieldQuery.Proofs.Reference.Naming
import FieldQuery.Proofs.Reference.Hosting
import FieldQuery.Proofs.Plan.Programs
import FieldQuery.Proofs.Plan.Rebuilding
import FieldQuery.Proofs.Json.Lexemes
import FieldQuery.Proofs.Json.Documents
import FieldQuery.Proofs.Json.Rows
import FieldQuery.Proofs.Cache.Recency
import FieldQuery.Proofs.Database.Hits
import FieldQuery.Proofs.Json.Equality
import FieldQuery.Proofs.Json.Paths
import FieldQuery.Proofs.Decoding.Merging
import FieldQuery.Proofs.Decoding.Groups
import FieldQuery.Proofs.Decoding.Repeats
import FieldQuery.Proofs.Decoding.Keys
import FieldQuery.Proofs.Decoding.Lists
import FieldQuery.Proofs.Rows.Joins
import FieldQuery.Proofs.Rows.Matches
import FieldQuery.Proofs.Plan.Resolution
import FieldQuery.Proofs.Plan.LazyJoins
import FieldQuery.Proofs.Decoding.Writes
import FieldQuery.Proofs.Decoding.Overlays
import FieldQuery.Proofs.Decoding.OverlaidRows
import FieldQuery.Proofs.Decoding.LazyColumns
import FieldQuery.Proofs.Cache.LastUse
import FieldQuery.Proofs.Cache.Standing
import FieldQuery.Proofs.Plan.SourceAliases
import FieldQuery.Proofs.Reference.Identity
import FieldQuery.Proofs.Condition.Demands
import FieldQuery.Proofs.Plan.OrderTerms
import FieldQuery.Proofs.Plan.Blanks
import FieldQuery.Proofs.Plan.Acceptance
import FieldQuery.Proofs.Declaration.Attributes
import FieldQuery.Proofs.Declaration.Fields
import FieldQuery.Proofs.Declaration.Agreement
import FieldQuery.Proofs.Text.Shortening
