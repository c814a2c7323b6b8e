import Sieve.Annotation
import Sieve.Base64
import Sieve.Calendar.Clock
import Sieve.Calendar.Date
import Sieve.Calendar.Iso
import Sieve.Coercion
import Sieve.Config
import Sieve.Config.Placeholder
import Sieve.Config.Tree
import Sieve.Cursor.Boundary
import Sieve.Cursor.Pivot
import Sieve.Cursor.Token
import Sieve.Direction
import Sieve.Error
import Sieve.Event
import Sieve.Exchange.Annotation
import Sieve.Exchange.Filter
import Sieve.Exchange.Predicate
import Sieve.Exchange.Request
import Sieve.Exchange.Schema
import Sieve.Exchange.Value
import Sieve.Field
import Sieve.Filter
import Sieve.Filter.Draft
import Sieve.Insertion
import Sieve.Intake
import Sieve.Intake.Paths
import Sieve.Json
import Sieve.Json.Access
import Sieve.Json.Ascii
import Sieve.Like
import Sieve.Logging
import Sieve.Logging.Severity
import Sieve.Memory
import Sieve.Meta
import Sieve.Number.Binary64
import Sieve.Number.Binary64.Arithmetic
import Sieve.Number.Decimal.Arithmetic
import Sieve.Number.Decimal
import Sieve.Number.Numeral
import Sieve.Number.Power
import Sieve.Operator
import Sieve.Options
import Sieve.Page
import Sieve.Params
import Sieve.Plan.Basic
import Sieve.Plan.Compile
import Sieve.Predicate
import Sieve.Properties
import Sieve.Query
import Sieve.Request
import Sieve.Request.Navigation
import Sieve.Scatter
import Sieve.Schema
import Sieve.Selection
import Sieve.SortOrder
import Sieve.Sql.Condition
import Sieve.Sql.Fragment
import Sieve.Sql.Select
import Sieve.StorageType
import Sieve.Strategy
import Sieve.Text.Blank
import Sieve.Text.Case
import Sieve.Text.Digit
import Sieve.Text.Fold
import Sieve.Text.Printable
import Sieve.Text.Quoted
import Sieve.Truth
import Sieve.Uuid
import Sieve.Validation
import Sieve.Validation.Checking
import Sieve.Validation.Filters
import Sieve.Validation.Order
import Sieve.Validation.Pagination
import Sieve.Validation.Parsing
import Sieve.Value
import Sieve.Value.Arithmetic
import Sieve.Value.Attribute
import Sieve.Value.Identity
import Sieve.Value.Items
import Sieve.Value.Order
import Sieve.Proofs.Outcome
import Sieve.Proofs.Sorting
import Sieve.Proofs.Number.DecimalText
import Sieve.Proofs.Number.Rounding
import Sieve.Proofs.Number.Shortest
import Sieve.Proofs.Json.Number
import Sieve.Proofs.Json.RoundTrip
import Sieve.Proofs.Base64
import Sieve.Proofs.Blank
import Sieve.Proofs.Calendar
import Sieve.Proofs.Cursor.Boundary
import Sieve.Proofs.Cursor.Tags
import Sieve.Proofs.Cursor.RoundTrip
import Sieve.Proofs.Observation.Lockstep
import Sieve.Proofs.Schema.Members
import Sieve.Proofs.Filter.Compiling
import Sieve.Proofs.Filter.Edits
import Sieve.Proofs.Validation.Checking
import Sieve.Proofs.Validation.Parsing
import Sieve.Proofs.Filter.Reading
import Sieve.Proofs.Validation.Forest
import Sieve.Proofs.Validation.Declared
import Sieve.Proofs.Observation.Exposed
import Sieve.Proofs.Observation.Compiled
import Sieve.Proofs.Observation.Noninterference
import Sieve.Proofs.Schema.Composites
import Sieve.Proofs.Keyset.Ranking
import Sieve.Proofs.Keyset.Fetch
import Sieve.Proofs.Keyset.Page
import Sieve.Proofs.Keyset.Fields
import Sieve.Proofs.Keyset.Window
import Sieve.Proofs.Number.DecimalOrder
import Sieve.Proofs.Ordinal
import Sieve.Proofs.Value.Comparing
import Sieve.Proofs.Value.Kinds
import Sieve.Proofs.Value.Numbers
import Sieve.Proofs.Value.Reflexive
import Sieve.Proofs.Keyset.Nulls
import Sieve.Proofs.Keyset.OwnCursor
import Sieve.Proofs.Validation.Strict
import Sieve.Proofs.Validation.Lossless
import Sieve.Proofs.Validation.Paginated
import Sieve.Proofs.Validation.Failures
import Sieve.Proofs.Validation.WellFormed
import Sieve.Proofs.Keyset.Visit
import Sieve.Proofs.Keyset.Walk
import Sieve.Proofs.Number.Quotient
import Sieve.Proofs.Paging.Arrangement
import Sieve.Proofs.Paging.Page
import Sieve.Proofs.Paging.Walk
import Sieve.Proofs.Validation.Lenient
import Sieve.Proofs.Validation.Ordering
import Sieve.Proofs.Validation.Replacing
import Sieve.Proofs.Validation.Limits
import Sieve.Proofs.Request.Navigation
import Sieve.Proofs.Request.Steps
import Sieve.Proofs.Validation.Tokens
import Sieve.Proofs.Plan.Ready
import Sieve.Proofs.Plan.Compiles
import Sieve.Proofs.Keyset.Sides
import Sieve.Proofs.Value.Spelling
import Sieve.Proofs.Value.Stored
import Sieve.Proofs.Filter.Settled
import Sieve.Proofs.Validation.Reread
import Sieve.Proofs.Validation.Settled
import Sieve.Proofs.Validation.Continued
import Sieve.Proofs.Keyset.Echo
import Sieve.Proofs.Evaluation.Held
import Sieve.Proofs.Evaluation.Operators
import Sieve.Proofs.Evaluation.Conditions
import Sieve.Proofs.Evaluation.Requests
import Sieve.Proofs.Paging.Sorted
import Sieve.Proofs.Paging.Backward
import Sieve.Proofs.Filter.Ignored
import Sieve.Proofs.Like
import Sieve.Proofs.Evaluation.Search
import Sieve.Proofs.Evaluation.Members
import Sieve.Proofs.Evaluation.Emptiness
import Sieve.Proofs.Evaluation.Composites
import Sieve.Proofs.Evaluation.Kleene
import Sieve.Proofs.Paging.Neighbours
import Sieve.Proofs.Paging.Counting
import Sieve.Proofs.Keyset.Onward
import Sieve.Proofs.Keyset.Lookahead
import Sieve.Proofs.Request.Pushing
import Sieve.Proofs.Options
import Sieve.Proofs.Config.Binding
import Sieve.Proofs.Config.Merging
import Sieve.Proofs.Logging.Configuring
