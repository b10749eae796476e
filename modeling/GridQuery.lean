import GridQuery.Calendar.Date
import GridQuery.Calendar.Granularity
import GridQuery.Calendar.Instant
import GridQuery.Calendar.Rfc3339
import GridQuery.Column
import GridQuery.Data
import GridQuery.Data.Json
import GridQuery.Data.Toml.Document
import GridQuery.Data.Toml.Number
import GridQuery.Data.Toml.Table
import GridQuery.Data.Toml.Token
import GridQuery.Event
import GridQuery.Number.Binary64
import GridQuery.Number.Decimal
import GridQuery.Number.Powers
import GridQuery.Number.Reading
import GridQuery.Number.Shortest
import GridQuery.Number.Width
import GridQuery.Operator
import GridQuery.Paging.Limits
import GridQuery.Paging.Page
import GridQuery.Paging.Pager
import GridQuery.Paging.RowOrder
import GridQuery.Paging.Source
import GridQuery.Predicate
import GridQuery.Predicate.FieldRef
import GridQuery.Predicate.LikePattern
import GridQuery.Predicate.Operand
import GridQuery.QueryError
import GridQuery.Record
import GridQuery.Request
import GridQuery.Rule
import GridQuery.Rule.Compilation
import GridQuery.Schema.FieldType
import GridQuery.Schema.Kind
import GridQuery.Schema.Resolution
import GridQuery.Schema.SchemaError
import GridQuery.Settings
import GridQuery.Settings.CompileOptions
import GridQuery.Settings.Environment
import GridQuery.Settings.File
import GridQuery.Settings.Form
import GridQuery.Settings.Logging
import GridQuery.Text.Numeral
import GridQuery.Text.Pieces
import GridQuery.Value
import GridQuery.Value.Coercion
import GridQuery.Value.Entry
import GridQuery.Wire.Grid
import GridQuery.Wire.Record
import GridQuery.Wire.Value
import GridQuery.Proofs.Coercion
import GridQuery.Proofs.Compilation
import GridQuery.Proofs.Conjunction
import GridQuery.Proofs.Execution
import GridQuery.Proofs.Editing
import GridQuery.Proofs.Order
import GridQuery.Proofs.Meaning
import GridQuery.Proofs.Partition
import GridQuery.Proofs.Chains
import GridQuery.Proofs.Conformity
import GridQuery.Proofs.Pattern
import GridQuery.Proofs.Clause
import GridQuery.Proofs.Selection
import GridQuery.Proofs.MinuteSplit
import GridQuery.Proofs.Numerals
import GridQuery.Proofs.MemberEntry
import GridQuery.Proofs.Interpolation
import GridQuery.Proofs.Sorting
import GridQuery.Proofs.SortedFilter
import GridQuery.Proofs.Splitting
import GridQuery.Proofs.Expression
import GridQuery.Proofs.TextSearch
import GridQuery.Proofs.Doubles
import GridQuery.Proofs.WholeCoercion
import GridQuery.Proofs.DecimalDouble
import GridQuery.Proofs.DoubleDecimal
import GridQuery.Proofs.LosslessCoercion
import GridQuery.Proofs.Footer
import GridQuery.Proofs.CellOrder
import GridQuery.Proofs.StableSort
import GridQuery.Proofs.WrittenNumbers
import GridQuery.Proofs.ShortestText
import GridQuery.Proofs.ClockText
import GridQuery.Proofs.Chip
import GridQuery.Proofs.Placeholders
import GridQuery.Proofs.Inlining
import GridQuery.Proofs.Rebinding
import GridQuery.Proofs.SolidText
import GridQuery.Proofs.ClockGrammar
import GridQuery.Proofs.DecimalText
import GridQuery.Proofs.Timestamp
import GridQuery.Proofs.TypedText
import GridQuery.Proofs.Overriding
import GridQuery.Proofs.ChipParts
import GridQuery.Proofs.Projection
import GridQuery.Proofs.ExactComparison
import GridQuery.Proofs.WireClock
import GridQuery.Proofs.Fields
import GridQuery.Proofs.WireValues
import GridQuery.Proofs.WireRoundTrip
