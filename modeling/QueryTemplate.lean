import QueryTemplate.Alias
import QueryTemplate.Bindings
import QueryTemplate.CommandLine.Options
import QueryTemplate.CommandLine.Report
import QueryTemplate.CommandLine.Run
import QueryTemplate.CommandLine.Shell
import QueryTemplate.Criteria
import QueryTemplate.Definition
import QueryTemplate.Document
import QueryTemplate.Error
import QueryTemplate.Filter.Basic
import QueryTemplate.Filter.Json
import QueryTemplate.Filter.Parse
import QueryTemplate.Filter.Predicate
import QueryTemplate.Filter.Token
import QueryTemplate.Json.Basic
import QueryTemplate.Json.Number
import QueryTemplate.Json.Reader
import QueryTemplate.Main
import QueryTemplate.Number.Binary64
import QueryTemplate.Number.Decimal
import QueryTemplate.Number.Shortest
import QueryTemplate.PreparedQuery
import QueryTemplate.SortKey
import QueryTemplate.Sql.DataType
import QueryTemplate.Sql.Expression
import QueryTemplate.Sql.Keyword
import QueryTemplate.Sql.Query
import QueryTemplate.Sql.Reader
import QueryTemplate.Sql.Statement
import QueryTemplate.Sql.Syntax
import QueryTemplate.Sql.Token
import QueryTemplate.Template
import QueryTemplate.Text.Alphabetic
import QueryTemplate.Text.Basic
import QueryTemplate.Text.CharClass
import QueryTemplate.Text.Numeric
import QueryTemplate.Value
import QueryTemplate.ValueType
import QueryTemplate.Proofs.Except
import QueryTemplate.Proofs.Grammar
import QueryTemplate.Proofs.Reading.Condition
import QueryTemplate.Proofs.Layout
import QueryTemplate.Proofs.Statement
import QueryTemplate.Proofs.Placeholders
import QueryTemplate.Proofs.Skeleton
import QueryTemplate.Proofs.Lexing
import QueryTemplate.Proofs.RoundTrip
import QueryTemplate.Proofs.FirstFailure
import QueryTemplate.Proofs.Resolution
import QueryTemplate.Proofs.Reading.Rejection
import QueryTemplate.Proofs.Reading.Position
import QueryTemplate.Proofs.Sql.Lexing
import QueryTemplate.Proofs.Sql.Brackets
import QueryTemplate.Proofs.Sql.Precedence
import QueryTemplate.Proofs.WholeOperands
import QueryTemplate.Proofs.Inlining
import QueryTemplate.Proofs.Counting
import QueryTemplate.Proofs.Sql.Texts
import QueryTemplate.Proofs.Sql.Texts.Expression
import QueryTemplate.Proofs.Sql.Texts.Query
import QueryTemplate.Proofs.Sql.Fronts
import QueryTemplate.Proofs.Sql.Selections
import QueryTemplate.Proofs.Template
import QueryTemplate.Proofs.TemplatePlaceholders
import QueryTemplate.Proofs.Sql.SelectList
import QueryTemplate.Proofs.ColumnNames
import QueryTemplate.Proofs.Building
import QueryTemplate.Proofs.ParameterNames
import QueryTemplate.Proofs.Juxtaposition
import QueryTemplate.Proofs.Embedding
import QueryTemplate.Proofs.Json.Filters
import QueryTemplate.Proofs.Acceptance
import QueryTemplate.Proofs.Conjunction
import QueryTemplate.Proofs.NormalForm
import QueryTemplate.Proofs.PrintedNulls
import QueryTemplate.Proofs.Shell
import QueryTemplate.Proofs.Documents
import QueryTemplate.Proofs.SortLists
import QueryTemplate.Proofs.SortFaults
import QueryTemplate.Proofs.Aliases
import QueryTemplate.Proofs.InlineLiterals
import QueryTemplate.Proofs.FilterNames
import QueryTemplate.Proofs.Slices
import QueryTemplate.Proofs.Reading.Offsets
import QueryTemplate.Proofs.Reading.Cursor
import QueryTemplate.Proofs.Reading.Walks
import QueryTemplate.Proofs.Reading.Bounds
