import QueryTree.Codec.Decode
import QueryTree.Codec.Encode
import QueryTree.Command.Basic
import QueryTree.Command.Flag
import QueryTree.Command.Line
import QueryTree.Command.Program
import QueryTree.Command.Run
import QueryTree.Config
import QueryTree.Config.Settings
import QueryTree.Dialect.Bare
import QueryTree.Dialect.Mariadb
import QueryTree.Dialect.Mssql
import QueryTree.Dialect.Postgres
import QueryTree.Dialect.Sqlite
import QueryTree.Error
import QueryTree.Error.Evaluation
import QueryTree.Expr.Basic
import QueryTree.Expr.Build
import QueryTree.Expr.Display
import QueryTree.Expr.Equal
import QueryTree.Expr.Hash
import QueryTree.Expr.Members
import QueryTree.Expr.Pipeline
import QueryTree.Json.Basic
import QueryTree.Json.Reader
import QueryTree.Json.Writer
import QueryTree.Lambda.Constant
import QueryTree.Lambda.Convert
import QueryTree.Lambda.Eval
import QueryTree.Lambda.Grammar
import QueryTree.Lambda.Handlers
import QueryTree.Lambda.Host
import QueryTree.Lambda.Library
import QueryTree.Lambda.Node
import QueryTree.Lambda.Query
import QueryTree.Lambda.Scope
import QueryTree.Lambda.Statement
import QueryTree.Lambda.Token
import QueryTree.Main
import QueryTree.Number.Binary
import QueryTree.Number.Decimal
import QueryTree.Number.Kind
import QueryTree.Number.Reader
import QueryTree.Operator
import QueryTree.Proofs.Codec.Document
import QueryTree.Proofs.Codec.Location
import QueryTree.Proofs.Codec.Numbers
import QueryTree.Proofs.Codec.Operands
import QueryTree.Proofs.Codec.Place
import QueryTree.Proofs.Codec.RoundTrip
import QueryTree.Proofs.Codec.Transmission
import QueryTree.Proofs.Codec.Validity
import QueryTree.Proofs.Expr.Buckets
import QueryTree.Proofs.Expr.Equality
import QueryTree.Proofs.Expr.Form
import QueryTree.Proofs.Expr.Hash
import QueryTree.Proofs.Expr.Induction
import QueryTree.Proofs.Expr.Normal
import QueryTree.Proofs.Expr.Operands
import QueryTree.Proofs.Expr.Outline
import QueryTree.Proofs.Expr.Path
import QueryTree.Proofs.Expr.Rearrangement
import QueryTree.Proofs.Expr.WellFormed
import QueryTree.Proofs.Json.Literal
import QueryTree.Proofs.Json.Reading
import QueryTree.Proofs.Json.RoundTrip
import QueryTree.Proofs.Lambda.Agreement
import QueryTree.Proofs.Lambda.Akin
import QueryTree.Proofs.Lambda.Arithmetic
import QueryTree.Proofs.Lambda.Capture
import QueryTree.Proofs.Lambda.Conversion
import QueryTree.Proofs.Lambda.Datum
import QueryTree.Proofs.Lambda.Erasure
import QueryTree.Proofs.Lambda.Folding
import QueryTree.Proofs.Lambda.Forms
import QueryTree.Proofs.Lambda.Member
import QueryTree.Proofs.Lambda.Parallel
import QueryTree.Proofs.Lambda.ParallelQuery
import QueryTree.Proofs.Lambda.Parameters
import QueryTree.Proofs.Lambda.Rebinding
import QueryTree.Proofs.Lambda.Stages
import QueryTree.Proofs.Lambda.Syntax
import QueryTree.Proofs.Lambda.Uniform
import QueryTree.Proofs.Number.Integer
import QueryTree.Proofs.Number.Notation
import QueryTree.Proofs.Number.Numeral
import QueryTree.Proofs.Number.Rounding
import QueryTree.Proofs.Number.Shortest
import QueryTree.Proofs.Number.Whole
import QueryTree.Proofs.Query.Legal
import QueryTree.Proofs.Query.Paging
import QueryTree.Proofs.Query.Plan
import QueryTree.Proofs.Query.Window
import QueryTree.Proofs.Schema.Checked
import QueryTree.Proofs.Schema.Registration
import QueryTree.Proofs.Schema.Relations
import QueryTree.Proofs.Schema.RowType
import QueryTree.Proofs.Script.Sets
import QueryTree.Proofs.Sql.Alignment
import QueryTree.Proofs.Sql.Binding
import QueryTree.Proofs.Sql.Calculation
import QueryTree.Proofs.Sql.Canonical
import QueryTree.Proofs.Sql.Comment
import QueryTree.Proofs.Sql.Dash
import QueryTree.Proofs.Sql.Engine
import QueryTree.Proofs.Sql.Failure
import QueryTree.Proofs.Sql.Formula
import QueryTree.Proofs.Sql.Grouping
import QueryTree.Proofs.Sql.Independence
import QueryTree.Proofs.Sql.Layout
import QueryTree.Proofs.Sql.Legible
import QueryTree.Proofs.Sql.Lexing
import QueryTree.Proofs.Sql.Meaning
import QueryTree.Proofs.Sql.Outcome
import QueryTree.Proofs.Sql.Pattern
import QueryTree.Proofs.Sql.Phrase
import QueryTree.Proofs.Sql.Phrasing
import QueryTree.Proofs.Sql.Piece
import QueryTree.Proofs.Sql.Quotation
import QueryTree.Proofs.Sql.Reading
import QueryTree.Proofs.Sql.Replacement
import QueryTree.Proofs.Sql.Scoping
import QueryTree.Proofs.Sql.Sign
import QueryTree.Proofs.Sql.Silence
import QueryTree.Proofs.Sql.Sound
import QueryTree.Proofs.Sql.Splice
import QueryTree.Proofs.Sql.Trait
import QueryTree.Proofs.Sql.Uniform
import QueryTree.Proofs.Text.Plain
import QueryTree.Proofs.Text.Snake
import QueryTree.Proofs.Text.Utf8
import QueryTree.Proofs.Value.Akin
import QueryTree.Proofs.Value.Equality
import QueryTree.Proofs.Value.Portable
import QueryTree.Proofs.Value.Read
import QueryTree.Proofs.Value.Steady
import QueryTree.Schema.Basic
import QueryTree.Schema.File
import QueryTree.Schema.RowType
import QueryTree.Script.Item
import QueryTree.Script.Method
import QueryTree.Script.Operation
import QueryTree.Sql.Compile
import QueryTree.Sql.Dialect
import QueryTree.Sql.Fragment
import QueryTree.Sql.Like
import QueryTree.Sql.Render
import QueryTree.Sql.Report
import QueryTree.Sql.Resolver
import QueryTree.Sql.Token
import QueryTree.Text.Base64
import QueryTree.Text.Blank
import QueryTree.Text.Case
import QueryTree.Text.CharSet
import QueryTree.Text.Digit
import QueryTree.Text.Distance
import QueryTree.Text.Fnv
import QueryTree.Text.Identifier
import QueryTree.Text.Letter
import QueryTree.Text.Lower
import QueryTree.Text.Printable
import QueryTree.Text.Quoted
import QueryTree.Text.Replace
import QueryTree.Text.Separated
import QueryTree.Text.Snake
import QueryTree.Text.Upper
import QueryTree.Text.Utf8
import QueryTree.Value.Basic
import QueryTree.Value.Convert
import QueryTree.Value.Directive
import QueryTree.Value.Display
import QueryTree.Value.Json
import QueryTree.Value.Layout
import QueryTree.Value.Literal
import QueryTree.Value.Normal
import QueryTree.Value.Time
import QueryTree.Value.Ty
import QueryTree.Value.Types
import QueryTree.Value.Uuid
import QueryTree.Yaml.Basic
import QueryTree.Yaml.Reader
import QueryTree.Yaml.Scalar
