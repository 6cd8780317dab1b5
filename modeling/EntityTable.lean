import EntityTable.Codec.Address
import EntityTable.Codec.Calendar
import EntityTable.Codec.CodecError
import EntityTable.Codec.DateTime
import EntityTable.Codec.Decimal
import EntityTable.Codec.FloatFormat
import EntityTable.Codec.FloatText
import EntityTable.Codec.Json.Fault
import EntityTable.Codec.Json.Nesting
import EntityTable.Codec.Json.Scalar
import EntityTable.Codec.Json.Shape
import EntityTable.Codec.Json.Skipping
import EntityTable.Codec.Json.Value
import EntityTable.Codec.StringList
import EntityTable.Codec.TimeField
import EntityTable.Codec.ZonedDateTime
import EntityTable.Column.Conversion
import EntityTable.Column.MappingError
import EntityTable.Column.Plan
import EntityTable.Column.Plans
import EntityTable.Column.Storage
import EntityTable.Column.Template
import EntityTable.Entity.AttributeError
import EntityTable.Entity.AttributeOptions
import EntityTable.Entity.Description
import EntityTable.Entity.Meaning
import EntityTable.Entity.MetaItem
import EntityTable.Entity.Reading
import EntityTable.Entity.Roles
import EntityTable.Entity.Schema
import EntityTable.Entity.SchemaError
import EntityTable.Generation
import EntityTable.Layout.Code
import EntityTable.Layout.Expr
import EntityTable.Layout.Piece
import EntityTable.Layout.Shape
import EntityTable.Layout.TokenRun
import EntityTable.Layout.Type
import EntityTable.Proofs.Codec.Calendar
import EntityTable.Proofs.Codec.DateTime
import EntityTable.Proofs.Codec.Decimal
import EntityTable.Proofs.Codec.Digits
import EntityTable.Proofs.Codec.Equality
import EntityTable.Proofs.Codec.FloatFormat
import EntityTable.Proofs.Codec.FloatText
import EntityTable.Proofs.Codec.Instant
import EntityTable.Proofs.Codec.Json.Nesting
import EntityTable.Proofs.Codec.Json.Scalar
import EntityTable.Proofs.Codec.Json.Shape
import EntityTable.Proofs.Codec.Json.Value
import EntityTable.Proofs.Codec.ShortestDecimal
import EntityTable.Proofs.Codec.StringList
import EntityTable.Proofs.Codec.TimeField
import EntityTable.Proofs.Codec.ZonedDateTime
import EntityTable.Proofs.Column.Composed
import EntityTable.Proofs.Column.Forms
import EntityTable.Proofs.Column.History
import EntityTable.Proofs.Column.Imports
import EntityTable.Proofs.Column.Mapped
import EntityTable.Proofs.Column.Modifiers
import EntityTable.Proofs.Column.Nullable
import EntityTable.Proofs.Column.Operators
import EntityTable.Proofs.Column.Plannable
import EntityTable.Proofs.Column.Plans
import EntityTable.Proofs.Column.Resolved
import EntityTable.Proofs.Entity.Constants
import EntityTable.Proofs.Entity.Fields
import EntityTable.Proofs.Entity.Identifiers
import EntityTable.Proofs.Entity.Marks
import EntityTable.Proofs.Entity.Reordered
import EntityTable.Proofs.Entity.Schema
import EntityTable.Proofs.Entity.Unstored
import EntityTable.Proofs.Events
import EntityTable.Proofs.Layout.Documentation
import EntityTable.Proofs.Layout.Written
import EntityTable.Proofs.ListWarnings
import EntityTable.Proofs.Outcome
import EntityTable.Proofs.Source.Chains
import EntityTable.Proofs.Source.Comments
import EntityTable.Proofs.Source.Files
import EntityTable.Proofs.Source.Gaps
import EntityTable.Proofs.Source.Globs
import EntityTable.Proofs.Source.Identifier
import EntityTable.Proofs.Source.Items
import EntityTable.Proofs.Source.Lexing
import EntityTable.Proofs.Source.Literals
import EntityTable.Proofs.Source.Matches
import EntityTable.Proofs.Source.Operands
import EntityTable.Proofs.Source.Parsing
import EntityTable.Proofs.Source.Paths
import EntityTable.Proofs.Source.Phrases
import EntityTable.Proofs.Source.Remainders
import EntityTable.Proofs.Source.Scanning
import EntityTable.Proofs.Source.Spelling
import EntityTable.Proofs.Source.Statements
import EntityTable.Proofs.Source.Strings
import EntityTable.Proofs.Source.Strings.Exprs
import EntityTable.Proofs.Source.Strings.Items
import EntityTable.Proofs.Source.Strings.Lexing
import EntityTable.Proofs.Source.Strings.Trees
import EntityTable.Proofs.Source.Strings.Types
import EntityTable.Proofs.Source.Types
import EntityTable.Proofs.Source.UseNames
import EntityTable.Proofs.Source.UseTrees
import EntityTable.Proofs.Sql.Clause
import EntityTable.Proofs.Sql.Lexeme
import EntityTable.Proofs.Table.Binding
import EntityTable.Proofs.Table.ColumnLists
import EntityTable.Proofs.Table.Conversions
import EntityTable.Proofs.Table.Direct
import EntityTable.Proofs.Table.Documentation
import EntityTable.Proofs.Table.Faults
import EntityTable.Proofs.Table.Generated
import EntityTable.Proofs.Table.ImportPaths
import EntityTable.Proofs.Table.Imports
import EntityTable.Proofs.Table.Indexes
import EntityTable.Proofs.Table.ItemNames
import EntityTable.Proofs.Table.Literals
import EntityTable.Proofs.Table.Members
import EntityTable.Proofs.Table.Names
import EntityTable.Proofs.Table.Namespaces
import EntityTable.Proofs.Table.NumberedKey
import EntityTable.Proofs.Table.Order
import EntityTable.Proofs.Table.Parameters
import EntityTable.Proofs.Table.Planned
import EntityTable.Proofs.Table.Planning
import EntityTable.Proofs.Table.Query
import EntityTable.Proofs.Table.Quoting
import EntityTable.Proofs.Table.Rendering
import EntityTable.Proofs.Table.Reordered
import EntityTable.Proofs.Table.Rows
import EntityTable.Proofs.Table.Statement
import EntityTable.Proofs.Table.Suffixes
import EntityTable.Proofs.Table.TableName
import EntityTable.Proofs.Table.Templates
import EntityTable.Proofs.Table.Unstored
import EntityTable.Proofs.Table.UseItems
import EntityTable.Proofs.Text.ByteOrder
import EntityTable.Proofs.Text.CodePointSet
import EntityTable.Proofs.Text.Letters
import EntityTable.Proofs.Text.Pascal
import EntityTable.Proofs.Text.Plain
import EntityTable.Proofs.Text.Words
import EntityTable.Source.Identifier
import EntityTable.Source.Import
import EntityTable.Source.Lexer
import EntityTable.Source.Literal
import EntityTable.Source.Parser.Basic
import EntityTable.Source.Parser.Declaration
import EntityTable.Source.Parser.Expr
import EntityTable.Source.Parser.Grammar
import EntityTable.Source.Parser.Item
import EntityTable.Source.Parser.Pattern
import EntityTable.Source.Parser.Type
import EntityTable.Source.SyntaxError
import EntityTable.Source.Token
import EntityTable.Source.Tree.Build
import EntityTable.Source.Tree.Expr
import EntityTable.Source.Tree.ExprTokens
import EntityTable.Source.Tree.Operator
import EntityTable.Source.Tree.Pattern
import EntityTable.Source.Tree.Type
import EntityTable.Source.Tree.TypeTokens
import EntityTable.Source.Tree.TypeView
import EntityTable.Sql.Clause
import EntityTable.Table.Operation
import EntityTable.Table.Planned
import EntityTable.Table.Query
import EntityTable.Table.Rendering
import EntityTable.Table.Statement
import EntityTable.Table.Unit
import EntityTable.Text.Alphanumeric
import EntityTable.Text.Blank
import EntityTable.Text.CaseTable
import EntityTable.Text.CodePointSet
import EntityTable.Text.Grapheme
import EntityTable.Text.Identifier
import EntityTable.Text.Letters
import EntityTable.Text.Printable
import EntityTable.Text.Replace
import EntityTable.Text.Similarity
import EntityTable.Text.Words
