import SemanticLayer.Deadline
import SemanticLayer.Engine.Perform
import SemanticLayer.Main
import SemanticLayer.Wire.MySql.Cell
import SemanticLayer.Wire.MySql.Pool
import SemanticLayer.Wire.Pool
import SemanticLayer.Wire.Postgres.Cell
import SemanticLayer.Wire.SqlServer.Cell
import SemanticLayer.Proofs.Dictionary
import SemanticLayer.Proofs.Joins.Resolution
import SemanticLayer.Proofs.Checks
import SemanticLayer.Proofs.Registry.Circles
import SemanticLayer.Proofs.Query.Columns
import SemanticLayer.Proofs.Joins.Needed
import SemanticLayer.Proofs.Query.Shaping
import SemanticLayer.Proofs.Sql.Frame
import SemanticLayer.Proofs.Sql.Quoting
import SemanticLayer.Proofs.Query.FilterValues
import SemanticLayer.Proofs.Sql.Readers
import SemanticLayer.Proofs.Sql.Endings
import SemanticLayer.Proofs.Sql.Numbers
import SemanticLayer.Proofs.Sql.Operators
import SemanticLayer.Proofs.Sql.Scanning
import SemanticLayer.Proofs.Sql.Reading
import SemanticLayer.Proofs.Sandbox.Gate
import SemanticLayer.Proofs.Sandbox.Lines
import SemanticLayer.Proofs.Sandbox.Insertion
import SemanticLayer.Proofs.Tsql.Opening
import SemanticLayer.Proofs.Tsql.Printing
import SemanticLayer.Proofs.Sandbox.Derived
import SemanticLayer.Proofs.Sandbox.RowLimit
import SemanticLayer.Proofs.Tsql.RowBound
import SemanticLayer.Proofs.Sandbox.OneStatement
import SemanticLayer.Proofs.Sandbox.Juxtaposition
import SemanticLayer.Proofs.Engine.Steps
import SemanticLayer.Proofs.Engine.Locks
import SemanticLayer.Proofs.Engine.Endpoints
import SemanticLayer.Proofs.Engine.Sharing
import SemanticLayer.Proofs.Engine.OnePool
import SemanticLayer.Proofs.Engine.Stages
import SemanticLayer.Proofs.Engine.Places
import SemanticLayer.Proofs.Connection.Catalog
import SemanticLayer.Proofs.Schema.Assembly
import SemanticLayer.Proofs.Schema.History
import SemanticLayer.Proofs.Engine.Closing
import SemanticLayer.Proofs.Engine.Removal
import SemanticLayer.Proofs.Engine.Testing
import SemanticLayer.Proofs.Engine.Descriptions
import SemanticLayer.Proofs.Wire.Exhaustion
import SemanticLayer.Proofs.Calculation.Spelling
import SemanticLayer.Proofs.Calculation.Grammar
import SemanticLayer.Proofs.Calculation.Nesting
import SemanticLayer.Proofs.Calculation.Variables
import SemanticLayer.Proofs.Registry.Acceptance
import SemanticLayer.Proofs.Engine.Vetted
import SemanticLayer.Proofs.Query.Acceptance
import SemanticLayer.Proofs.Query.Grouping
import SemanticLayer.Proofs.Query.Calculations
import SemanticLayer.Proofs.Sql.LineFeeds
import SemanticLayer.Proofs.Sandbox.Enclosure
import SemanticLayer.Proofs.Connection.Default
import SemanticLayer.Proofs.Document
import SemanticLayer.Proofs.Sandbox.Verdict
import SemanticLayer.Proofs.Settings.Caps
import SemanticLayer.Proofs.Settings
import SemanticLayer.Proofs.Json.Merging
import SemanticLayer.Proofs.Model.Encoding
import SemanticLayer.Proofs.Joins.Search
import SemanticLayer.Proofs.Sql.Decoding
import SemanticLayer.Proofs.Sql.Written
import SemanticLayer.Proofs.Sandbox.Opening
import SemanticLayer.Proofs.Raw.Positions
import SemanticLayer.Proofs.Sandbox.CommonTables
import SemanticLayer.Proofs.Tsql.Rewriting
import SemanticLayer.Proofs.Query.FilterLists
import SemanticLayer.Proofs.Query.Coercion
import SemanticLayer.Proofs.Decimal.Digits
import SemanticLayer.Proofs.Decimal.Literal
import SemanticLayer.Proofs.Wire.Numeric
import SemanticLayer.Proofs.Decimal.Rounding
import SemanticLayer.Proofs.Decimal.Packing
import SemanticLayer.Proofs.Decimal.Reading
import SemanticLayer.Proofs.Decimal.Shortest
import SemanticLayer.Proofs.Decimal.Notation
import SemanticLayer.Proofs.Json.Decimals
import SemanticLayer.Proofs.ResultSet.Naming
import SemanticLayer.Proofs.Decimal.Nearest
import SemanticLayer.Proofs.Decimal.Spelled
import SemanticLayer.Proofs.Wire.Integers
import SemanticLayer.Proofs.Wire.FixedPoint
import SemanticLayer.Proofs.Files
import SemanticLayer.Proofs.Registry.Folder
import SemanticLayer.Proofs.Tsql.ColumnNames
