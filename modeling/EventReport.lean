import EventReport.Text.Blank
import EventReport.Text.Caseless
import EventReport.Text.Quoted
import EventReport.Text.Pattern
import EventReport.Text.Identifier
import EventReport.Text.Lines
import EventReport.Text.Letter
import EventReport.Text.Placeholder
import EventReport.Decimal.Shortest
import EventReport.Decimal.Layout
import EventReport.Decimal.Numeral
import EventReport.Sql.Literal
import EventReport.Sql.Expr
import EventReport.Sql.Query
import EventReport.Sql.Statement
import EventReport.Warehouse.Column
import EventReport.Warehouse.Registry
import EventReport.Warehouse.Settings
import EventReport.Report.Filter
import EventReport.Report.Attribute
import EventReport.Report.Metric
import EventReport.Report.Outline
import EventReport.Report.Basic
import EventReport.Plan.Warning
import EventReport.Plan.Scope
import EventReport.Plan.AttributeRow
import EventReport.Plan.Condition
import EventReport.Plan.Pivot
import EventReport.Plan.Base
import EventReport.Plan.Projection
import EventReport.Plan.Basic
import EventReport.Clause.Token
import EventReport.Clause.Basic
import EventReport.Clause.Reader
import EventReport.Dashboard.Variable
import EventReport.Dashboard.Document
import EventReport.Dashboard.Binding
import EventReport.Json.Value
import EventReport.Json.Printer
import EventReport.Json.Number
import EventReport.Json.Reader
import EventReport.Json.Record
import EventReport.Report.Json
import EventReport.Dashboard.Json
import EventReport.Warehouse.Json
import EventReport.Plan.Json
import EventReport.Yaml.Node
import EventReport.Yaml.Cursor
import EventReport.Yaml.Scalar
import EventReport.Yaml.Reader
import EventReport.Yaml.Record
import EventReport.Warehouse.Yaml
import EventReport.Proofs.Text.Character
import EventReport.Proofs.Text.Placeholder
import EventReport.Proofs.Clause.Boundary
import EventReport.Proofs.Clause.Spelling
import EventReport.Proofs.Decimal.Numeral
import EventReport.Proofs.Text.Lines
import EventReport.Proofs.Plan.Fate
import EventReport.Proofs.Plan.Outputs
import EventReport.Proofs.Plan.Projection
import EventReport.Proofs.Plan.Aggregation
import EventReport.Proofs.Plan.Template
import EventReport.Proofs.Sql.Literal
import EventReport.Proofs.Sql.Alike
import EventReport.Proofs.Plan.Names
import EventReport.Proofs.Plan.Provision
import EventReport.Proofs.Sql.AlikeLines
import EventReport.Proofs.Plan.Layout
import EventReport.Proofs.Plan.Correspondence
import EventReport.Proofs.Plan.Account
import EventReport.Proofs.Sql.Form
import EventReport.Proofs.Plan.Independence
import EventReport.Proofs.Sql.Meaning
import EventReport.Proofs.Plan.Join
import EventReport.Proofs.Plan.Confinement
import EventReport.Proofs.Clause.Readback
import EventReport.Proofs.Plan.Readback
import EventReport.Proofs.Dashboard.Scope
import EventReport.Proofs.Dashboard.Rebinding
import EventReport.Proofs.Dashboard.Survival
import EventReport.Proofs.Dashboard.Margin
import EventReport.Proofs.Text.Closed
import EventReport.Proofs.Text.Clear
import EventReport.Proofs.Sql.Clear
import EventReport.Proofs.Plan.Clear
import EventReport.Proofs.Dashboard.Edit
import EventReport.Proofs.Dashboard.Restoration
import EventReport.Proofs.Dashboard.Promotion
import EventReport.Proofs.Dashboard.Place
import EventReport.Proofs.Dashboard.Commutation
import EventReport.Proofs.Text.Substitution
import EventReport.Proofs.Clause.Grammar
import EventReport.Proofs.Clause.Lexeme
import EventReport.Proofs.Clause.Rendering
import EventReport.Proofs.Dashboard.Renaming
import EventReport.Proofs.Text.Quoted
import EventReport.Proofs.Plan.Matching
import EventReport.Proofs.Plan.Naming
import EventReport.Proofs.Plan.Grouping
import EventReport.Proofs.Plan.Ordering
import EventReport.Proofs.Plan.Subject
import EventReport.Proofs.Plan.Precedence
import EventReport.Proofs.Plan.Skipping
import EventReport.Proofs.Plan.Caseless
import EventReport.Proofs.Decimal.Value
import EventReport.Proofs.Decimal.Shortest
import EventReport.Proofs.Decimal.Rounding
import EventReport.Proofs.Sql.Integer
import EventReport.Proofs.Warehouse.Validation
import EventReport.Proofs.Clause.Cut
import EventReport.Proofs.Json.Text
import EventReport.Proofs.Json.Order
import EventReport.Proofs.Report.RoundTrip
