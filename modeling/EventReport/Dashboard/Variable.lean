/-
Variables of the dashboard tool.
-/
import EventReport.Text.Placeholder
import EventReport.Warehouse.Registry

namespace EventReport.Dashboard

/-- How the tool puts the value of a variable into a statement. -/
inductive VariableKind where
  /-- A text, compared with a column. -/
  | text
  /-- A number, compared with a column. -/
  | number
  /-- A day, compared with the date of a column. -/
  | date
  /-- A whole predicate on the column, written by the tool. -/
  | fieldFilter (column : String)
deriving DecidableEq, Repr

structure Variable where
  name : String
  /-- What the dashboard calls the variable. -/
  displayName : String
  kind : VariableKind
deriving DecidableEq, Repr

namespace Variable

/-- A variable that is called by its name. -/
def named (name : String) (kind : VariableKind) : Variable := ⟨name, name, kind⟩

/-- The column whose filter the variable takes the place of. -/
def targetColumn (v : Variable) : String :=
  match v.kind with
  | .text | .number => v.name
  | .date => Registry.defaultTimestampField
  | .fieldFilter column => column

/-- The placeholder of the variable. -/
def token (v : Variable) : String := String.ofList (Text.Placeholder.write v.name.toList)

end Variable

end EventReport.Dashboard
