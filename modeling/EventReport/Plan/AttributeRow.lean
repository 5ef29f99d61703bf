/-
Rows of the attribute table.

The table has a row for every event and attribute key, with the value in one of
two columns by its type.  A statement reads it under one alias, next to the rows
of the base statement.
-/
import EventReport.Report.Attribute
import EventReport.Sql.Expr

namespace EventReport

open Sql

/-- The name of the statement that holds the events of a report. -/
def baseName : String := "base"

/-- The column by which the rows of a website are told from others. -/
def scopeColumn : String := "website_id"

/-- The column of the attribute table with the values of a type. -/
def AttributeType.valueColumn : AttributeType → String
  | .string => "string_value"
  | .number => "number_value"

namespace AttributeRow

/-- The alias of the table. -/
def relation : String := "d"

def column (name : String) : Expr := .of relation name

/-- The column with the event of a row. -/
def eventColumn : String := "website_event_id"

/-- The row belongs to the event of the base row. -/
def ofBaseEvent : Expr := .eq (column eventColumn) (.of baseName "event_id")

def keyColumn : Expr := column "data_key"

/-- The row holds the attribute. -/
def hasKey (a : Attribute) : Expr := .eq keyColumn (.text a.key)

end AttributeRow

end EventReport
