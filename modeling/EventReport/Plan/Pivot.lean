/-
The pivot of the attribute table.

Attributes are read through a statement with one row per event and one column
per attribute, joined to the base statement on the event.  Grouping by the event
makes at most one row of it meet each base row, so the join repeats no event and,
being a left join, drops none.
-/
import EventReport.Plan.AttributeRow
import EventReport.Plan.Scope

namespace EventReport

open Sql

namespace Scope

/-- The attributes that group keys and metrics read, in the order of the first mention. -/
def readAttributes (s : Scope) (o : Outline) : List Attribute :=
  (o.columns.filterMap s.attribute?).eraseDups

end Scope

namespace Pivot

/-- The alias of the pivot. -/
def relation : String := "event_data"

/-- The value of a row that holds the attribute; null on other rows. -/
def valueUnderKey (a : Attribute) : Expr :=
  let stored := AttributeRow.column a.type.valueColumn
  let result := match a.type with
    | .string => stored
    | .number => .cast stored "NUMERIC"
  .choose [(AttributeRow.hasKey a, result)] none

/-- The one value of several rows: the first text by a point in time, or the greatest number. -/
def fold (type : AttributeType) (time : ColumnRef) (e : Expr) : Expr :=
  match type with
  | .string => .aggregate (.firstText time) (some e)
  | .number => .aggregate .max (some e)

/-- The column of an attribute. An empty text counts as none. -/
def column (a : Attribute) : Item :=
  let folded := fold a.type ⟨AttributeRow.relation, "created_at"⟩ (valueUnderKey a)
  let e := match a.type with
    | .string => .call "NULLIF" [folded, .text ""]
    | .number => folded
  .expr e (some a.columnId)

/-- The statement with a row per event of the website. Its condition is a single one, so it stands
on one line and is no filter of the report. -/
def query (settings : Settings) (website : Website) (attributes : List Attribute) : Query where
  select := .expr (AttributeRow.column AttributeRow.eventColumn) none :: attributes.map column
  source := .table settings.eventDataTable AttributeRow.relation
  conditions := [.always (.all [
    .eq (AttributeRow.column scopeColumn) (.value (.text website.id)),
    .among AttributeRow.keyColumn (attributes.map fun a => .text a.key)])]
  groupBy := [AttributeRow.column AttributeRow.eventColumn]

def join (settings : Settings) (website : Website) (attributes : List Attribute) :
    Join Query where
  kind := .left
  source := .derived (query settings website attributes) relation
  on := .eq (.of relation AttributeRow.eventColumn) (.of baseName "event_id")

/-- The value of an attribute next to a base row. -/
def value (a : Attribute) : Expr := .of relation a.columnId

end Pivot

end EventReport
