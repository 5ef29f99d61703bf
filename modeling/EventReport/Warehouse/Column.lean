/-
Columns of the event warehouse.

A column is read from the table of events, from the table of sessions, or is
computed from other columns of an event; only four computed columns have an
expression.
-/
import EventReport.Text.Caseless

namespace EventReport

inductive DataType where
  | string
  | number
  /-- A point in time, in UTC. -/
  | timestamp
deriving DecidableEq, Repr

namespace DataType

def name : DataType → String
  | string => "string"
  | number => "number"
  | timestamp => "timestamp"

def isNumeric (t : DataType) : Bool := t = number

/-- The type that a spelling names, in any case and with blanks around it. -/
def ofName? (spelling : String) : Option DataType :=
  match Text.nameKey '-' '-' spelling with
  | "string" | "text" | "varchar" => some string
  | "number" | "int" | "integer" | "int64" | "float" | "float64" | "numeric" => some number
  | "timestamp" | "datetime" => some timestamp
  | _ => none

/-- What is said of a spelling that names no type. -/
def unknownMessage (spelling : String) : String :=
  "Invalid data type '" ++ spelling ++ "'. Valid options: string, number, timestamp"

end DataType

/-- Where a column comes from. -/
inductive Table where
  /-- The table with a row per event. -/
  | event
  /-- The table with a row per session, joined only when one of its columns is named. -/
  | session
  /-- Computed from columns of the event. -/
  | computed
deriving DecidableEq, Repr

namespace Table

def name : Table → String
  | event => "event"
  | session => "session"
  | computed => "computed"

def names : List (String × Table) :=
  [("event", event), ("session", session), ("computed", computed)]

end Table

/-- The computed columns that have an expression. -/
inductive Computed where
  /-- The path, with the query where there is one. -/
  | urlFullpath
  /-- The address: scheme, host and full path. -/
  | urlFullurl
  /-- The path of the referring page, with the query where there is one. -/
  | referrerFullpath
  /-- The address of the referring page; null without a referring domain. -/
  | referrerFullurl
deriving DecidableEq, Repr

namespace Computed

def columnName : Computed → String
  | urlFullpath => "url_fullpath"
  | urlFullurl => "url_fullurl"
  | referrerFullpath => "referrer_fullpath"
  | referrerFullurl => "referrer_fullurl"

def list : List Computed := [urlFullpath, urlFullurl, referrerFullpath, referrerFullurl]

def ofColumnName? (name : String) : Option Computed := list.find? (·.columnName == name)

end Computed

/-- A column that a report may filter on, group by or aggregate. -/
structure Column where
  name : String
  table : Table
  /-- What the dashboard calls the column. -/
  label : String := ""
  type : DataType := .string
deriving DecidableEq, Repr

namespace Column

/-- The expression of a computed column, where it has one. -/
def computed? (c : Column) : Option Computed :=
  match c.table with
  | .computed => Computed.ofColumnName? c.name
  | .event | .session => none

end Column

end EventReport
