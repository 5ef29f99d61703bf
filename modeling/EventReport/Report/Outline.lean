/-
The outline of a report: what it shows, grouped and ordered how, for which
website.
-/
import EventReport.Report.Metric
import EventReport.Sql.Query

namespace EventReport

/-- The website whose events a report is about. -/
structure Website where
  id : String
  name : String := ""
  domain : Option String := none
deriving DecidableEq, Repr

/-- The length of the buckets into which events are grouped by time. -/
inductive Granularity where
  | year
  | month
  | day
  | hour
  | minute
deriving DecidableEq, Repr

namespace Granularity

def name : Granularity → String
  | year => "year"
  | month => "month"
  | day => "day"
  | hour => "hour"
  | minute => "minute"

def names : List (String × Granularity) :=
  [("year", year), ("month", month), ("day", day), ("hour", hour), ("minute", minute)]

/-- The pattern that names a bucket. -/
def pattern : Granularity → String
  | year => "%Y"
  | month => "%Y-%m"
  | day => "%Y-%m-%d"
  | hour => "%Y-%m-%d %H:00"
  | minute => "%Y-%m-%d %H:%M"

end Granularity

def Sql.Direction.name : Sql.Direction → String
  | .asc => "asc"
  | .desc => "desc"

def Sql.Direction.names : List (String × Sql.Direction) := [("asc", .asc), ("desc", .desc)]

/-- The order that a report asks for. -/
structure OrderBy where
  /-- An output column, or the timestamp field for its bucket. -/
  column : String
  direction : Sql.Direction := .desc
deriving DecidableEq, Repr

structure Outline where
  metrics : List Metric := []
  groupBy : List String := []
  orderBy : Option OrderBy := none
  granularity : Option Granularity := none
deriving DecidableEq, Repr

end EventReport
