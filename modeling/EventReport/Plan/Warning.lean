/-
What a plan could not take from its report.

Compiling never fails over one bad part of a report: each fallback is recorded as
a warning, to be shown next to the statement.
-/

namespace EventReport

/-- Where in a report a column is named. -/
inductive Place where
  | filter
  | groupBy
  | metric
deriving DecidableEq, Repr

def Place.name : Place → String
  | .filter => "filter"
  | .groupBy => "group by"
  | .metric => "metric"

inductive Warning where
  /-- The operator is unknown; the filter compares for equality. -/
  | unknownOperator (column operator : String)
  /-- The operator needs a value and there is none; the filter is left out. -/
  | missingValue (column operator : String)
  /-- The column is unknown; its filter or group key is left out, its metric counts rows. -/
  | unknownColumn (column : String) (place : Place)
  /-- The function of a metric is unknown; it counts rows. -/
  | unknownFunction (function : String)
  /-- The function of a metric needs a column and there is none; it counts rows. -/
  | missingMetricColumn (metric function : String)
  /-- Two attributes come to the same column; the later one is left out. -/
  | duplicateAttribute (key kept : String)
  /-- An attribute cannot become a variable; the filter is left out. -/
  | interactiveAttribute (column : String)
  /-- The order names no output column; the default order stands. -/
  | unknownOrderColumn (column : String)
  /-- The name of a metric is no identifier; another name is used. -/
  | invalidAlias (name replacement : String)
  /-- The output name is taken; the later output is left out. -/
  | duplicateOutput (name : String)
deriving DecidableEq, Repr

namespace Warning

def message : Warning → String
  | unknownOperator column operator =>
    "Unknown filter operator '" ++ operator ++ "' on '" ++ column ++ "', treated as equals"
  | missingValue column operator =>
    "Filter '" ++ operator ++ "' on '" ++ column ++ "' has no value, filter skipped"
  | unknownColumn column place =>
    "Unknown column '" ++ column ++ "' in " ++ place.name ++ ", ignored"
  | unknownFunction function =>
    "Unknown metric function '" ++ function ++ "', counting rows instead"
  | missingMetricColumn metric function =>
    "Metric '" ++ metric ++ "' has no usable column for '" ++ function ++ "', counting rows instead"
  | duplicateAttribute key kept =>
    "Parameter '" ++ key ++ "' collides with '" ++ kept ++ "' after sanitizing, ignored"
  | interactiveAttribute column =>
    "Interactive filter on custom attribute '" ++ column ++ "' is not supported, skipped"
  | unknownOrderColumn column =>
    "Order column '" ++ column ++ "' is not an output column, using default order"
  | invalidAlias name replacement =>
    "Metric alias '" ++ name ++ "' is not a valid identifier, using '" ++ replacement ++ "'"
  | duplicateOutput name =>
    "Output column '" ++ name ++ "' appears more than once, keeping the first"

end Warning

end EventReport
