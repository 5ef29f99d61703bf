/-
Metrics of a report: the aggregates that it shows.
-/
import EventReport.Text.Caseless

namespace EventReport

inductive MetricFunction where
  /-- The number of rows. -/
  | count
  | countDistinct
  | sum
  | average
  | median
  | min
  | max
  | unknown (spelling : String)
deriving DecidableEq, Repr

namespace MetricFunction

def name : MetricFunction → String
  | count => "count"
  | countDistinct => "count-distinct"
  | sum => "sum"
  | average => "average"
  | median => "median"
  | min => "min"
  | max => "max"
  | unknown spelling => spelling

/-- The function that a spelling names: in any case, with blanks around it, and with hyphens in the
place of underscores. -/
def ofName (spelling : String) : MetricFunction :=
  match Text.nameKey '-' '_' spelling with
  | "count" => count
  | "count_distinct" | "distinct" | "distinct_count" => countDistinct
  | "sum" => sum
  | "average" | "avg" => average
  | "median" => median
  | "min" | "minimum" => min
  | "max" | "maximum" => max
  | _ => unknown spelling

def isKnown : MetricFunction → Bool
  | unknown _ => false
  | _ => true

/-- Whether the function aggregates a column. -/
def needsColumn : MetricFunction → Bool
  | count | unknown _ => false
  | _ => true

end MetricFunction

structure Metric where
  function : MetricFunction := .count
  column : Option String := none
  /-- The name of the output. -/
  name : Option String := none
deriving DecidableEq, Repr

namespace Metric

/-- The name of the metric at a place (counted from zero) that has no name of its own. -/
def positionalName (place : Nat) : String := "metric_" ++ toString (place + 1)

end Metric

end EventReport
