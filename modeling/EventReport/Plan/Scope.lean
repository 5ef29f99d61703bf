/-
What the column names of a report refer to.

A name is looked up among the columns of the registry, and after that among the
attributes of the report.  Two attributes may come to the same column; the first
one has it and the later ones are not seen.
-/
import EventReport.Plan.Warning
import EventReport.Report.Basic
import EventReport.Warehouse.Settings

namespace EventReport

/-- What a column name refers to. -/
inductive Target where
  | column (c : Column)
  | attribute (a : Attribute)
deriving DecidableEq, Repr

structure Scope where
  registry : Registry
  /-- Attributes with pairwise different columns. -/
  attributes : List Attribute
deriving Repr

namespace Scope

/-- Adds attributes to kept ones, with a warning for each one whose column is taken. -/
def keep (kept : List Attribute) : List Attribute → List Attribute × List Warning
  | [] => (kept, [])
  | a :: rest =>
    match kept.find? (·.columnId == a.columnId) with
    | some first =>
      let (all, warnings) := keep kept rest
      (all, .duplicateAttribute a.key first.key :: warnings)
    | none => keep (kept ++ [a]) rest

/-- The names that a report with the given attributes may use. -/
def of (registry : Registry) (attributes : List Attribute) : Scope :=
  ⟨registry, (keep [] attributes).1⟩

/-- What is said of the attributes that are not seen. -/
def duplicates (attributes : List Attribute) : List Warning := (keep [] attributes).2

def resolve (s : Scope) (name : String) : Option Target :=
  match s.registry.find? name with
  | some c => some (.column c)
  | none =>
    if Attribute.isColumnId name then
      (s.attributes.find? (·.columnId == name)).map .attribute
    else none

/-- The attribute that a name refers to. -/
def attribute? (s : Scope) (name : String) : Option Attribute :=
  match s.resolve name with
  | some (.attribute a) => some a
  | _ => none

def isSessionColumn (s : Scope) (name : String) : Bool := s.registry.tableOf? name == some .session

end Scope

namespace Outline

/-- The columns named by the group keys and then by the metrics. -/
def columns (o : Outline) : List String := o.groupBy ++ o.metrics.filterMap Metric.column

end Outline

namespace Report

/-- Every column that the report names, but for the order. -/
def columns (r : Report) : List String := r.filters.map Filter.column ++ r.outline.columns

end Report

end EventReport
