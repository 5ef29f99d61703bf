/-
What a report shows.

The select list has the group keys, then the metrics, then the attributes.  Every
output has a name of its own: an output whose name is taken is left out with a
warning, and its expression is not looked at.  An output that is no aggregate is
a group key, so that the statement is a valid aggregation.
-/
import EventReport.Plan.Pivot

namespace EventReport

open Sql

/-- The select list of a report with its group and sort keys, and what was said of them. -/
structure Projection where
  select : List Item := []
  groupBy : List Expr := []
  orderBy : List SortKey := []
  warnings : List Warning := []

namespace Projection

/-- The names that are taken. -/
def names (p : Projection) : List String := p.select.filterMap Item.outputName?

def warn (p : Projection) (warnings : List Warning) : Projection :=
  { p with warnings := p.warnings ++ warnings }

/-- Goes on with `add` if the name is free. -/
def reserve (p : Projection) (name : String) (add : Projection → Projection) : Projection :=
  if name ∈ p.names then p.warn [.duplicateOutput name] else add p

def addItem (item : Item) (p : Projection) : Projection := { p with select := p.select ++ [item] }

/-- Adds an output that is grouped by `key`. -/
def addGroup (item : Item) (key : Expr) (p : Projection) : Projection :=
  { p with select := p.select ++ [item], groupBy := p.groupBy ++ [key] }

/-! ## Group keys -/

/-- The output name of the date bucket. -/
def dateAlias : String := "dato"

/-- The name of the bucket into which an event falls by its time. -/
def dateBucket (settings : Settings) (granularity : Option Granularity) (timestamp : String) :
    Expr :=
  .call "FORMAT_TIMESTAMP" <|
    .text (granularity.getD .day).pattern :: .of baseName timestamp ::
      (settings.timezone.map Expr.text).toList

/-- Adds a group key. An attribute is added with the other attributes. -/
def addGroupField (settings : Settings) (scope : Scope) (granularity : Option Granularity)
    (p : Projection) (field : String) : Projection :=
  if scope.registry.isTimestamp field then
    p.reserve dateAlias <| addGroup
      (.expr (dateBucket settings granularity scope.registry.timestampField) (some dateAlias))
      (.column (.bare dateAlias))
  else
    match scope.resolve field with
    | some (.column c) =>
      p.reserve c.name <| addGroup (.expr (.of baseName c.name) none) (.of baseName c.name)
    | some (.attribute _) => p
    | none => p.warn [.unknownColumn field .groupBy]

/-- Whether the report is grouped by the attribute. -/
def isGrouped (scope : Scope) (o : Outline) (a : Attribute) : Bool :=
  o.groupBy.any fun field =>
    !scope.registry.isTimestamp field && scope.attribute? field == some a

/-! ## Metrics -/

end Projection

namespace Metric

/-- The output name of the metric at a place, and what is said of it. -/
def outputName (m : Metric) (place : Nat) : String × List Warning :=
  match m.name.map Text.trim with
  | none => (positionalName place, [])
  | some name =>
    if name = "" then (positionalName place, [])
    else if Text.isIdentifier name then (name, [])
    else
      let replacement := (Text.toIdentifier? name).getD (positionalName place)
      (replacement, [.invalidAlias name replacement])

end Metric

/-- The aggregation of a function that needs a column. -/
def MetricFunction.aggregation? : MetricFunction → Option Aggregation
  | count => none
  | countDistinct => some .countDistinct
  | sum => some .sum
  | average => some .average
  | median => some .median
  | min => some .min
  | max => some .max
  | unknown _ => none

namespace Metric

/-- The aggregate of the metric, and what is said of it; what cannot be aggregated counts rows. -/
def expr (scope : Scope) (name : String) (m : Metric) : Expr × List Warning :=
  match m.function, m.function.aggregation? with
  | .unknown spelling, _ => (.countRows, [.unknownFunction spelling])
  | _, none => (.countRows, [])
  | function, some f =>
    match m.column with
    | none => (.countRows, [.missingMetricColumn name function.name])
    | some column =>
      match scope.resolve column with
      | some (.column c) => (.aggregate f (some (.of baseName c.name)), [])
      | some (.attribute a) => (.aggregate f (some (Pivot.value a)), [])
      | none => (.countRows, [.unknownColumn column .metric])

end Metric

namespace Outline

/-- The metrics, or a row count if there are none. -/
def shownMetrics (o : Outline) : List Metric := if o.metrics.isEmpty then [{}] else o.metrics

end Outline

namespace Projection

/-- Adds the metric at a place. -/
def addMetric (scope : Scope) (p : Projection) (placed : Metric × Nat) : Projection :=
  let (metric, place) := placed
  let (name, said) := metric.outputName place
  (p.warn said).reserve name fun p =>
    let (e, said) := metric.expr scope name
    (p.warn said).addItem (.expr e (some name))

/-! ## Attributes -/

/-- Adds an attribute: a group key, or the one value of all events. -/
def addAttribute (scope : Scope) (o : Outline) (p : Projection) (a : Attribute) : Projection :=
  p.reserve a.columnId <|
    if isGrouped scope o a then addGroup (.expr (Pivot.value a) none) (Pivot.value a)
    else addItem <| .expr
      (Pivot.fold a.type ⟨baseName, scope.registry.timestampField⟩ (Pivot.value a))
      (some a.columnId)

/-! ## Order -/

/-- The default order: the latest date first, or else the greatest first column of a grouped
report. -/
def defaultOrder (p : Projection) : List SortKey :=
  if dateAlias ∈ p.names then [⟨.output dateAlias, .desc⟩]
  else if p.groupBy.isEmpty then []
  else [⟨.position 1, .desc⟩]

/-- Adds the sort keys. -/
def addOrder (registry : Registry) (orderBy : Option OrderBy) (p : Projection) : Projection :=
  match orderBy with
  | none => { p with orderBy := p.defaultOrder }
  | some o =>
    let name := if registry.isTimestamp o.column then dateAlias else o.column
    if name ∈ p.names then { p with orderBy := [⟨.output name, o.direction⟩] }
    else { p.warn [.unknownOrderColumn o.column] with orderBy := p.defaultOrder }

/-- What a report with the outline shows. -/
def of (settings : Settings) (scope : Scope) (o : Outline) : Projection :=
  let grouped := o.groupBy.foldl (addGroupField settings scope o.granularity) {}
  let measured := o.shownMetrics.zipIdx.foldl (addMetric scope) grouped
  let full := (scope.readAttributes o).foldl (addAttribute scope o) measured
  full.addOrder scope.registry o.orderBy

end Projection

end EventReport
