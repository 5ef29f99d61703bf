/-
The plan of a report and its statement.

The plan keeps apart what the statement joins into one: the conditions of the base
statement and of the outer one, whether sessions are read, which attributes are,
and the projection.
-/
import EventReport.Plan.Base
import EventReport.Plan.Condition
import EventReport.Plan.Projection
import EventReport.Sql.Statement

namespace EventReport

open Sql

structure Plan where
  website : Website
  /-- Whether the columns of sessions are read. -/
  withSession : Bool
  /-- The conditions of the base statement, apart from the one on the website. -/
  baseConditions : List Condition
  outerConditions : List Condition
  /-- The attributes that the pivot holds. -/
  attributes : List Attribute
  projection : Projection
  /-- What could not be taken from the report. -/
  warnings : List Warning

namespace Warehouse

/-- Plans a report on a website. -/
def plan (w : Warehouse) (website : Website) (r : Report) : Plan :=
  let scope := Scope.of w.registry r.attributes
  let fates := r.filters.map (Filter.fate w.settings scope)
  let projection := Projection.of w.settings scope r.outline
  { website
    withSession := r.columns.any scope.isSessionColumn
    baseConditions := fates.filterMap Fate.base?
    outerConditions := fates.filterMap Fate.outer?
    attributes := scope.readAttributes r.outline
    projection
    warnings := Scope.duplicates r.attributes ++ fates.filterMap Fate.warning? ++
      projection.warnings }

end Warehouse

namespace Plan

/-- The outer statement of the plan, which holds all others. -/
def query (p : Plan) (w : Warehouse) : Query where
  ctes := [⟨baseName, Base.query w p.website p.withSession p.baseConditions⟩]
  select := p.projection.select
  source := .named baseName
  joins := if p.attributes.isEmpty then []
    else [Pivot.join w.settings p.website p.attributes]
  conditions := p.outerConditions
  groupBy := p.projection.groupBy
  orderBy := p.projection.orderBy
  limit := some w.settings.rowLimit

end Plan

/-- The texts of a report's statement. -/
structure Compiled where
  /-- The statement with every value written in place. -/
  sql : String := ""
  /-- The statement with the values replaced by parameters. -/
  template : String := ""
  bindings : List Binding := []
  warnings : List Warning := []

namespace Compiled

/-- Nothing was compiled, because no website is selected yet. -/
def isEmpty (c : Compiled) : Bool := c.sql.isEmpty

end Compiled

namespace Website

/-- Whether a website is selected: its identifier is more than blanks. -/
def isSelected (website : Website) : Bool := !(Text.trimChars website.id.toList).isEmpty

end Website

namespace Warehouse

/-- Compiles a report; the result is empty until a website is selected. -/
def compile (w : Warehouse) (r : Report) : Compiled :=
  match r.website.filter Website.isSelected with
  | none => {}
  | some website =>
    let plan := w.plan website r
    let query := plan.query w
    { sql := query.sql, template := query.template, bindings := query.bindings,
      warnings := plan.warnings }

theorem compile_selected {w : Warehouse} {r : Report} {website : Website}
    (hwebsite : r.website = some website) (hselected : website.isSelected = true) :
    w.compile r =
      { sql := ((w.plan website r).query w).sql
        template := ((w.plan website r).query w).template
        bindings := ((w.plan website r).query w).bindings
        warnings := (w.plan website r).warnings } := by
  simp [compile, hwebsite, Option.filter, hselected]

end Warehouse

end EventReport
