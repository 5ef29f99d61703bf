/-
The base statement.

It holds the events of one website: all columns of an event, the computed ones,
those of the session where the report needs them, and the conditions on any of
them.  The columns are made in an inner statement, so that the conditions can
name the computed ones.
-/
import EventReport.Plan.AttributeRow
import EventReport.Report.Outline
import EventReport.Warehouse.Settings

namespace EventReport

open Sql

namespace Base

/-- The alias of the event table. -/
def eventAlias : String := "e"

/-- The alias of the session table. -/
def sessionAlias : String := "s"

/-- A path, and after a question mark the query where there is one. -/
def fullPath (path query : String) : Expr :=
  let queryColumn := Expr.of eventAlias query
  .call "CONCAT" [
    .of eventAlias path,
    .choose [(.all [.isNotNull queryColumn, .ne queryColumn (.text "")],
        .call "CONCAT" [.text "?", queryColumn])]
      (some (.text ""))]

/-- The expression of a computed column. -/
def computedExpr : Computed → Expr
  | .urlFullpath => fullPath "url_path" "url_query"
  | .urlFullurl =>
    .call "CONCAT" [.text "https://", .of eventAlias "hostname", fullPath "url_path" "url_query"]
  | .referrerFullpath => fullPath "referrer_path" "referrer_query"
  | .referrerFullurl =>
    let domain := Expr.of eventAlias "referrer_domain"
    .choose [(.isNull (.call "NULLIF" [domain, .text ""]), .literal .null)]
      (some (.call "CONCAT"
        [.text "https://", domain, fullPath "referrer_path" "referrer_query"]))

/-- The condition that a row belongs to the website. -/
def scopeCondition (website : Website) : Condition :=
  .always (.eq (.column (.bare scopeColumn)) (.value (.text website.id)))

/-- The computed columns of the registry that have an expression. -/
def computedItems (registry : Registry) : List Item :=
  (registry.columnsIn .computed).filterMap fun c =>
    c.computed?.map fun k => .expr (computedExpr k) (some c.name)

def sessionItems (registry : Registry) : List Item :=
  (registry.columnsIn .session).map fun c => .expr (.of sessionAlias c.name) none

def sessionJoin (settings : Settings) : Join Query where
  kind := .left
  source := .table settings.sessionTable sessionAlias
  on := .eq (.of sessionAlias "session_id") (.of eventAlias "session_id")

/-- All columns of the events. -/
def columns (w : Warehouse) (withSession : Bool) : Query where
  select := .star eventAlias :: computedItems w.registry ++
    if withSession then sessionItems w.registry else []
  source := .table w.settings.eventTable eventAlias
  joins := if withSession then [sessionJoin w.settings] else []

/-- The events of the website that meet the conditions. -/
def query (w : Warehouse) (website : Website) (withSession : Bool)
    (conditions : List Condition) : Query where
  select := [.star ""]
  source := .nested (columns w withSession)
  conditions := scopeCondition website :: conditions

end Base

end EventReport
