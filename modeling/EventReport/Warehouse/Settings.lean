/-
Settings of the warehouse: what does not belong to a single report.
-/
import EventReport.Warehouse.Registry

namespace EventReport

structure Settings where
  eventTable : String := "team-researchops-prod-01d6.umami.public_website_event"
  sessionTable : String := "team-researchops-prod-01d6.umami.public_session"
  /-- The table with a row per event and attribute key. -/
  eventDataTable : String := "team-researchops-prod-01d6.umami.public_event_data"
  /-- The most rows that a report returns. -/
  rowLimit : Nat := 1000
  /-- The time zone of date buckets; UTC if there is none. -/
  timezone : Option String := none
deriving DecidableEq, Repr

/-- The warehouse that reports are compiled for. -/
structure Warehouse where
  registry : Registry := .standard
  settings : Settings := {}
deriving DecidableEq, Repr

end EventReport
