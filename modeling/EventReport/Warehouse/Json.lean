/-
The JSON form of the registry and the settings.
-/
import EventReport.Json.Record
import EventReport.Warehouse.Settings

namespace EventReport

open Json (Decoded Field)

namespace DataType

/-- The type that a spelling names. -/
def decodeSpelling (spelling : String) : Decoded DataType :=
  match ofName? spelling with
  | some type => .ok type
  | none => .error (.unknownDataType (unknownMessage spelling))


end DataType

namespace Column

/-- What is known of a column. -/
structure Draft where
  name : Option String := none
  table : Option Table := none
  label : Option String := none
  type : Option DataType := none

/-- The fields of a column, from how a text and a table are read. -/
def fields {V : Type} (text : V → Decoded String) (table : V → Decoded Table) :
    List (Field V Draft) := [
  .at "name" Draft.name (fun d a => { d with name := some a }) text,
  .at "table" Draft.table (fun d a => { d with table := some a }) table,
  .at "label" Draft.label (fun d a => { d with label := some a }) text,
  .at "type" Draft.type (fun d a => { d with type := some a })
    (fun v => (text v).bind DataType.decodeSpelling)]

def ofDraft (d : Draft) : Decoded Column := do
  let name ← Json.require "name" d.name
  let table ← Json.require "table" d.table
  return ⟨name, table, d.label.getD "", d.type.getD .string⟩

def decode : Json → Decoded Column :=
  Json.decodeRecord (fields Json.decodeString (Json.decodeNamed Table.names)) {} ofDraft

end Column

namespace Registry

/-- What is known of a registry. -/
structure Draft where
  timestampField : Option String := none
  columns : Option (List Column) := none

/-- The fields of a registry, from how a text and the columns are read. -/
def fields {V : Type} (text : V → Decoded String) (columns : V → Decoded (List Column)) :
    List (Field V Draft) := [
  .at "timestampField" Draft.timestampField (fun d a => { d with timestampField := some a })
    text,
  .at "columns" Draft.columns (fun d a => { d with columns := some a }) columns]

def ofDraft (d : Draft) : Decoded Registry := do
  let columns ← Json.require "columns" d.columns
  return ⟨d.timestampField.getD defaultTimestampField, columns⟩

def decode : Json → Decoded Registry :=
  Json.decodeRecord (fields Json.decodeString (Json.decodeList Column.decode)) {} ofDraft

end Registry

namespace Settings

/-- What is known of the settings. -/
structure Draft where
  eventTable : Option String := none
  sessionTable : Option String := none
  eventDataTable : Option String := none
  rowLimit : Option Nat := none
  timezone : Option (Option String) := none

/-- The settings that are known, and the usual ones for the rest. -/
def ofDraft (d : Draft) : Settings :=
  let usual : Settings := {}
  { eventTable := d.eventTable.getD usual.eventTable
    sessionTable := d.sessionTable.getD usual.sessionTable
    eventDataTable := d.eventDataTable.getD usual.eventDataTable
    rowLimit := d.rowLimit.getD usual.rowLimit
    timezone := d.timezone.join }

/-- Row limits are below `2^32`. -/
def rowLimit? (i : Int) : Option Nat := if 0 ≤ i ∧ i < 4294967296 then some i.toNat else none

def decodeRowLimit : Json → Decoded Nat
  | .int i => (rowLimit? i).elim (.error .malformed) .ok
  | _ => .error .malformed

/-- The fields of the settings, from how a text, a row limit and a time zone are read. -/
def fields {V : Type} (text : V → Decoded String) (rowLimit : V → Decoded Nat)
    (timezone : V → Decoded (Option String)) : List (Field V Draft) := [
  .at "eventTable" Draft.eventTable (fun d a => { d with eventTable := some a }) text,
  .at "sessionTable" Draft.sessionTable (fun d a => { d with sessionTable := some a }) text,
  .at "eventDataTable" Draft.eventDataTable (fun d a => { d with eventDataTable := some a })
    text,
  .at "rowLimit" Draft.rowLimit (fun d a => { d with rowLimit := some a }) rowLimit,
  .at "timezone" Draft.timezone (fun d a => { d with timezone := some a }) timezone]

def decode : Json → Decoded Settings :=
  Json.decodeRecord
    (fields Json.decodeString decodeRowLimit (Json.decodeOption Json.decodeString)) {}
    fun d => .ok (ofDraft d)

end Settings

end EventReport
