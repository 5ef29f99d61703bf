/-
The registry of columns.

Every column that a filter, a group-by field or a metric may name is looked up
here, first match first.  A registry is valid when its names are identifiers,
pairwise distinct, every computed column has an expression, and the timestamp
field is a column of the event table.
-/
import EventReport.Warehouse.Column
import EventReport.Text.Identifier

namespace EventReport

structure Registry where
  /-- The column with the time of an event. -/
  timestampField : String
  columns : List Column
deriving DecidableEq, Repr

namespace Registry

/-- The usual name of the column with the time of an event. -/
def defaultTimestampField : String := "created_at"

def find? (r : Registry) (name : String) : Option Column := r.columns.find? (·.name == name)

def contains (r : Registry) (name : String) : Bool := (r.find? name).isSome

def tableOf? (r : Registry) (name : String) : Option Table := (r.find? name).map Column.table

def isTimestamp (r : Registry) (name : String) : Bool := name == r.timestampField

/-- The columns of a table, in the order of the registry. -/
def columnsIn (r : Registry) (table : Table) : List Column :=
  r.columns.filter (·.table == table)

/-! ## Validation -/

/-- What makes a registry invalid. -/
inductive Fault where
  | invalidName (name : String)
  | duplicateColumn (name : String)
  | unknownComputed (name : String)
  | missingTimestamp (name : String)
deriving DecidableEq, Repr

def Fault.message : Fault → String
  | invalidName name => "Invalid column name '" ++ name ++ "', expected [A-Za-z_][A-Za-z0-9_]*"
  | duplicateColumn name => "Column '" ++ name ++ "' is declared more than once"
  | unknownComputed name => "Unknown computed column '" ++ name ++ "'"
  | missingTimestamp name => "Timestamp field '" ++ name ++ "' is not a registry column"

/-- The rule that a column breaks after columns of the given names. -/
def columnFault? (earlier : List String) (c : Column) : Option Fault :=
  if !Text.isIdentifier c.name then some (.invalidName c.name)
  else if c.name ∈ earlier then some (.duplicateColumn c.name)
  else if c.table = .computed ∧ c.computed? = none then some (.unknownComputed c.name)
  else none

/-- The fault of the first column that breaks a rule. -/
def columnsFault? (earlier : List String) : List Column → Option Fault
  | [] => none
  | c :: cs =>
    match columnFault? earlier c with
    | some fault => some fault
    | none => columnsFault? (c.name :: earlier) cs

/-- The first fault of a registry; the timestamp field is looked at last. -/
def fault? (r : Registry) : Option Fault :=
  match columnsFault? [] r.columns with
  | some fault => some fault
  | none =>
    match r.find? r.timestampField with
    | some c => if c.table = .event then none else some (.missingTimestamp r.timestampField)
    | none => some (.missingTimestamp r.timestampField)

/-- Accepts a valid registry and says what is wrong with any other. -/
def validate (r : Registry) : Except Fault Unit :=
  match r.fault? with
  | some fault => .error fault
  | none => .ok ()

/-! ## The standard registry -/

/-- The columns that the warehouse has unless told otherwise. -/
def standard : Registry where
  timestampField := defaultTimestampField
  columns := [
    ⟨"event_id", .event, "Hendelse-ID", .string⟩,
    ⟨"website_id", .event, "Nettsted-ID", .string⟩,
    ⟨"session_id", .event, "Økt-ID", .string⟩,
    ⟨"visit_id", .event, "Besøk-ID", .string⟩,
    ⟨defaultTimestampField, .event, "Tidspunkt", .timestamp⟩,
    ⟨"hostname", .event, "Vertsnavn", .string⟩,
    ⟨"url_path", .event, "URL-sti", .string⟩,
    ⟨"url_query", .event, "URL-parametere", .string⟩,
    ⟨"referrer_path", .event, "Henvisningssti", .string⟩,
    ⟨"referrer_query", .event, "Henvisningsparametere", .string⟩,
    ⟨"referrer_domain", .event, "Henvisningsdomene", .string⟩,
    ⟨"page_title", .event, "Sidetittel", .string⟩,
    ⟨"event_type", .event, "Hendelsestype", .number⟩,
    ⟨"event_name", .event, "Hendelsesnavn", .string⟩,
    ⟨"url_fullpath", .computed, "URL-sti med parametere", .string⟩,
    ⟨"url_fullurl", .computed, "Full URL", .string⟩,
    ⟨"referrer_fullpath", .computed, "Henvisningssti med parametere", .string⟩,
    ⟨"referrer_fullurl", .computed, "Full henvisnings-URL", .string⟩,
    ⟨"browser", .session, "Nettleser", .string⟩,
    ⟨"os", .session, "Operativsystem", .string⟩,
    ⟨"device", .session, "Enhet", .string⟩,
    ⟨"screen", .session, "Skjermstørrelse", .string⟩,
    ⟨"language", .session, "Språk", .string⟩,
    ⟨"country", .session, "Land", .string⟩,
    ⟨"subdivision1", .session, "Region", .string⟩,
    ⟨"city", .session, "By", .string⟩]

end Registry

end EventReport
