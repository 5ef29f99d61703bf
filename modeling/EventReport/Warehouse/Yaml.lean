/-
Loading the registry and the settings from YAML.

A registry stands alone, or in a file next to settings.  In the first form the
types of the fields are known first; in the second the nodes of the registry are
typed first, and the settings are not.
-/
import EventReport.Warehouse.Json
import EventReport.Yaml.Reader
import EventReport.Yaml.Record

namespace EventReport

open Json (Decoded)

/-- Why nothing could be loaded. -/
inductive LoadError where
  /-- The file cannot be read. -/
  | unreadable (path : String)
  /-- The text is no YAML, or does not fit. -/
  | malformed
  /-- The registry is not valid. -/
  | invalid (fault : Registry.Fault)
deriving DecidableEq, Repr

namespace LoadError

/-- What is said of the error. -/
def message : LoadError → String
  | unreadable path => "Failed to read '" ++ path ++ "'"
  | malformed => "Invalid YAML"
  | invalid fault => fault.message

/-- The result of reading a text, without the reason if there is none. -/
def ofDecoded {α : Type} : Decoded α → Except LoadError α
  | .ok a => .ok a
  | .error _ => .error malformed

end LoadError

namespace Registry

/-- The registry itself, if it is valid. -/
def checked (r : Registry) : Except LoadError Registry :=
  match r.validate with
  | .ok _ => .ok r
  | .error fault => .error (.invalid fault)

def ofNode (n : Yaml.Node) : Decoded Registry :=
  let column := Yaml.decodeRecord
    (Column.fields Yaml.decodeText (Yaml.decodeNamed Table.names)) {} Column.ofDraft
  Yaml.decodeRecord (fields Yaml.decodeText (Yaml.decodeList column)) {} ofDraft n

/-- The registry in the members of a mapping, whose nodes are typed first. -/
def ofTypedMembers (members : List (String × Yaml.Node)) : Decoded Registry :=
  let column := Yaml.Typed.decodeRecord
    (Column.fields Yaml.Typed.decodeText (Yaml.Typed.decodeNamed Table.names)) {} Column.ofDraft
  Json.ofMembers Yaml.ignorable
    (fields Yaml.Typed.decodeText (Yaml.Typed.decodeList column)) {} ofDraft members

/-- Loads a registry from a text. -/
def ofYaml (text : String) : Except LoadError Registry :=
  match Yaml.read? text with
  | none => .error .malformed
  | some n => (LoadError.ofDecoded (ofNode n)).bind checked

end Registry

namespace Settings

def ofNode (n : Yaml.Node) : Decoded Settings :=
  let rowLimit (n : Yaml.Node) : Decoded Nat := do
    let limit ← Yaml.decodeUnsigned n
    (rowLimit? limit).elim (.error .malformed) .ok
  Yaml.decodeRecord (fields Yaml.decodeText rowLimit Yaml.decodeOptionalText) {}
    (fun d => .ok (ofDraft d)) n

/-- The member of a file with the settings. -/
def memberName : String := "settings"

/-- The settings among the members of a file; the usual ones if there are none. -/
def ofMembers (members : List (String × Yaml.Node)) : Decoded Settings :=
  let fields := [Json.Field.at memberName id (fun _ s => some s) ofNode]
  Json.ofMembers Yaml.ignorable fields none (fun s => .ok (s.getD {})) members

end Settings

namespace Warehouse

def ofNode (n : Yaml.Node) : Decoded Warehouse := do
  let members ← Yaml.decodeMembers n
  let settings ← Settings.ofMembers members
  let registry ← Registry.ofTypedMembers members
  return ⟨registry, settings⟩

/-- Loads a registry with settings from a text. -/
def ofYaml (text : String) : Except LoadError Warehouse :=
  match Yaml.read? text with
  | none => .error .malformed
  | some n => do
    let w ← LoadError.ofDecoded (ofNode n)
    let registry ← w.registry.checked
    return { w with registry }

end Warehouse

/-! ## Files -/

/-- Loads from a file, whose contents are `none` if it cannot be read. -/
def ofFile {α : Type} (load : String → Except LoadError α) (path : String)
    (contents : Option String) : Except LoadError α :=
  match contents with
  | some text => load text
  | none => .error (.unreadable path)

end EventReport
