/-
The JSON form of variables.

A variable is an object.  Its kind stands in the member `type`, by name or by
place among the names, and only a field filter has a column.  The members that
say the kind are looked at last, wherever they stand.
-/
import EventReport.Dashboard.Variable
import EventReport.Json.Record

namespace EventReport.Dashboard

open Json (Decoded Field)

namespace Variable

/-- The kinds by name, in the order in which they are counted. A field filter is yet without its
column. -/
def kindNames : List (String × Option VariableKind) :=
  [("text", some .text), ("number", some .number), ("date", some .date), ("field-filter", none)]

def encode (v : Variable) : Json :=
  let kind : List (String × Json) := match v.kind with
    | .text => [("type", .str "text")]
    | .number => [("type", .str "number")]
    | .date => [("type", .str "date")]
    | .fieldFilter column => [("type", .str "field-filter"), ("column", .str column)]
  .obj <| ("name", .str v.name) :: ("displayName", .str v.displayName) :: kind

/-- The deepest nesting of a member whose name is not looked at yet. -/
def maxMemberDepth : Nat := 125

/-- What is known of a variable: its names, and the other members, last one first. -/
structure Draft where
  name : Option String := none
  displayName : Option String := none
  others : List (String × Json) := []

/-- Reads the names out of the members, and keeps the others. -/
def learnNames : Draft → List (String × Json) → Decoded Draft
  | d, [] => .ok d
  | d, (key, v) :: members =>
    if key = "name" then
      if d.name.isSome then .error (.duplicateField key)
      else do
        let name ← Json.decodeString v
        learnNames { d with name := some name } members
    else if key = "displayName" then
      if d.displayName.isSome then .error (.duplicateField key)
      else do
        let displayName ← Json.decodeString v
        learnNames { d with displayName := some displayName } members
    else if v.isSound && v.depth ≤ maxMemberDepth then
      learnNames { d with others := (key, v) :: d.others } members
    else .error .malformed

/-- A kind by name or by place. -/
def decodeKindName : Json → Decoded (Option VariableKind)
  | .str s => Json.decodeName kindNames s
  | .int i =>
    match if i < 0 then none else kindNames[i.toNat]? with
    | some (_, kind) => .ok kind
    | none => .error .malformed
  | _ => .error .malformed

def kindFields : List (Field Json (Option (Option VariableKind))) :=
  [.at "type" id (fun _ kind => some kind) decodeKindName]

def columnFields : List (Field Json (Option String)) :=
  [.at "column" id (fun _ column => some column) Json.decodeString]

/-- Reads the kind out of the members. -/
def decodeKind (members : List (String × Json)) : Decoded VariableKind := do
  let kind ← Json.ofMembers Json.isIgnorableMember kindFields none (Json.require "type") members
  match kind with
  | some kind => return kind
  | none =>
    let column ←
      Json.ofMembers Json.isIgnorableMember columnFields none (Json.require "column") members
    return .fieldFilter column

def decode : Json → Decoded Variable
  | .obj members => do
    let d ← learnNames {} members
    let name ← Json.require "name" d.name
    let kind ← decodeKind d.others.reverse
    return ⟨name, d.displayName.getD "", kind⟩
  | _ => .error .malformed

end Variable

end EventReport.Dashboard
