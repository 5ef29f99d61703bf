/-
Reading records from YAML nodes.

There are two ways to read a value.  Where the type is known first, a text may be
any scalar, and nothing written stands for an empty sequence or mapping.  Where
the node is typed first, by the core schema, a plain scalar that stands for a
number, a truth value or null is no text, and a record may also be a sequence of
its fields.
-/
import EventReport.Json.Record
import EventReport.Yaml.Node

namespace EventReport.Yaml

open Json (Decoded DecodeError Field)

/-- The node may stand where it is not looked at. -/
def ignorable (_ : Node) : Bool := true

/-! ## Type first -/

def decodeText : Node → Decoded String
  | .scalar _ text => .ok text
  | _ => .error .malformed

def decodeList {α : Type} (decode : Node → Decoded α) : Node → Decoded (List α)
  | .seq items => Json.decodeItems decode items
  | .scalar true "" => .ok []
  | _ => .error .malformed

/-- One of several named values. -/
def decodeNamed {α : Type} (names : List (String × α)) (n : Node) : Decoded α :=
  (decodeText n).bind (Json.decodeName names)

/-- The entries of a mapping, with the texts of their keys. -/
def textMembers : List (Node × Node) → Decoded (List (String × Node))
  | [] => .ok []
  | (key, value) :: entries => do
    let name ← decodeText key
    let members ← textMembers entries
    return (name, value) :: members

def decodeMembers : Node → Decoded (List (String × Node))
  | .map entries => textMembers entries
  | .scalar true "" => .ok []
  | _ => .error .malformed

def decodeRecord {σ α : Type} (fields : List (Field Node σ)) (start : σ)
    (finish : σ → Decoded α) (n : Node) : Decoded α :=
  (decodeMembers n).bind (Json.ofMembers ignorable fields start finish)

/-- A text that may be null. -/
def decodeOptionalText : Node → Decoded (Option String)
  | .scalar isPlain text => .ok (if isPlain && Plain.isNull text then none else some text)
  | _ => .error .malformed

/-- A plain unsigned integer. -/
def decodeUnsigned : Node → Decoded Nat
  | .scalar true text => (Plain.unsigned? text).elim (.error .malformed) .ok
  | _ => .error .malformed

/-! ## Node first -/

namespace Typed

def decodeText : Node → Decoded String
  | .scalar isPlain text =>
    if isPlain && !Plain.isText text then .error .malformed else .ok text
  | _ => .error .malformed

def decodeList {α : Type} (decode : Node → Decoded α) : Node → Decoded (List α)
  | .seq items => Json.decodeItems decode items
  | _ => .error .malformed

/-- The name that a key gives: a text, or the place of the name among the names. -/
def decodeKey (names : List String) (key : Node) : Decoded String :=
  match key with
  | .scalar true text =>
    match Plain.unsigned? text with
    | some n => .ok (names.getD n text)
    | none => decodeText key
  | _ => decodeText key

def isNothing : Node → Bool
  | .scalar isPlain text => isPlain && Plain.isNull text
  | .map [] => true
  | _ => false

/-- One of several named values: its name, or a mapping that gives nothing under its name. -/
def decodeNamed {α : Type} (names : List (String × α)) (n : Node) : Decoded α :=
  match n with
  | .map [(key, value)] => do
    let name ← decodeKey (names.map Prod.fst) key
    if isNothing value then Json.decodeName names name else .error .malformed
  | _ => (decodeText n).bind (Json.decodeName names)

def members (names : List String) : List (Node × Node) → Decoded (List (String × Node))
  | [] => .ok []
  | (key, value) :: entries => do
    let name ← decodeKey names key
    let rest ← members names entries
    return (name, value) :: rest

def decodeRecord {σ α : Type} (fields : List (Field Node σ)) (start : σ)
    (finish : σ → Decoded α) : Node → Decoded α
  | .map entries =>
    (members (fields.map Field.name) entries).bind (Json.ofMembers ignorable fields start finish)
  | .seq items => Json.ofItems fields start finish items
  | _ => .error .malformed

end Typed

end EventReport.Yaml
