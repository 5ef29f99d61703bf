/-
Reading records from JSON values.

A record is written as an object, or as an array of its fields in the order of
their declaration.  Members are looked at in the order of the text: the first
one that is wrong decides, and only then are missing fields found, in the order
of declaration.  Members of other names are not looked at, but a name has to be
one that can be read.  The values of the members may be of any type, so that
other notations for records share the rule.
-/
import EventReport.Json.Printer
import EventReport.Json.Reader

namespace EventReport.Json

/-- Why a value could not be read. -/
inductive DecodeError where
  /-- The text is no JSON, or a value is of the wrong kind. -/
  | malformed
  | missingField (name : String)
  | duplicateField (name : String)
  | unknownVariant (found : String) (alternatives : List String)
  /-- A filter was given an array or object for its value. -/
  | notScalar (text : String)
  /-- A column was given a type that does not exist; the message says which ones do. -/
  | unknownDataType (message : String)
deriving DecidableEq, Repr

namespace DecodeError

/-- A name between backticks. -/
def ticked (name : String) : String := "\x60" ++ name ++ "\x60"

/-- What is said of an error, as far as anything is. -/
def message? : DecodeError → Option String
  | malformed => none
  | missingField name => some ("missing field " ++ ticked name)
  | duplicateField name => some ("duplicate field " ++ ticked name)
  | unknownVariant found alternatives =>
    let expected := match alternatives.map ticked with
      | [a, b] => a ++ " or " ++ b
      | names => "one of " ++ ", ".intercalate names
    some ("unknown variant " ++ ticked found ++ ", expected " ++ expected)
  | notScalar text => some ("filter value must be a scalar, got " ++ text)
  | unknownDataType message => some message

/-- The message to a user, if there is one. -/
def report? (e : DecodeError) : Option String := e.message?.map ("Invalid JSON: " ++ ·)

end DecodeError

abbrev Decoded (α : Type) := Except DecodeError α

/-! ## Single values -/

def decodeString : Json → Decoded String
  | str s => .ok s
  | _ => .error .malformed

/-- A value that may be null. -/
def decodeOption {α : Type} (decode : Json → Decoded α) : Json → Decoded (Option α)
  | null => .ok none
  | v => (decode v).map some

def decodeItems {V α : Type} (decode : V → Decoded α) : List V → Decoded (List α)
  | [] => .ok []
  | v :: vs => do
    let a ← decode v
    let as ← decodeItems decode vs
    return a :: as

def decodeList {α : Type} (decode : Json → Decoded α) : Json → Decoded (List α)
  | arr items => decodeItems decode items
  | _ => .error .malformed

/-- The value that a name stands for. -/
def decodeName {α : Type} (names : List (String × α)) (name : String) : Decoded α :=
  match names.lookup name with
  | some a => .ok a
  | none => .error (.unknownVariant name (names.map Prod.fst))

/-- One of several named values: its name, or an object that gives null under its name. -/
def decodeNamed {α : Type} (names : List (String × α)) : Json → Decoded α
  | str s => decodeName names s
  | obj ((_, unnamed _) :: _) => .error .malformed
  | obj ((name, v) :: members) => do
    let a ← decodeName names name
    match v, members with
    | null, [] => .ok a
    | _, _ => .error .malformed
  | _ => .error .malformed

/-! ## Records -/

/-- A field of a record, written as a `V`, of which the state `σ` is known so far. -/
structure Field (V σ : Type) where
  name : String
  /-- Whether the field is known already. -/
  isKnown : σ → Bool
  /-- Reads the field. -/
  learn : σ → V → Decoded σ

section

variable {V σ α : Type}

/-- A field that is kept in a place of the state. -/
def Field.at (name : String) (place : σ → Option α) (put : σ → α → σ)
    (decode : V → Decoded α) : Field V σ where
  name
  isKnown s := (place s).isSome
  learn s v := (decode v).map (put s)

/-- Reads members one after the other; the ones of other names must be ignorable. -/
def learnMembers (ignorable : V → Bool) (fields : List (Field V σ)) :
    σ → List (String × V) → Decoded σ
  | s, [] => .ok s
  | s, (name, v) :: members =>
    match fields.find? (·.name == name) with
    | some field =>
      if field.isKnown s then .error (.duplicateField name)
      else do
        let s ← field.learn s v
        learnMembers ignorable fields s members
    | none =>
      if ignorable v then learnMembers ignorable fields s members else .error .malformed

/-- Reads items into the fields. -/
def learnItems : List (Field V σ) → σ → List V → Decoded σ
  | _, s, [] => .ok s
  | [], _, _ :: _ => .error .malformed
  | field :: fields, s, v :: items => do
    let s ← field.learn s v
    learnItems fields s items

/-- Reads a record from its members, beginning with nothing known. `finish` makes it from what is
known in the end, or says which field is missing. -/
def ofMembers (ignorable : V → Bool) (fields : List (Field V σ)) (start : σ)
    (finish : σ → Decoded α) (members : List (String × V)) : Decoded α :=
  (learnMembers ignorable fields start members).bind finish

/-- Reads a record from its items. -/
def ofItems (fields : List (Field V σ)) (start : σ) (finish : σ → Decoded α)
    (items : List V) : Decoded α := do
  let s ← learnItems fields start items
  match finish s with
  | .ok a => .ok a
  | .error _ => .error .malformed

/-- Reads a record from an object or an array. -/
def decodeRecord (fields : List (Field Json σ)) (start : σ) (finish : σ → Decoded α) :
    Json → Decoded α
  | obj members => ofMembers isIgnorableMember fields start finish members
  | arr items => ofItems fields start finish items
  | _ => .error .malformed

end

/-- A field that has to be known in the end. -/
def require {α : Type} (name : String) : Option α → Decoded α
  | some a => .ok a
  | none => .error (.missingField name)

/-! ## Texts -/

/-- Reads a text that holds one value and nothing else. -/
def decodeText {α : Type} (decode : Json → Decoded α) (reading : Reading) : Decoded α := do
  let a ← decode reading.value
  if reading.complete then .ok a else .error .malformed

end EventReport.Json
