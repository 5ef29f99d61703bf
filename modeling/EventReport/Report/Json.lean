/-
The JSON form of a report.

Each part of a report is written as an object.  Filters, attributes and metrics
leave out what they do not have, and an outline writes null for it.  Reading
takes back what is written and fills in defaults; a value to compare with may
also be a number or a truth value, and is kept as text.
-/
import EventReport.Json.Record
import EventReport.Report.Basic

namespace EventReport

open Json (Decoded Field)

/-- A member that is left out if there is nothing to write. -/
def optionalMember {α : Type} (name : String) (encode : α → Json) :
    Option α → List (String × Json)
  | some a => [(name, encode a)]
  | none => []

/-! ## Filters -/

namespace Filter

def encode (f : Filter) : Json :=
  .obj <| ("column", .str f.column) :: ("operator", .str f.operator.name) ::
    optionalMember "value" .str f.value ++
    if f.values.isEmpty then [] else [("values", .arr (f.values.map .str))]

/-- The deepest nesting of a value that is read at all. -/
def maxValueDepth : Nat := 125

/-- A value to compare with, as text. -/
def decodeValue (v : Json) : Decoded (Option String) :=
  if !v.isSound || v.depth > maxValueDepth then .error .malformed
  else
    match v with
    | .null => .ok none
    | .str s => .ok (some s)
    | .bool _ | .int _ | .float _ => .ok (some v.render)
    | _ => .error (.notScalar v.sorted.render)

/-- What is known of a filter. -/
structure Draft where
  column : Option String := none
  operator : Option Operator := none
  value : Option (Option String) := none
  values : Option (List String) := none

def fields : List (Field Json Draft) := [
  .at "column" Draft.column (fun d a => { d with column := some a }) Json.decodeString,
  .at "operator" Draft.operator (fun d a => { d with operator := some a })
    (fun v => (Json.decodeString v).map Operator.ofName),
  .at "value" Draft.value (fun d a => { d with value := some a }) decodeValue,
  .at "values" Draft.values (fun d a => { d with values := some a })
    (Json.decodeList Json.decodeString)]

def decode : Json → Decoded Filter :=
  Json.decodeRecord fields {} fun d => do
    let column ← Json.require "column" d.column
    let operator ← Json.require "operator" d.operator
    return ⟨column, operator, d.value.join, d.values.getD []⟩

end Filter

/-! ## Attributes -/

namespace Attribute

def encode (a : Attribute) : Json := .obj [("key", .str a.key), ("type", .str a.type.name)]

/-- What is known of an attribute. -/
structure Draft where
  key : Option String := none
  type : Option AttributeType := none

def fields : List (Field Json Draft) := [
  .at "key" Draft.key (fun d a => { d with key := some a }) Json.decodeString,
  .at "type" Draft.type (fun d a => { d with type := some a })
    (Json.decodeNamed AttributeType.names)]

def decode : Json → Decoded Attribute :=
  Json.decodeRecord fields {} fun d => do
    let key ← Json.require "key" d.key
    return ⟨key, d.type.getD .string⟩

end Attribute

/-! ## Outlines -/

namespace Metric

def encode (m : Metric) : Json :=
  .obj <| ("function", .str m.function.name) ::
    optionalMember "column" .str m.column ++ optionalMember "alias" .str m.name

/-- What is known of a metric. -/
structure Draft where
  function : Option MetricFunction := none
  column : Option (Option String) := none
  name : Option (Option String) := none

def fields : List (Field Json Draft) := [
  .at "function" Draft.function (fun d a => { d with function := some a })
    (fun v => (Json.decodeString v).map MetricFunction.ofName),
  .at "column" Draft.column (fun d a => { d with column := some a })
    (Json.decodeOption Json.decodeString),
  .at "alias" Draft.name (fun d a => { d with name := some a })
    (Json.decodeOption Json.decodeString)]

def decode : Json → Decoded Metric :=
  Json.decodeRecord fields {} fun d => do
    let function ← Json.require "function" d.function
    return ⟨function, d.column.join, d.name.join⟩

end Metric

namespace OrderBy

def encode (o : OrderBy) : Json :=
  .obj [("column", .str o.column), ("direction", .str o.direction.name)]

/-- What is known of an order. -/
structure Draft where
  column : Option String := none
  direction : Option Sql.Direction := none

def fields : List (Field Json Draft) := [
  .at "column" Draft.column (fun d a => { d with column := some a }) Json.decodeString,
  .at "direction" Draft.direction (fun d a => { d with direction := some a })
    (Json.decodeNamed Sql.Direction.names)]

def decode : Json → Decoded OrderBy :=
  Json.decodeRecord fields {} fun d => do
    let column ← Json.require "column" d.column
    return ⟨column, d.direction.getD .desc⟩

end OrderBy

namespace Outline

def encode (o : Outline) : Json :=
  .obj [("metrics", .arr (o.metrics.map Metric.encode)),
    ("groupBy", .arr (o.groupBy.map .str)),
    ("orderBy", (o.orderBy.map OrderBy.encode).getD .null),
    ("dateFormat", (o.granularity.map fun g => Json.str g.name).getD .null)]

/-- What is known of an outline. -/
structure Draft where
  metrics : Option (List Metric) := none
  groupBy : Option (List String) := none
  orderBy : Option (Option OrderBy) := none
  granularity : Option (Option Granularity) := none

def fields : List (Field Json Draft) := [
  .at "metrics" Draft.metrics (fun d a => { d with metrics := some a })
    (Json.decodeList Metric.decode),
  .at "groupBy" Draft.groupBy (fun d a => { d with groupBy := some a })
    (Json.decodeList Json.decodeString),
  .at "orderBy" Draft.orderBy (fun d a => { d with orderBy := some a })
    (Json.decodeOption OrderBy.decode),
  .at "dateFormat" Draft.granularity (fun d a => { d with granularity := some a })
    (Json.decodeOption (Json.decodeNamed Granularity.names))]

def decode : Json → Decoded Outline :=
  Json.decodeRecord fields {} fun d =>
    .ok ⟨d.metrics.getD [], d.groupBy.getD [], d.orderBy.join, d.granularity.join⟩

end Outline

/-! ## Websites -/

namespace Website

def encode (w : Website) : Json :=
  .obj <| ("id", .str w.id) :: ("name", .str w.name) :: optionalMember "domain" .str w.domain

/-- What is known of a website. -/
structure Draft where
  id : Option String := none
  name : Option String := none
  domain : Option (Option String) := none

def fields : List (Field Json Draft) := [
  .at "id" Draft.id (fun d a => { d with id := some a }) Json.decodeString,
  .at "name" Draft.name (fun d a => { d with name := some a }) Json.decodeString,
  .at "domain" Draft.domain (fun d a => { d with domain := some a })
    (Json.decodeOption Json.decodeString)]

def decode : Json → Decoded Website :=
  Json.decodeRecord fields {} fun d => do
    let id ← Json.require "id" d.id
    return ⟨id, d.name.getD "", d.domain.join⟩

end Website

end EventReport
