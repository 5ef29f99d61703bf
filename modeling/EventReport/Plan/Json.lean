/-
The JSON form of a compiled report.
-/
import EventReport.Json.Printer
import EventReport.Plan.Basic

namespace EventReport

namespace Sql

/-- The value itself, as JSON. -/
def Literal.encode : Literal → Json
  | .null => .null
  | .bool b => .bool b
  | .int i => .int i
  | .float x => .float x
  | .text s => .str s

def Binding.encode (b : Binding) : Json := .obj [("name", .str b.name), ("value", b.value.encode)]

end Sql

/-- The two texts and the values of the parameters; the warnings are not written. -/
def Compiled.encode (c : Compiled) : Json :=
  .obj [("sql", .str c.sql), ("template", .str c.template),
    ("params", .arr (c.bindings.map Sql.Binding.encode))]

end EventReport
