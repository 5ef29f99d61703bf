/-
Literals of a statement.

A literal is a constant of the statement or a value that a user gave.  A user's
value is text; on a numeric column it becomes a number where it reads as one and
stays text otherwise.
-/
import EventReport.Decimal.Layout
import EventReport.Decimal.Numeral
import EventReport.Text.Quoted

namespace EventReport.Sql

inductive Literal where
  | null
  | bool (b : Bool)
  | int (i : Int)
  | float (x : Float)
  | text (s : String)

namespace Literal

/-- The literal as SQL text. A number that is not finite has none and is written as NULL. -/
def render : Literal → String
  | null => "NULL"
  | bool b => if b then "TRUE" else "FALSE"
  | int i => toString i
  | float x => if x.isFinite then NumberLayout.sql.render x else "NULL"
  | text s => Text.quote s

/-- The literal for a value compared with a column. Blanks around a number do not count; text is
taken as it is. -/
def ofValue (numeric : Bool) (value : String) : Literal :=
  if numeric then
    let trimmed := Text.trimChars value.toList
    match Numeral.int? trimmed with
    | some i => int i
    | none =>
      match Numeral.decimal? trimmed with
      | some x => float x
      | none => text value
  else text value

/-- The warehouse's name for the type of a bound value. -/
def typeName : Literal → String
  | null => "STRING"
  | bool _ => "BOOL"
  | int _ => "INT64"
  | float _ => "FLOAT64"
  | text _ => "STRING"

end Literal

end EventReport.Sql
