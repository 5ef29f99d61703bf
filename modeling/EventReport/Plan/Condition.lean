/-
What becomes of a filter.

A filter on a column of the registry is a condition of the base statement.  A
filter on an attribute asks whether the table of attributes has a row for the
event, so that it never repeats events; it belongs to the outer statement.
Otherwise the filter is skipped, and a warning says why.
-/
import EventReport.Plan.AttributeRow
import EventReport.Plan.Scope
import EventReport.Text.Pattern

namespace EventReport

open Sql

/-- The operators that compare, once it is settled how. -/
inductive Comparator where
  | equals
  | notEquals
  | contains
  | notContains
  | startsWith
  | endsWith
  | oneOf
  | isNull
  | isNotNull
deriving DecidableEq, Repr

namespace Comparator

/-- The value of a user as an expression. -/
def operand (numeric : Bool) (value : String) : Expr := .value (.ofValue numeric value)

/-- A match against a pattern; a number is matched as text. -/
def like (target : Expr) (numeric : Bool) (pattern : String) (negated : Bool) : Expr :=
  .like (if numeric then .cast target "STRING" else target) (.value (.text pattern)) negated

/-- The comparison of `target` with the values, of which all but `oneOf` take the first. -/
def compare (target : Expr) (numeric : Bool) (values : List String) : Comparator → Expr
  | equals => .eq target (operand numeric (values.headD ""))
  | notEquals => .ne target (operand numeric (values.headD ""))
  | contains => like target numeric (Text.Pattern.containing (values.headD "")) false
  | notContains => like target numeric (Text.Pattern.containing (values.headD "")) true
  | startsWith => like target numeric (Text.Pattern.startingWith (values.headD "")) false
  | endsWith => like target numeric (Text.Pattern.endingWith (values.headD "")) false
  | oneOf => .among target (values.map (operand numeric))
  | isNull => .isNull target
  | isNotNull => .isNotNull target

/-- For an attribute, whether a row must be absent, and how its value must compare. An event without
the attribute passes what asks for absence. -/
def existence : Comparator → Bool × Option Comparator
  | isNull => (true, none)
  | isNotNull => (false, none)
  | notEquals => (true, some equals)
  | notContains => (true, some contains)
  | c => (false, some c)

end Comparator

/-- How a filter's operator compares, if it does: an unknown one compares for equality. -/
def Operator.comparator? : Operator → Option Comparator
  | equals => some .equals
  | notEquals => some .notEquals
  | contains => some .contains
  | notContains => some .notContains
  | isNull => some .isNull
  | isNotNull => some .isNotNull
  | startsWith => some .startsWith
  | endsWith => some .endsWith
  | oneOf => some .oneOf
  | interactive => none
  | unknown _ => some .equals

/-- What becomes of a filter; `note` is the warning that goes with a condition. -/
inductive Fate where
  /-- A condition of the base statement. -/
  | base (c : Condition) (note : Option Warning)
  /-- A condition of the outer statement. -/
  | outer (c : Condition) (note : Option Warning)
  | skipped (w : Warning)

namespace Fate

def base? : Fate → Option Condition
  | base c _ => some c
  | _ => none

def outer? : Fate → Option Condition
  | outer c _ => some c
  | _ => none

def warning? : Fate → Option Warning
  | base _ note => note
  | outer _ note => note
  | skipped w => some w

end Fate

namespace Filter

/-- The warning that skips a filter whose operator needs a value and which has none. -/
def missingValue? (f : Filter) : Option Warning :=
  if f.operator.requiresValue && f.comparands.isEmpty then
    some (.missingValue f.column f.operator.name)
  else none

/-- The note on a filter whose operator is unknown. -/
def note? (f : Filter) : Option Warning :=
  match f.operator with
  | .unknown spelling => some (.unknownOperator f.column spelling)
  | _ => none

/-- The condition on a column of the base statement. -/
def columnCondition (f : Filter) (c : Column) : Condition :=
  match f.operator.comparator? with
  | none => .optional (.placeholder c.name)
  | some comparator =>
    .always (comparator.compare (.column (.bare c.name)) c.type.isNumeric f.comparands)

/-- The condition on an attribute: whether its table has, or has not, a row for the event. -/
def attributeCondition (f : Filter) (settings : Settings) (a : Attribute)
    (comparator : Comparator) : Condition :=
  let (absent, match?) := comparator.existence
  let comparison := match?.map fun c =>
    c.compare (AttributeRow.column a.type.valueColumn) (a.type == .number) f.comparands
  .always <| .hasRow absent settings.eventDataTable AttributeRow.relation <|
    AttributeRow.ofBaseEvent :: AttributeRow.hasKey a :: comparison.toList

/-- What becomes of the filter. -/
def fate (settings : Settings) (scope : Scope) (f : Filter) : Fate :=
  match scope.resolve f.column with
  | none => .skipped (.unknownColumn f.column .filter)
  | some (.column c) =>
    match f.missingValue? with
    | some w => .skipped w
    | none => .base (f.columnCondition c) f.note?
  | some (.attribute a) =>
    match f.operator.comparator? with
    | none => .skipped (.interactiveAttribute f.column)
    | some comparator =>
      match f.missingValue? with
      | some w => .skipped w
      | none => .outer (f.attributeCondition settings a comparator) f.note?

end Filter

end EventReport
