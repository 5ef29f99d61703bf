/-
Filters of a report.

A filter names a column, an operator and one value or a list of values.  An
operator that is not known is kept as it was spelled, so that one bad filter does
not spoil the report.
-/
import EventReport.Text.Caseless

namespace EventReport

inductive Operator where
  | equals
  | notEquals
  | contains
  | notContains
  | isNull
  | isNotNull
  | startsWith
  | endsWith
  /-- One of a list of values. -/
  | oneOf
  /-- No comparison: the column becomes a variable of the dashboard tool. -/
  | interactive
  | unknown (spelling : String)
deriving DecidableEq, Repr

namespace Operator

def name : Operator → String
  | equals => "equals"
  | notEquals => "not-equals"
  | contains => "contains"
  | notContains => "not-contains"
  | isNull => "is-null"
  | isNotNull => "is-not-null"
  | startsWith => "starts-with"
  | endsWith => "ends-with"
  | oneOf => "in"
  | interactive => "interactive"
  | unknown spelling => spelling

/-- The operator that a spelling names: in any case, with blanks around it, and with underscores in
the place of hyphens. -/
def ofName (spelling : String) : Operator :=
  match Text.nameKey '_' '-' spelling with
  | "equals" | "eq" | "=" => equals
  | "not-equals" | "ne" | "!=" | "<>" => notEquals
  | "contains" | "like" => contains
  | "not-contains" | "not-like" => notContains
  | "is-null" => isNull
  | "is-not-null" => isNotNull
  | "starts-with" => startsWith
  | "ends-with" => endsWith
  | "in" => oneOf
  | "interactive" => interactive
  | _ => unknown spelling

def isKnown : Operator → Bool
  | unknown _ => false
  | _ => true

/-- Whether the operator compares with a value. -/
def requiresValue : Operator → Bool
  | isNull | isNotNull | interactive => false
  | _ => true

end Operator

structure Filter where
  column : String
  operator : Operator
  value : Option String := none
  values : List String := []
deriving DecidableEq, Repr

namespace Filter

/-- The values to compare with: the list, or the single value where the list is empty. -/
def comparands (f : Filter) : List String :=
  if f.values.isEmpty then f.value.toList else f.values

def equals (column value : String) : Filter := { column, operator := .equals, value := some value }

def startsWith (column value : String) : Filter :=
  { column, operator := .startsWith, value := some value }

def isNull (column : String) : Filter := { column, operator := .isNull }

def oneOf (column : String) (values : List String) : Filter :=
  { column, operator := .oneOf, values }

def interactive (column : String) : Filter := { column, operator := .interactive }

end Filter

end EventReport
