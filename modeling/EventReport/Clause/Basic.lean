/-
Filters in a line of SQL.

A clause is a whole line: a connective and one predicate of a known shape, in
brackets if it is optional.  Column names and literals are kept as they were
spelled, and a clause is written in one way only.
-/
import EventReport.Text.Caseless
import EventReport.Text.Placeholder

namespace EventReport

inductive Connective where
  | where_
  | and_
deriving DecidableEq, Repr

def Connective.keyword : Connective → String
  | .where_ => "WHERE"
  | .and_ => "AND"

/-- A column as it is spelled, with its qualifier. -/
structure ColumnName where
  spelling : List Char
deriving DecidableEq, Repr

namespace ColumnName

/-- What follows the last point. -/
def unqualified (cs : List Char) : List Char := (cs.reverse.takeWhile (· != '.')).reverse

def trimBackticks (cs : List Char) : List Char :=
  ((cs.dropWhile (· == '\x60')).reverse.dropWhile (· == '\x60')).reverse

/-- The name without qualifier and backticks. -/
def name (c : ColumnName) : List Char := trimBackticks (unqualified c.spelling)

/-- Whether the column has the name, in any case of its ASCII letters. -/
def isNamed (c : ColumnName) (column : List Char) : Bool := Text.sameCaseless c.name column

end ColumnName

inductive Predicate where
  | equals (column : ColumnName) (value : List Char)
  | oneOf (column : ColumnName) (values : List (List Char))
  | like (column : ColumnName) (pattern : List Char)
  /-- A placeholder in the place of a whole predicate. -/
  | placeholder (name : List Char)
  /-- A column compared with a placeholder. -/
  | equalsPlaceholder (column : ColumnName) (name : List Char)
  /-- The date of a column compared with a placeholder. -/
  | dateEqualsPlaceholder (column : ColumnName) (name : List Char)
deriving DecidableEq, Repr

namespace Predicate

/-- The column that is compared with literals. -/
def literalColumn? : Predicate → Option ColumnName
  | equals column _ | oneOf column _ | like column _ => some column
  | placeholder _ | equalsPlaceholder _ _ | dateEqualsPlaceholder _ _ => none

/-- The name of the placeholder. -/
def placeholder? : Predicate → Option (List Char)
  | placeholder name | equalsPlaceholder _ name | dateEqualsPlaceholder _ name => some name
  | equals _ _ | oneOf _ _ | like _ _ => none

def render : Predicate → List Char
  | equals column value => column.spelling ++ " = ".toList ++ value
  | oneOf column values =>
    column.spelling ++ " IN (".toList ++ [',', ' '].intercalate values ++ [')']
  | like column pattern => column.spelling ++ " LIKE ".toList ++ pattern
  | placeholder name => Text.Placeholder.write name
  | equalsPlaceholder column name => column.spelling ++ " = ".toList ++ Text.Placeholder.write name
  | dateEqualsPlaceholder column name =>
    "DATE(".toList ++ column.spelling ++ ") = ".toList ++ Text.Placeholder.write name

end Predicate

structure Clause where
  connective : Connective
  /-- In brackets, so that the dashboard tool drops it while its variable is unset. -/
  optional : Bool
  predicate : Predicate
deriving DecidableEq, Repr

namespace Clause

def render (c : Clause) : List Char :=
  let bare := c.connective.keyword.toList ++ ' ' :: c.predicate.render
  if c.optional then '[' :: '[' :: bare ++ [']', ']'] else bare

end Clause

end EventReport
