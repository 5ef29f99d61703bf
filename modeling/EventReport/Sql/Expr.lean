/-
Scalar expressions of a statement.

Constants that belong to the statement and values that a user gave are told
apart (`literal` and `value`), so that the values can be written in place or
bound as parameters.
-/
import EventReport.Sql.Literal

namespace EventReport.Sql

/-- A column, with the alias of its relation or nothing. -/
structure ColumnRef where
  relation : String
  name : String
deriving DecidableEq, Repr

namespace ColumnRef

/-- A column written without a relation. -/
def bare (name : String) : ColumnRef := ⟨"", name⟩

def render (c : ColumnRef) : String :=
  if c.relation.isEmpty then c.name else c.relation ++ "." ++ c.name

end ColumnRef

inductive Comparison where
  | eq
  | ne
deriving DecidableEq, Repr

def Comparison.symbol : Comparison → String
  | .eq => "="
  | .ne => "!="

inductive Aggregation where
  /-- The number of rows, whatever the argument. -/
  | countRows
  | countDistinct
  | sum
  | average
  /-- The approximate median. -/
  | median
  | min
  | max
  /-- The first text that is not null in the order of a column. -/
  | firstText (orderBy : ColumnRef)
deriving DecidableEq, Repr

inductive Expr where
  | column (c : ColumnRef)
  /-- A constant of the statement. -/
  | literal (l : Literal)
  /-- A value that the user gave. -/
  | value (l : Literal)
  /-- A variable of the dashboard tool, in double braces. -/
  | placeholder (name : String)
  | compare (op : Comparison) (left right : Expr)
  | like (e pattern : Expr) (negated : Bool)
  | among (e : Expr) (values : List Expr)
  /-- The conjunction of the parts; true if there are none. -/
  | all (parts : List Expr)
  | isNull (e : Expr)
  | isNotNull (e : Expr)
  /-- The result of the first branch whose condition holds. -/
  | choose (branches : List (Expr × Expr)) (otherwise : Option Expr)
  | call (function : String) (args : List Expr)
  | cast (e : Expr) (type : String)
  /-- An aggregate; without an argument it counts rows. -/
  | aggregate (f : Aggregation) (arg : Option Expr)
  /-- Whether the table, under the alias, has a row that meets the conditions. -/
  | hasRow (negated : Bool) (table relation : String) (conditions : List Expr)

namespace Expr

/-- The column of a relation. -/
def of (relation name : String) : Expr := column ⟨relation, name⟩

/-- A text constant of the statement. -/
def text (s : String) : Expr := literal (.text s)

def eq (left right : Expr) : Expr := compare .eq left right

def ne (left right : Expr) : Expr := compare .ne left right

def countRows : Expr := aggregate .countRows none

mutual

/-- Whether the value is computed from a group of rows: an aggregate, or a call or cast around
one. -/
def isAggregate : Expr → Bool
  | aggregate _ _ => true
  | call _ args => anyAggregate args
  | cast e _ => isAggregate e
  | _ => false

def anyAggregate : List Expr → Bool
  | [] => false
  | e :: es => isAggregate e || anyAggregate es

end

end Expr

end EventReport.Sql
