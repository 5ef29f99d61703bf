/-
Select statements.

The clauses of a statement are kept as values, in the order in which they are
written.  A statement may read from other statements: from named ones before it
(common table expressions) and from nested ones.
-/
import EventReport.Sql.Expr

namespace EventReport.Sql

inductive Direction where
  | asc
  | desc
deriving DecidableEq, Repr

def Direction.keyword : Direction → String
  | .asc => "ASC"
  | .desc => "DESC"

/-- One item of a select list. -/
inductive Item where
  /-- All columns, of one relation or (if it is empty) of all. -/
  | star (relation : String)
  | expr (e : Expr) (name : Option String)

namespace Item

/-- The name under which the item shows in the result, where it has one. -/
def outputName? : Item → Option String
  | star _ => none
  | expr _ (some name) => some name
  | expr (.column c) none => some c.name
  | expr _ none => none

end Item

/-- One line of a WHERE block. -/
inductive Condition where
  | always (e : Expr)
  /-- In brackets, so that the dashboard tool drops it while its variable is unset. -/
  | optional (e : Expr)

def Condition.expr : Condition → Expr
  | always e => e
  | optional e => e

/-- What a sort key refers to. -/
inductive SortTarget where
  | output (name : String)
  /-- The place in the select list, from one. -/
  | position (n : Nat)
deriving DecidableEq, Repr

def SortTarget.render : SortTarget → String
  | output name => name
  | position n => toString n

structure SortKey where
  target : SortTarget
  direction : Direction
deriving DecidableEq, Repr

def SortKey.render (k : SortKey) : String := k.target.render ++ " " ++ k.direction.keyword

inductive JoinKind where
  | inner
  | left
deriving DecidableEq, Repr

def JoinKind.keywords : JoinKind → String
  | .inner => "INNER JOIN"
  | .left => "LEFT JOIN"

/-- What a statement of type `Q` reads from. -/
inductive Source (Q : Type) where
  | table (name relation : String)
  /-- A statement named before this one. -/
  | named (name : String)
  | nested (query : Q)
  | derived (query : Q) (relation : String)

structure Named (Q : Type) where
  name : String
  query : Q

structure Join (Q : Type) where
  kind : JoinKind
  source : Source Q
  on : Expr

structure Query where
  ctes : List (Named Query) := []
  select : List Item := []
  source : Source Query
  joins : List (Join Query) := []
  conditions : List Condition := []
  groupBy : List Expr := []
  orderBy : List SortKey := []
  limit : Option Nat := none

namespace Query

/-- The output names of the select list, in order. -/
def outputNames (q : Query) : List String := q.select.filterMap Item.outputName?

end Query

end EventReport.Sql
