/-
The text of a statement.

A statement is laid out as lines, and a line as pieces: fixed text and the places
where a user's value goes.  The two texts of a statement are two readings of the
same pieces, one with each value written in place and one with the values
replaced by numbered parameters.

The layout matters to readers of the text: each condition has a line of its own
that begins with WHERE or AND, a nested statement is indented by two blanks, and
the outermost clauses begin at the margin.
-/
import EventReport.Sql.Query
import EventReport.Text.Identifier

namespace EventReport.Sql

inductive Piece where
  | fixed (s : String)
  /-- The place of a user's value. -/
  | value (l : Literal)
  /-- A user's value that is counted among the parameters and not shown. -/
  | unshown (l : Literal)

abbrev Line := List Piece

namespace Piece

/-- The pieces of several parts with a separator between each two. -/
def separated (separator : String) (parts : List (List Piece)) : List Piece :=
  [fixed separator].intercalate parts

/-- The values of the pieces, none of them shown. -/
def unshownValues (pieces : List Piece) : List Piece :=
  pieces.filterMap fun
    | fixed _ => none
    | value l => some (unshown l)
    | unshown l => some (unshown l)

end Piece

open Piece (fixed separated)

/-! ## Expressions -/

/-- The pieces of an aggregate call, from those of its argument. A row count does not show its
argument. -/
def Aggregation.pieces (arg : List Piece) : Aggregation → List Piece
  | .countRows => Piece.unshownValues arg ++ [fixed "COUNT(*)"]
  | .countDistinct => fixed "COUNT(DISTINCT " :: arg ++ [fixed ")"]
  | .sum => fixed "SUM(" :: arg ++ [fixed ")"]
  | .average => fixed "AVG(" :: arg ++ [fixed ")"]
  | .median => fixed "APPROX_QUANTILES(" :: arg ++ [fixed ", 2)[OFFSET(1)]"]
  | .min => fixed "MIN(" :: arg ++ [fixed ")"]
  | .max => fixed "MAX(" :: arg ++ [fixed ")"]
  | .firstText orderBy =>
    fixed "STRING_AGG(" :: arg ++
      [fixed (", " ++ (Literal.text ",").render ++ " ORDER BY " ++ orderBy.render ++ " LIMIT 1)")]

namespace Expr

mutual

/-- The pieces of an expression, in the order of its text. -/
def pieces : Expr → List Piece
  | column c => [fixed c.render]
  | literal l => [fixed l.render]
  | value l => [.value l]
  | placeholder name => [fixed ("\x7b\x7b" ++ name ++ "\x7d\x7d")]
  | compare op left right => pieces left ++ fixed (" " ++ op.symbol ++ " ") :: pieces right
  | like e pattern negated =>
    pieces e ++ fixed (if negated then " NOT LIKE " else " LIKE ") :: pieces pattern
  | among e values => pieces e ++ fixed " IN (" :: separated ", " (listPieces values) ++ [fixed ")"]
  | all [] => [fixed "TRUE"]
  | all (e :: es) => separated " AND " (pieces e :: listPieces es)
  | isNull e => pieces e ++ [fixed " IS NULL"]
  | isNotNull e => pieces e ++ [fixed " IS NOT NULL"]
  | choose branches otherwise =>
    fixed "CASE" :: branchPieces branches ++ otherwisePieces otherwise ++ [fixed " END"]
  | call function args => fixed (function ++ "(") :: separated ", " (listPieces args) ++ [fixed ")"]
  | cast e type => fixed "CAST(" :: pieces e ++ [fixed (" AS " ++ type ++ ")")]
  | aggregate _ none => [fixed "COUNT(*)"]
  | aggregate f (some arg) => f.pieces (pieces arg)
  | hasRow negated table relation conditions =>
    fixed ((if negated then "NOT EXISTS" else "EXISTS") ++ " (SELECT 1 FROM " ++
        Text.quoteTable table ++ " " ++ relation ++ " WHERE ")
      :: separated " AND " (listPieces conditions) ++ [fixed ")"]

def listPieces : List Expr → List (List Piece)
  | [] => []
  | e :: es => pieces e :: listPieces es

def branchPieces : List (Expr × Expr) → List Piece
  | [] => []
  | (condition, result) :: branches =>
    fixed " WHEN " :: pieces condition ++ fixed " THEN " :: pieces result ++ branchPieces branches

def otherwisePieces : Option Expr → List Piece
  | none => []
  | some e => fixed " ELSE " :: pieces e

end

theorem listPieces_eq_map (es : List Expr) : listPieces es = es.map pieces := by
  induction es with
  | nil => rfl
  | cons e es ih => simp [listPieces, ih]

end Expr

/-! ## Clauses -/

namespace Line

/-- The line one level further in. -/
def indent (l : Line) : Line := fixed "  " :: l

end Line

def Item.pieces : Item → List Piece
  | .star relation => [fixed (if relation.isEmpty then "*" else relation ++ ".*")]
  | .expr e none => e.pieces
  | .expr e (some name) => e.pieces ++ [fixed (" AS " ++ name)]

/-- The items of a select list on lines of their own, each but the last with a comma. -/
def Item.lines : List Item → List Line
  | [] => []
  | [i] => [Line.indent i.pieces]
  | i :: is => Line.indent (i.pieces ++ [fixed ","]) :: Item.lines is

/-- The select list. Only the lone star for all relations stands on the line of the keyword. -/
def Item.selectLines : List Item → List Line
  | [.star ""] => [[fixed "SELECT *"]]
  | items => [fixed "SELECT"] :: Item.lines items

/-- The lines of one condition. The first of a block carries the WHERE; an optional one cannot, so a
condition that always holds is put before it. -/
def Condition.lines (first : Bool) : Condition → List Line
  | .always e => [fixed (if first then "WHERE " else "  AND ") :: e.pieces]
  | .optional e =>
    (if first then [[fixed "WHERE 1 = 1"]] else []) ++
      [fixed "  [[AND " :: e.pieces ++ [fixed "]]"]]

/-- The WHERE block. -/
def Condition.blockLines : List Condition → List Line
  | [] => []
  | c :: cs => c.lines true ++ cs.flatMap (Condition.lines false)

namespace Query

def groupLines : List Expr → List Line
  | [] => []
  | es => [fixed "GROUP BY " :: separated ", " (es.map Expr.pieces)]

def orderLines : List SortKey → List Line
  | [] => []
  | ks => [[fixed ("ORDER BY " ++ ", ".intercalate (ks.map SortKey.render))]]

def limitLines : Option Nat → List Line
  | none => []
  | some n => [[fixed ("LIMIT " ++ toString n)]]

mutual

/-- The lines of a statement, a line feed belonging between each two. -/
def lines : Query → List Line
  | ⟨ctes, select, source, joins, conditions, groupBy, orderBy, limit⟩ =>
    cteLines "WITH " ctes ++ Item.selectLines select ++ sourceLines "FROM " source ++
      joinLines joins ++ Condition.blockLines conditions ++ groupLines groupBy ++
      orderLines orderBy ++ limitLines limit

/-- The named statements; `opening` stands before the first name. -/
def cteLines (opening : String) : List (Named Query) → List Line
  | [] => []
  | ⟨name, query⟩ :: rest =>
    [fixed (opening ++ name ++ " AS (")] :: (lines query).map Line.indent ++
      [fixed (if rest.isEmpty then ")" else "),")] :: cteLines "" rest

/-- What the statement reads from, after a keyword; a nested statement is a block of its own. -/
def sourceLines (keyword : String) : Source Query → List Line
  | .table name relation => [[fixed (keyword ++ Text.quoteTable name ++ " " ++ relation)]]
  | .named name => [[fixed (keyword ++ name)]]
  | .nested query => [fixed (keyword ++ "(")] :: (lines query).map Line.indent ++ [[fixed ")"]]
  | .derived query relation =>
    [fixed (keyword ++ "(")] :: (lines query).map Line.indent ++ [[fixed (") " ++ relation)]]

def joinLines : List (Join Query) → List Line
  | [] => []
  | ⟨kind, source, on⟩ :: rest =>
    sourceLines (kind.keywords ++ " ") source ++ (fixed "  ON " :: on.pieces) :: joinLines rest

end

/-- All pieces of the statement, line feeds included. -/
def pieces (q : Query) : List Piece := separated "\n" q.lines

end Query

/-! ## The two texts -/

namespace Piece

/-- A piece with its value written in place. -/
def inline : Piece → List Char
  | fixed s => s.toList
  | value l => l.render.toList
  | unshown _ => []

/-- The pieces with the values, counted from `n`, replaced by parameters. -/
def numbered : Nat → List Piece → List Char
  | _, [] => []
  | n, fixed s :: rest => s.toList ++ numbered n rest
  | n, value _ :: rest => ("@p" ++ toString n).toList ++ numbered (n + 1) rest
  | n, unshown _ :: rest => numbered (n + 1) rest

/-- The values that the pieces bind, in order. -/
def values (pieces : List Piece) : List Literal :=
  pieces.filterMap fun
    | fixed _ => none
    | value l => some l
    | unshown l => some l

end Piece

/-- A value bound to a parameter of a template. -/
structure Binding where
  name : String
  value : Literal

namespace Query

/-- The statement with every value written in place. -/
def sql (q : Query) : String := String.ofList (q.pieces.flatMap Piece.inline)

/-- The statement with every value replaced by a parameter `@p0`, `@p1`, … -/
def template (q : Query) : String := String.ofList (Piece.numbered 0 q.pieces)

/-- The values of the parameters. -/
def bindings (q : Query) : List Binding :=
  (Piece.values q.pieces).zipIdx.map fun (l, n) => ⟨"p" ++ toString n, l⟩

end Query

end EventReport.Sql
