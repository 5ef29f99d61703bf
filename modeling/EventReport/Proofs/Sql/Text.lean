/-
# The text of each construct

The text of a statement is its lines, joined; the text of a line is that of its
pieces; and the text of an expression is made of the texts of its parts and of
fixed text around them.  The equations below say how, one for each construct,
with the characters that separate the parts in sight: it is at these that the text
will be cut into tokens again.
-/
import EventReport.Sql.Statement
import EventReport.Text.Lines
import EventReport.Text.Placeholder

namespace EventReport.Sql

open Text

/-- Texts with a separator between each two. -/
def joined (separator : List Char) : List (List Char) → List Char
  | [] => []
  | [x] => x
  | x :: y :: xs => x ++ separator ++ joined separator (y :: xs)

theorem joined_cons_cons (separator x y : List Char) (xs : List (List Char)) :
    joined separator (x :: y :: xs) = x ++ separator ++ joined separator (y :: xs) := rfl

theorem toList_intercalate (separator : String) (xs : List String) :
    (separator.intercalate xs).toList = joined separator.toList (xs.map String.toList) := by
  induction xs with
  | nil => simp [joined]
  | cons x xs ih =>
    cases xs with
    | nil => simp [joined]
    | cons y ys =>
      rw [String.intercalate_cons_cons, String.toList_append, String.toList_append, ih]
      rfl

namespace Piece

/-- The text of pieces, with the values in place. -/
def chars (ps : List Piece) : List Char := ps.flatMap inline

theorem chars_nil : chars [] = [] := rfl

theorem chars_cons (p : Piece) (ps : List Piece) : chars (p :: ps) = p.inline ++ chars ps := rfl

theorem chars_append (ps qs : List Piece) : chars (ps ++ qs) = chars ps ++ chars qs :=
  List.flatMap_append

theorem chars_fixed (s : String) : chars [fixed s] = s.toList := by
  simp [chars, inline]

theorem inline_fixed (s : String) : (fixed s).inline = s.toList := rfl

theorem chars_value (l : Literal) : chars [value l] = l.render.toList := by
  simp [chars, inline]

theorem chars_separated (s : String) (parts : List (List Piece)) :
    chars (separated s parts) = joined s.toList (parts.map chars) := by
  induction parts with
  | nil => rfl
  | cons a parts ih =>
    cases parts with
    | nil => simp [separated, joined]
    | cons b parts =>
      have hcons : separated s (a :: b :: parts) = a ++ fixed s :: separated s (b :: parts) := by
        simp [separated, List.intercalate]
      rw [hcons, chars_append, chars_cons, ih, inline_fixed, List.map_cons, List.map_cons,
        List.map_cons, joined_cons_cons, List.append_assoc]

end Piece

open Piece (fixed chars_cons chars_append chars_separated chars_fixed inline_fixed)

/-! ## Expressions -/

namespace Expr

attribute [local simp] pieces

/-- The text of an expression. -/
def chars (e : Expr) : List Char := Piece.chars e.pieces

theorem chars_listPieces (es : List Expr) : (listPieces es).map Piece.chars = es.map chars := by
  rw [listPieces_eq_map, List.map_map]
  rfl

theorem chars_column (c : ColumnRef) : (column c).chars = c.render.toList := chars_fixed _

theorem chars_literal (l : Literal) : (literal l).chars = l.render.toList := chars_fixed _

theorem chars_value (l : Literal) : (value l).chars = l.render.toList := Piece.chars_value l

theorem chars_compare (op : Comparison) (left right : Expr) :
    (compare op left right).chars =
      left.chars ++ ' ' :: (op.symbol.toList ++ ' ' :: right.chars) := by
  simp [chars, pieces, chars_append, chars_cons, inline_fixed]

theorem chars_like (e pattern : Expr) (negated : Bool) :
    (like e pattern negated).chars =
      e.chars ++ ' ' :: ((if negated then "NOT LIKE".toList else "LIKE".toList) ++
        ' ' :: pattern.chars) := by
  cases negated <;> simp [chars, pieces, chars_append, chars_cons, inline_fixed]

theorem chars_among (e : Expr) (values : List Expr) :
    (among e values).chars =
      e.chars ++ ' ' :: ("IN ".toList ++ '(' :: (joined ", ".toList (values.map chars) ++
        ')' :: [])) := by
  simp [chars, pieces, chars_listPieces, chars_append, chars_cons, inline_fixed, chars_separated,
    Piece.chars_nil]

theorem chars_all {parts : List Expr} (h : parts ≠ []) :
    (all parts).chars = joined " AND ".toList (parts.map chars) := by
  cases parts with
  | nil => exact absurd rfl h
  | cons e es =>
    rw [List.map_cons, ← chars_listPieces]
    exact chars_separated " AND " (e.pieces :: listPieces es)

theorem chars_isNull (e : Expr) : (isNull e).chars = e.chars ++ ' ' :: "IS NULL".toList := by
  simp [chars, pieces, chars_append, chars_fixed]

theorem chars_isNotNull (e : Expr) :
    (isNotNull e).chars = e.chars ++ ' ' :: "IS NOT NULL".toList := by
  simp [chars, pieces, chars_append, chars_fixed]

/-- A conditional expression of one branch. -/
theorem chars_choose_one (condition result : Expr) :
    (choose [(condition, result)] none).chars =
      "CASE WHEN".toList ++ ' ' :: (condition.chars ++ ' ' :: ("THEN".toList ++
        ' ' :: (result.chars ++ ' ' :: "END".toList))) := by
  simp [chars, pieces, branchPieces, otherwisePieces, chars_append, chars_cons, inline_fixed,
    Piece.chars_nil]

theorem chars_call (function : String) (args : List Expr) :
    (call function args).chars =
      function.toList ++ '(' :: (joined ", ".toList (args.map chars) ++ ')' :: []) := by
  simp [chars, pieces, chars_listPieces, chars_append, chars_cons, inline_fixed, chars_separated,
    Piece.chars_nil]

theorem chars_cast (e : Expr) (type : String) :
    (cast e type).chars =
      "CAST".toList ++ '(' :: (e.chars ++ ' ' :: ("AS".toList ++ ' ' :: (type.toList ++
        ')' :: []))) := by
  simp [chars, pieces, chars_append, chars_cons, inline_fixed, Piece.chars_nil]

theorem chars_hasRow (negated : Bool) (table relation : String) (conditions : List Expr) :
    (hasRow negated table relation conditions).chars =
      (if negated then "NOT EXISTS ".toList else "EXISTS ".toList) ++
        '(' :: ("SELECT 1 FROM".toList ++ ' ' :: ((quoteTable table).toList ++
          ' ' :: (relation.toList ++ ' ' :: ("WHERE".toList ++
            ' ' :: (joined " AND ".toList (conditions.map chars) ++ ')' :: []))))) := by
  cases negated <;>
    simp [chars, pieces, chars_listPieces, chars_append, chars_cons, inline_fixed, chars_separated,
      Piece.chars_nil]

end Expr

/-! ## Aggregates -/

namespace Aggregation

/-- What stands before the argument: a text and the character that separates it. -/
def opening : Aggregation → String × Char
  | countRows => ("", ' ')
  | countDistinct => ("COUNT(DISTINCT", ' ')
  | sum => ("SUM", '(')
  | average => ("AVG", '(')
  | median => ("APPROX_QUANTILES", '(')
  | min => ("MIN", '(')
  | max => ("MAX", '(')
  | firstText _ => ("STRING_AGG", '(')

/-- What stands after the argument: the character that separates it and a text. -/
def closing : Aggregation → Char × List Char
  | median => (',', " 2)[OFFSET(1)]".toList)
  | firstText orderBy =>
    (',', ' ' :: ("',' ORDER BY".toList ++ ' ' :: (orderBy.render.toList ++
      ' ' :: ("LIMIT 1".toList ++ ')' :: []))))
  | _ => (')', [])

/-- Texts are joined with a comma, which needs no escape. -/
theorem pieces_firstText (arg : List Piece) (orderBy : ColumnRef) :
    (firstText orderBy).pieces arg = fixed "STRING_AGG(" :: arg ++
      [fixed (", " ++ "','" ++ " ORDER BY " ++ orderBy.render ++ " LIMIT 1)")] := by
  have hcomma : (Literal.text ",").render = "','" := by decide
  rw [pieces, hcomma]

end Aggregation

theorem Expr.chars_aggregate {f : Aggregation} (hf : f ≠ .countRows) (arg : Expr) :
    (aggregate f (some arg)).chars =
      f.opening.1.toList ++ f.opening.2 :: (arg.chars ++ f.closing.1 :: f.closing.2) := by
  cases f with
  | countRows => exact absurd rfl hf
  | firstText orderBy =>
    rw [chars, pieces, Aggregation.pieces_firstText]
    simp [chars, Aggregation.opening, Aggregation.closing, chars_append, chars_cons, inline_fixed,
      Piece.chars_nil]
  | _ =>
    simp [chars, pieces, Aggregation.pieces, Aggregation.opening, Aggregation.closing, chars_append,
      chars_cons, inline_fixed, Piece.chars_nil]

/-! ## Lines -/

/-- The text of a line. -/
def Line.chars (l : Line) : List Char := Piece.chars l

/-- The text of an item. -/
def Item.chars (i : Item) : List Char := Piece.chars i.pieces

theorem Item.chars_named (e : Expr) (name : String) :
    (Item.expr e (some name)).chars = e.chars ++ ' ' :: ("AS".toList ++ ' ' :: name.toList) := by
  simp [Item.chars, Item.pieces, Expr.chars, chars_append, chars_fixed]

theorem Line.chars_indent (l : Line) : l.indent.chars = ' ' :: ' ' :: l.chars := by
  simp [Line.chars, Line.indent, chars_cons, inline_fixed]

namespace Query

/-- The text of a statement is its lines. -/
theorem toList_sql (q : Query) : q.sql.toList = Text.joinLines (q.lines.map Line.chars) := by
  have hjoin : ∀ ls : List (List Char), joined ['\n'] ls = Text.joinLines ls := by
    intro ls
    induction ls with
    | nil => rfl
    | cons x xs ih =>
      cases xs with
      | nil => rfl
      | cons y ys =>
        rw [joined_cons_cons, ih]
        simp [Text.joinLines]
  rw [sql, String.toList_ofList]
  show Piece.chars q.pieces = _
  rw [Query.pieces, chars_separated]
  exact hjoin _

end Query

end EventReport.Sql
