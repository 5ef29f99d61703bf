/-
# Clauses that differ in quoted texts only

Two runs of lines are alike when they are of one length and alike line by line.
Each clause of a statement passes the relation on from its items, conditions and
keys to its lines; a separator that stands at the end of one line and not of
another (the comma of a select list) is settled by the length alone.
-/
import EventReport.Proofs.Sql.Alike

namespace EventReport

open Text Sql

/-- Runs of lines that are alike one by one. -/
abbrev LinesAlike (S : String → String → Prop) (ls ms : List Line) : Prop :=
  List.Forall₂ (fun l m : Line => Alike S l.chars m.chars) ls ms

/-- A select list that is not the lone star. -/
theorem Sql.Item.selectLines_eq {is : List Item} (h : is ≠ [.star ""]) :
    Item.selectLines is = [.fixed "SELECT"] :: Item.lines is := by
  unfold Item.selectLines
  split
  · exact absurd rfl h
  · rfl

namespace LinesAlike

variable {S : String → String → Prop} {ls ms ls' ms' : List Line}

theorem append (h : LinesAlike S ls ms) (h' : LinesAlike S ls' ms') :
    LinesAlike S (ls ++ ls') (ms ++ ms') := List.rel_append h h'

/-- A line of fixed text. -/
theorem fixed {s : String} (h : Alike.isFixed s.toList = true) :
    LinesAlike S [[.fixed s]] [[.fixed s]] := by
  have hs : Alike S s.toList s.toList := .fixed h
  refine .cons ?_ .nil
  rw [Line.chars, Piece.chars_fixed]
  exact hs

theorem indent (h : LinesAlike S ls ms) :
    LinesAlike S (ls.map Line.indent) (ms.map Line.indent) := by
  rw [LinesAlike, List.forall₂_map_left_iff, List.forall₂_map_right_iff]
  refine h.imp ?_
  intro l m hlm
  rw [Line.chars_indent, Line.chars_indent]
  exact hlm.blank.blank

end LinesAlike

namespace Alike

variable {S : String → String → Prop}

/-! ## Select lists -/

theorem star {relation : String} (h : isIdentifier relation = true) :
    Alike S (Item.star relation).chars (Item.star relation).chars := by
  have hstar : tokenize ('.' :: '*' :: []) = some [.symbol ['.'], .symbol ['*']] :=
    tokenize_of_within (by decide)
  have hword : ∀ d ∈ ('.' :: '*' :: []).head?, Token.isWordChar d = false := by
    intro d hd
    obtain rfl := Option.some.inj hd
    decide
  have htokens := tokenize_word h hword
  have hne : relation.isEmpty = false := by
    rw [← Bool.not_eq_true, String.isEmpty_iff]
    rintro rfl
    cases h
  have hchars : (Item.star relation).chars = relation.toList ++ '.' :: '*' :: [] := by
    simp [Item.chars, Item.pieces, hne, Piece.chars_fixed]
  rw [hstar] at htokens
  rw [hchars]
  exact same (isNeat_append (isNeat_identifier h) (by decide)) htokens

theorem item {e f : Expr} (h : Alike S e.chars f.chars) :
    Alike S (Item.expr e none).chars (Item.expr f none).chars := h

theorem namedItem {e f : Expr} (h : Alike S e.chars f.chars) {name : String}
    (hname : isIdentifier name = true) :
    Alike S (Item.expr e (some name)).chars (Item.expr f (some name)).chars := by
  have has : Alike S "AS".toList "AS".toList := fixed (by decide)
  rw [Item.chars_named, Item.chars_named]
  exact h.space (has.space (identifier hname))

theorem itemLines {is js : List Item}
    (h : List.Forall₂ (fun i j : Item => Alike S i.chars j.chars) is js) :
    LinesAlike S (Item.lines is) (Item.lines js) := by
  have hlast : ∀ i : Item, (Line.indent i.pieces).chars = ' ' :: ' ' :: i.chars :=
    fun i => Line.chars_indent i.pieces
  have hcomma : ∀ i : Item, (Line.indent (i.pieces ++ [.fixed ","])).chars =
      ' ' :: ' ' :: (i.chars ++ ',' :: []) := by
    intro i
    rw [Line.chars_indent, Line.chars, Piece.chars_append, Piece.chars_fixed]
    rfl
  induction h with
  | nil => exact .nil
  | @cons i j is js hij hrest ih =>
    cases hrest with
    | nil =>
      refine .cons ?_ .nil
      rw [hlast, hlast]
      exact hij.blank.blank
    | cons hij' hrest =>
      refine .cons ?_ ih
      rw [hcomma, hcomma]
      exact (hij.close (by decide)).blank.blank

theorem selectLines {is js : List Item} (his : is ≠ [.star ""]) (hjs : js ≠ [.star ""])
    (h : List.Forall₂ (fun i j : Item => Alike S i.chars j.chars) is js) :
    LinesAlike S (Item.selectLines is) (Item.selectLines js) := by
  rw [Item.selectLines_eq his, Item.selectLines_eq hjs]
  exact (LinesAlike.fixed (by decide)).append (itemLines h)

/-! ## Conditions -/

end Alike

/-- Conditions of one kind, with expressions that are alike. An optional one is a placeholder. -/
inductive ConditionAlike (S : String → String → Prop) : Condition → Condition → Prop where
  | always {e f : Expr} (h : Alike S e.chars f.chars) : ConditionAlike S (.always e) (.always f)
  | optional {name : String} (h : isIdentifier name = true) :
      ConditionAlike S (.optional (.placeholder name)) (.optional (.placeholder name))

/-- The text of an optional condition that is a placeholder. -/
def optionalChars (name : List Char) : List Char :=
  "  [[AND".toList ++ ' ' :: (Placeholder.write name ++ "]]".toList)

theorem tokenize_optionalChars {name : List Char} (h : isIdentifierChars name = true) :
    tokenize (optionalChars name) =
      some [.openOptional, .word "AND".toList, .placeholder name, .closeOptional] := by
  have hopen : tokenize "  [[AND".toList = some [.openOptional, .word "AND".toList] :=
    tokenize_of_within (by decide)
  have hclose : tokenize "]]".toList = some [.closeOptional] := tokenize_of_within (by decide)
  unfold optionalChars
  rw [tokenize_separated hopen (by decide), tokenize_placeholder h, hclose]
  rfl

theorem isNeat_optionalChars {name : List Char} (h : isIdentifierChars name = true) :
    isNeat (optionalChars name) = true := by
  have hopen : isNeat "  [[AND".toList = true := by decide
  have hclose : isNeat "]]".toList = true := by decide
  have hblank : isNeat [' '] = true := by decide
  unfold optionalChars
  exact isNeat_append hopen (isNeat_append (s := [' ']) hblank
    (isNeat_append (isNeat_write h) hclose))

namespace Sql.Condition

theorem chars_always (e : Expr) (first : Bool) :
    ((Condition.always e).lines first).map Line.chars =
      [(if first then "WHERE".toList else "  AND".toList) ++ ' ' :: e.chars] := by
  cases first <;> simp [lines, Line.chars, Piece.chars_cons, Piece.inline_fixed, Expr.chars]

theorem chars_optional (name : String) :
    ((Condition.optional (.placeholder name)).lines false).map Line.chars =
      [optionalChars name.toList] := by
  unfold optionalChars
  simp [lines, Line.chars, Piece.chars_cons, Piece.inline_fixed, Expr.pieces, Piece.chars_nil,
    Placeholder.write]

end Sql.Condition

namespace ConditionAlike

variable {S : String → String → Prop}

/-- The lines of conditions after the first. -/
theorem lines {c d : Condition} (h : ConditionAlike S c d) :
    LinesAlike S (c.lines false) (d.lines false) := by
  rw [LinesAlike, ← List.forall₂_map_right_iff (f := Line.chars),
    ← List.forall₂_map_left_iff (f := Line.chars)]
  cases h with
  | always h =>
    have hand : Alike S "  AND".toList "  AND".toList := .fixed (by decide)
    rw [Condition.chars_always, Condition.chars_always]
    exact .cons (hand.space h) .nil
  | optional h =>
    rw [Condition.chars_optional]
    exact .cons (.same (isNeat_optionalChars h) (tokenize_optionalChars h)) .nil

/-- The line of a condition that opens a block. -/
theorem firstLine {e f : Expr} (h : Alike S e.chars f.chars) :
    LinesAlike S ((Condition.always e).lines true) ((Condition.always f).lines true) := by
  have hwhere : Alike S "WHERE".toList "WHERE".toList := .fixed (by decide)
  rw [LinesAlike, ← List.forall₂_map_right_iff (f := Line.chars),
    ← List.forall₂_map_left_iff (f := Line.chars), Condition.chars_always, Condition.chars_always]
  exact .cons (hwhere.space h) .nil

theorem flatMap_lines {cs ds : List Condition} (h : List.Forall₂ (ConditionAlike S) cs ds) :
    LinesAlike S (cs.flatMap (Condition.lines false)) (ds.flatMap (Condition.lines false)) := by
  induction h with
  | nil => exact .nil
  | cons hcd _ ih =>
    rw [List.flatMap_cons, List.flatMap_cons]
    exact hcd.lines.append ih

/-- A block whose conditions are not optional. -/
theorem blockLines {cs ds : List Condition} (h : List.Forall₂ (ConditionAlike S) cs ds)
    (halways : ∀ c ∈ cs, ∃ e, c = .always e) :
    LinesAlike S (Condition.blockLines cs) (Condition.blockLines ds) := by
  cases h with
  | nil => exact .nil
  | @cons c d cs ds hcd hrest =>
    obtain ⟨e, rfl⟩ := halways c List.mem_cons_self
    cases hcd with
    | always hef => exact (firstLine hef).append (flatMap_lines hrest)

end ConditionAlike

/-! ## Sources -/

namespace LinesAlike

variable {S : String → String → Prop}

/-- A table after a keyword. -/
theorem table {keyword : String} {k : List Char} (hkeyword : keyword.toList = k ++ [' '])
    (hk : Alike.isFixed k = true) (name : String) {relation : String}
    (hr : isIdentifier relation = true) :
    LinesAlike S (Query.sourceLines keyword (.table name relation))
      (Query.sourceLines keyword (.table name relation)) := by
  have hchars : Line.chars [.fixed (keyword ++ quoteTable name ++ " " ++ relation)] =
      k ++ ' ' :: ((quoteTable name).toList ++ ' ' :: relation.toList) := by
    rw [Line.chars, Piece.chars_fixed]
    simp [hkeyword]
  have h : Alike S k k := .fixed hk
  refine .cons ?_ .nil
  rw [hchars]
  exact h.space ((Alike.table name).space (.identifier hr))

/-- A statement in parentheses. -/
theorem block {opening closing : String} (ho : Alike.isFixed opening.toList = true)
    (hc : Alike.isFixed closing.toList = true) {ls ms : List Line} (h : LinesAlike S ls ms) :
    LinesAlike S ([.fixed opening] :: ls.map Line.indent ++ [[.fixed closing]])
      ([.fixed opening] :: ms.map Line.indent ++ [[.fixed closing]]) :=
  ((fixed ho).append h.indent).append (fixed hc)

end LinesAlike

/-! ## Keys and limits -/

namespace LinesAlike

variable {S : String → String → Prop}

theorem group {es fs : List Expr}
    (h : List.Forall₂ (fun e f : Expr => Alike S e.chars f.chars) es fs) :
    LinesAlike S (Query.groupLines es) (Query.groupLines fs) := by
  have hchars : ∀ es : List Expr, Line.chars (.fixed "GROUP BY " ::
      Piece.separated ", " (es.map Expr.pieces)) =
        "GROUP BY".toList ++ ' ' :: joined ", ".toList (es.map Expr.chars) := by
    intro es
    rw [Line.chars, Piece.chars_cons, Piece.chars_separated, List.map_map]
    rfl
  have hgroup : Alike S "GROUP BY".toList "GROUP BY".toList := .fixed (by decide)
  cases h with
  | nil => exact .nil
  | cons hef hrest =>
    refine .cons ?_ .nil
    rw [hchars, hchars]
    exact hgroup.space (.commas (Alike.map_chars (.cons hef hrest)))

end LinesAlike

/-- A sort key whose target is an identifier or a number. -/
def Sql.SortKey.IsPlain (k : SortKey) : Prop :=
  match k.target with
  | .output name => isIdentifier name = true
  | .position _ => True

namespace Alike

variable {S : String → String → Prop}

theorem sortKey {k : SortKey} (h : k.IsPlain) : Alike S k.render.toList k.render.toList := by
  obtain ⟨target, direction⟩ := k
  have htarget : Alike S target.render.toList target.render.toList := by
    cases target with
    | output name => exact identifier h
    | position n => exact number n
  have hdirection : Alike S direction.keyword.toList direction.keyword.toList := by
    cases direction <;> exact fixed (by decide)
  have hchars : (SortKey.render ⟨target, direction⟩).toList =
      target.render.toList ++ ' ' :: direction.keyword.toList := by
    simp [SortKey.render]
  rw [hchars]
  exact htarget.space hdirection

end Alike

namespace LinesAlike

variable {S : String → String → Prop}

theorem order {ks : List SortKey} (h : ∀ k ∈ ks, k.IsPlain) :
    LinesAlike S (Query.orderLines ks) (Query.orderLines ks) := by
  have horder : Alike S "ORDER BY".toList "ORDER BY".toList := .fixed (by decide)
  cases ks with
  | nil => exact .nil
  | cons k ks =>
    have hchars : Line.chars [.fixed ("ORDER BY " ++ ", ".intercalate ((k :: ks).map SortKey.render))] =
        "ORDER BY".toList ++ ' ' ::
          joined ", ".toList (((k :: ks).map SortKey.render).map String.toList) := by
      rw [Line.chars, Piece.chars_fixed, String.toList_append, toList_intercalate]
      rfl
    have hkeys : List.Forall₂ (Alike S) (((k :: ks).map SortKey.render).map String.toList)
        (((k :: ks).map SortKey.render).map String.toList) := by
      rw [List.map_map, List.forall₂_map_left_iff, List.forall₂_map_right_iff, List.forall₂_same]
      exact fun k hk => Alike.sortKey (h k hk)
    refine .cons ?_ .nil
    rw [hchars]
    exact horder.space (.commas hkeys)

theorem limit (n : Option Nat) : LinesAlike S (Query.limitLines n) (Query.limitLines n) := by
  have hlimit : Alike S "LIMIT".toList "LIMIT".toList := .fixed (by decide)
  cases n with
  | none => exact .nil
  | some n =>
    have hchars : Line.chars [.fixed ("LIMIT " ++ toString n)] =
        "LIMIT".toList ++ ' ' :: (toString n).toList := by
      rw [Line.chars, Piece.chars_fixed]
      simp
    refine .cons ?_ .nil
    rw [hchars]
    exact hlimit.space (.number n)

end LinesAlike

end EventReport
