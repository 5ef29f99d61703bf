/-
# Statements in which no placeholder begins

A statement is written from keywords, names, literals and tables, and it is clear if
these are: each construct of a statement passes the property on from its parts to the
whole.  Keywords and names hold no braces, so the literals and the tables decide.
-/
import EventReport.Proofs.Sql.AlikeLines
import EventReport.Proofs.Text.Clear

namespace EventReport.Sql

open Text
open Piece (fixed)

theorem isClear_joined {separator : List Char} (hseparator : '\x7b' ∉ separator)
    {xs : List (List Char)} (h : ∀ x ∈ xs, IsClear x) : IsClear (joined separator xs) := by
  induction xs with
  | nil => exact isClear_of_not_mem List.not_mem_nil
  | cons x xs ih =>
    obtain ⟨hx, hxs⟩ := List.forall_mem_cons.1 h
    cases xs with
    | nil => exact hx
    | cons y xs =>
      rw [joined_cons_cons]
      exact (hx.append (isClear_of_not_mem hseparator)).append (ih hxs)

/-! ## Literals and columns -/

theorem isClear_numeral {cs : List Char} (h : IsNumeral cs) : IsClear cs := by
  have hplain : ∀ {cs : List Char}, IsUnsignedNumeral cs → '\x7b' ∉ cs := by
    rintro cs ⟨c, ds, rfl, hc, hds⟩ hmem
    rcases List.mem_cons.1 hmem with rfl | hmem
    · exact absurd hc (by decide)
    · exact absurd (hds _ hmem) (by decide)
  rcases h with h | ⟨ds, rfl, h⟩
  · exact isClear_of_not_mem (hplain h)
  · exact (isClear_of_not_mem (hplain h)).cons (by decide)

namespace Literal

/-- The literal is clear as it is written. -/
def IsClear (l : Literal) : Prop := Text.IsClear l.render.toList

/-- Only a text may not be clear. -/
theorem isClear_of_texts {l : Literal} (h : ∀ s, l = text s → IsHarmless s) : l.IsClear := by
  cases l with
  | null => exact isClear_of_not_mem (by decide)
  | bool b => cases b <;> exact isClear_of_not_mem (by decide)
  | int i => exact isClear_numeral (isNumeral_int i)
  | float x =>
    by_cases hx : x.isFinite = true
    · exact isClear_numeral (isNumeral_render_float hx)
    · rw [IsClear, render, if_neg hx]
      exact isClear_of_not_mem (by decide)
  | text s => exact (h s rfl).isClear

theorem isClear_text {s : String} (h : IsHarmless s) : (text s).IsClear := h.isClear

/-- A value that is read as a number is no text. -/
theorem isClear_ofValue (numeric : Bool) {value : String} (h : IsHarmless value) :
    (ofValue numeric value).IsClear := by
  refine isClear_of_texts fun s hs => ?_
  obtain rfl : value = s := by
    unfold ofValue at hs
    split at hs
    · dsimp only at hs
      split at hs
      · cases hs
      · split at hs
        · cases hs
        · exact text.inj hs
    · exact text.inj hs
  exact h

end Literal

theorem ColumnRef.isClear_render {c : ColumnRef} (h : c.IsPlain) : IsClear c.render.toList := by
  obtain ⟨hr | hr, hname⟩ := h
  · have hrender : c.render = c.name := by simp [ColumnRef.render, hr]
    rw [hrender]
    exact isClear_identifier hname
  · rw [ColumnRef.chars_render hr]
    exact (isClear_identifier hr).sep (by decide) (isClear_identifier hname)

/-! ## Expressions -/

namespace Expr

/-- The text of the expression is clear. -/
def IsClear (e : Expr) : Prop := Text.IsClear e.chars

variable {e f : Expr} {es : List Expr}

theorem isClear_column {c : ColumnRef} (h : c.IsPlain) : (column c).IsClear := by
  rw [IsClear, chars_column]
  exact ColumnRef.isClear_render h

theorem isClear_of {relation name : String} (hr : isIdentifier relation = true)
    (hname : isIdentifier name = true) : (Expr.of relation name).IsClear :=
  isClear_column ⟨.inr hr, hname⟩

theorem isClear_literal {l : Literal} (h : l.IsClear) : (literal l).IsClear := by
  rw [IsClear, chars_literal]
  exact h

theorem isClear_value {l : Literal} (h : l.IsClear) : (value l).IsClear := by
  rw [IsClear, chars_value]
  exact h

theorem isClear_compare (op : Comparison) (he : e.IsClear) (hf : f.IsClear) :
    (compare op e f).IsClear := by
  have hsymbol : '\x7b' ∉ op.symbol.toList := by cases op <;> decide
  rw [IsClear, chars_compare]
  exact he.space ((isClear_of_not_mem hsymbol).space hf)

theorem isClear_like (he : e.IsClear) (hf : f.IsClear) (negated : Bool) :
    (like e f negated).IsClear := by
  have hlike : '\x7b' ∉ (if negated then "NOT LIKE".toList else "LIKE".toList) := by
    cases negated <;> decide
  rw [IsClear, chars_like]
  exact he.space ((isClear_of_not_mem hlike).space hf)

theorem isClear_chars (h : ∀ e ∈ es, e.IsClear) : ∀ cs ∈ es.map chars, Text.IsClear cs := by
  intro cs hcs
  obtain ⟨e, he, rfl⟩ := List.mem_map.1 hcs
  exact h e he

/-- What stands in parentheses. -/
theorem isClear_parenthesis {cs : List Char} (h : Text.IsClear cs) : Text.IsClear ('(' :: (cs ++ [')'])) :=
  (h.append (isClear_of_not_mem (by decide))).cons (by decide)

theorem isClear_commas (h : ∀ e ∈ es, e.IsClear) :
    Text.IsClear (joined ", ".toList (es.map chars)) :=
  isClear_joined (by decide) (isClear_chars h)

theorem isClear_ands (h : ∀ e ∈ es, e.IsClear) :
    Text.IsClear (joined " AND ".toList (es.map chars)) :=
  isClear_joined (by decide) (isClear_chars h)

theorem isClear_among (he : e.IsClear) (hes : ∀ e ∈ es, e.IsClear) : (among e es).IsClear := by
  have hin : '\x7b' ∉ "IN ".toList := by decide
  rw [IsClear, chars_among]
  exact he.space ((isClear_of_not_mem hin).append (isClear_parenthesis (isClear_commas hes)))

theorem isClear_all (hes : ∀ e ∈ es, e.IsClear) : (all es).IsClear := by
  cases es with
  | nil => exact isClear_of_not_mem (by decide)
  | cons e es =>
    rw [IsClear, chars_all (List.cons_ne_nil e es)]
    exact isClear_ands hes

theorem isClear_isNull (he : e.IsClear) : (isNull e).IsClear := by
  rw [IsClear, chars_isNull]
  exact he.space (isClear_of_not_mem (by decide))

theorem isClear_isNotNull (he : e.IsClear) : (isNotNull e).IsClear := by
  rw [IsClear, chars_isNotNull]
  exact he.space (isClear_of_not_mem (by decide))

theorem isClear_choose_one (he : e.IsClear) (hf : f.IsClear) : (choose [(e, f)] none).IsClear := by
  have hkeyword : ∀ k ∈ ["CASE WHEN", "THEN", "END"], Text.IsClear k.toList :=
    fun k hk => isClear_of_not_mem (by revert k; decide)
  rw [IsClear, chars_choose_one]
  exact (hkeyword "CASE WHEN" (by decide)).space
    (he.space ((hkeyword "THEN" (by decide)).space (hf.space (hkeyword "END" (by decide)))))

theorem isClear_call {function : String} (hfunction : isIdentifier function = true)
    (hes : ∀ e ∈ es, e.IsClear) : (call function es).IsClear := by
  rw [IsClear, chars_call]
  exact (isClear_identifier hfunction).append (isClear_parenthesis (isClear_commas hes))

theorem isClear_cast {type : String} (htype : isIdentifier type = true) (he : e.IsClear) :
    (cast e type).IsClear := by
  have hkeyword : ∀ k ∈ ["CAST", "AS", ")"], Text.IsClear k.toList :=
    fun k hk => isClear_of_not_mem (by revert k; decide)
  rw [IsClear, chars_cast]
  exact (hkeyword "CAST" (by decide)).sep (by decide) (he.space
    ((hkeyword "AS" (by decide)).space ((isClear_identifier htype).append (hkeyword ")" (by decide)))))

theorem isClear_countRows : countRows.IsClear := isClear_of_not_mem (by decide)

theorem isClear_aggregate {g : Aggregation} (hg : g ≠ .countRows) (hplain : g.IsPlain)
    (he : e.IsClear) : (aggregate g (some e)).IsClear := by
  have hopening : '\x7b' ∉ g.opening.1.toList ∧ g.opening.2 ≠ '\x7b' := by
    cases g with
    | firstText orderBy =>
      show '\x7b' ∉ "STRING_AGG".toList ∧ '(' ≠ '\x7b'
      decide
    | _ => decide
  have hclosing : Text.IsClear g.closing.2 ∧ g.closing.1 ≠ '\x7b' := by
    cases g with
    | firstText orderBy =>
      have horder : '\x7b' ∉ " ',' ORDER BY".toList := by decide
      have hlimit : '\x7b' ∉ "LIMIT 1".toList ++ [')'] := by decide
      exact ⟨(isClear_of_not_mem horder).space
        ((ColumnRef.isClear_render hplain).space (isClear_of_not_mem hlimit)),
        (by decide : ',' ≠ '\x7b')⟩
    | _ => exact ⟨isClear_of_not_mem (by decide), by decide⟩
  rw [IsClear, chars_aggregate hg]
  exact (isClear_of_not_mem hopening.1).sep hopening.2 (he.sep hclosing.2 hclosing.1)

theorem isClear_hasRow (negated : Bool) {table relation : String}
    (htable : Text.IsClear (quoteTable table).toList) (hr : isIdentifier relation = true)
    (hes : ∀ e ∈ es, e.IsClear) : (hasRow negated table relation es).IsClear := by
  have hexists : '\x7b' ∉ (if negated then "NOT EXISTS ".toList else "EXISTS ".toList) := by
    cases negated <;> decide
  have hkeyword : ∀ k ∈ ["SELECT 1 FROM", "WHERE", ")"], Text.IsClear k.toList :=
    fun k hk => isClear_of_not_mem (by revert k; decide)
  rw [IsClear, chars_hasRow]
  exact (isClear_of_not_mem hexists).sep (by decide) ((hkeyword "SELECT 1 FROM" (by decide)).space
    (htable.space ((isClear_identifier hr).space ((hkeyword "WHERE" (by decide)).space
      ((isClear_ands hes).append (hkeyword ")" (by decide)))))))

end Expr

/-! ## Lines -/

theorem Item.isClear_star {relation : String} (h : isIdentifier relation = true) :
    IsClear (Item.star relation).chars := by
  have hstar : '\x7b' ∉ ".*".toList := by decide
  rw [Item.chars, Item.pieces, Piece.chars_fixed]
  split
  · exact isClear_of_not_mem (by decide)
  · rw [String.toList_append]
    exact (isClear_identifier h).append (isClear_of_not_mem hstar)

theorem Item.isClear_expr {e : Expr} (he : e.IsClear) {name : Option String}
    (hname : ∀ n ∈ name, isIdentifier n = true) : IsClear (Item.expr e name).chars := by
  have has : '\x7b' ∉ "AS".toList := by decide
  cases name with
  | none => exact he
  | some n =>
    rw [Item.chars_named]
    exact he.space ((isClear_of_not_mem has).space (isClear_identifier (hname n rfl)))

/-- All lines are clear. -/
def AllClear (ls : List Line) : Prop := ∀ l ∈ ls, IsClear l.chars

namespace AllClear

variable {ls ms : List Line}

theorem nil : AllClear [] := fun _ hl => absurd hl List.not_mem_nil

theorem cons {l : Line} (hl : IsClear l.chars) (h : AllClear ls) : AllClear (l :: ls) :=
  List.forall_mem_cons.2 ⟨hl, h⟩

theorem append (hls : AllClear ls) (hms : AllClear ms) : AllClear (ls ++ ms) :=
  List.forall_mem_append.2 ⟨hls, hms⟩

theorem indent (h : AllClear ls) : AllClear (ls.map Line.indent) := by
  intro l hl
  obtain ⟨m, hm, rfl⟩ := List.mem_map.1 hl
  rw [Line.chars_indent]
  exact ((h m hm).cons (by decide)).cons (by decide)

/-- A line of one fixed text. -/
theorem fixed {s : String} (h : '\x7b' ∉ s.toList) : AllClear [[.fixed s]] := by
  refine cons ?_ nil
  rw [Line.chars, Piece.chars_fixed]
  exact isClear_of_not_mem h

/-- A line with an expression after a fixed text. -/
theorem expr {s : String} (h : '\x7b' ∉ s.toList) {e : Expr} (he : e.IsClear) :
    AllClear [.fixed s :: e.pieces] := by
  refine cons ?_ nil
  rw [Line.chars, Piece.chars_cons, Piece.inline_fixed]
  exact (isClear_of_not_mem h).append he

/-- A statement in parentheses. -/
theorem block {opening closing : String} (ho : '\x7b' ∉ opening.toList)
    (hc : '\x7b' ∉ closing.toList) (h : AllClear ls) :
    AllClear ([.fixed opening] :: ls.map Line.indent ++ [[.fixed closing]]) :=
  ((fixed ho).append h.indent).append (fixed hc)

theorem itemLines {is : List Item} (h : ∀ i ∈ is, IsClear i.chars) : AllClear (Item.lines is) := by
  have hindent : ∀ {ps : List Piece}, IsClear (Piece.chars ps) → IsClear (Line.indent ps).chars := by
    intro ps hps
    rw [Line.chars_indent]
    exact (IsClear.cons (by decide) hps).cons (by decide)
  induction is with
  | nil => exact nil
  | cons i is ih =>
    obtain ⟨hi, his⟩ := List.forall_mem_cons.1 h
    cases is with
    | nil => exact cons (hindent hi) nil
    | cons j is =>
      refine cons (hindent ?_) (ih his)
      rw [Piece.chars_append, Piece.chars_fixed]
      exact hi.append (isClear_of_not_mem (by decide))

theorem selectLines {is : List Item} (hne : is ≠ [.star ""]) (h : ∀ i ∈ is, IsClear i.chars) :
    AllClear (Item.selectLines is) := by
  rw [Item.selectLines_eq hne]
  exact (fixed (by decide)).append (itemLines h)

/-- A table after a keyword. -/
theorem table {keyword name relation : String} (hkeyword : '\x7b' ∉ keyword.toList)
    (hname : IsClear (quoteTable name).toList) (hr : isIdentifier relation = true) :
    AllClear (Query.sourceLines keyword (.table name relation)) := by
  refine cons ?_ nil
  rw [Line.chars, Piece.chars_fixed, String.toList_append, String.toList_append,
    String.toList_append]
  exact (((isClear_of_not_mem hkeyword).append hname).append
    (isClear_of_not_mem (by decide))).append (isClear_identifier hr)

theorem always {e : Expr} (he : e.IsClear) (first : Bool) :
    AllClear ((Condition.always e).lines first) :=
  expr (by cases first <;> decide) he

/-- A block of conditions that are not optional. -/
theorem blockLines {cs : List Condition} (h : ∀ c ∈ cs, ∃ e : Expr, c = .always e ∧ e.IsClear) :
    AllClear (Condition.blockLines cs) := by
  cases cs with
  | nil => exact nil
  | cons c cs =>
    obtain ⟨⟨e, rfl, he⟩, hcs⟩ := List.forall_mem_cons.1 h
    refine (always he true).append fun l hl => ?_
    obtain ⟨d, hd, hl⟩ := List.mem_flatMap.1 hl
    obtain ⟨f, rfl, hf⟩ := hcs d hd
    exact always hf false l hl

theorem groupLines {es : List Expr} (h : ∀ e ∈ es, e.IsClear) : AllClear (Query.groupLines es) := by
  have hgroup : '\x7b' ∉ "GROUP BY ".toList := by decide
  cases es with
  | nil => exact nil
  | cons e es =>
    refine cons ?_ nil
    rw [Line.chars, Piece.chars_cons, Piece.inline_fixed, Piece.chars_separated, List.map_map]
    exact (isClear_of_not_mem hgroup).append (Expr.isClear_commas h)

theorem orderLines {ks : List SortKey} (h : ∀ k ∈ ks, k.IsPlain) : AllClear (Query.orderLines ks) := by
  have horder : '\x7b' ∉ "ORDER BY ".toList := by decide
  have hkey : ∀ k ∈ ks, IsClear k.render.toList := by
    intro k hk
    have hdirection : '\x7b' ∉ (" " ++ k.direction.keyword).toList := by
      cases k.direction <;> decide
    have htarget : IsClear k.target.render.toList := by
      have hplain := h k hk
      unfold SortKey.IsPlain at hplain
      cases htarget : k.target with
      | output name =>
        rw [htarget] at hplain
        exact isClear_identifier hplain
      | position n => exact isClear_numeral (.inl (isUnsignedNumeral_nat n))
    rw [SortKey.render, String.append_assoc, String.toList_append]
    exact htarget.append (isClear_of_not_mem hdirection)
  cases ks with
  | nil => exact nil
  | cons k ks =>
    refine cons ?_ nil
    rw [Line.chars, Piece.chars_fixed, String.toList_append, toList_intercalate]
    refine (isClear_of_not_mem horder).append (isClear_joined (by decide) fun cs hcs => ?_)
    obtain ⟨_, ht, rfl⟩ := List.mem_map.1 hcs
    obtain ⟨k', hk', rfl⟩ := List.mem_map.1 ht
    exact hkey k' hk'

theorem limitLines (n : Option Nat) : AllClear (Query.limitLines n) := by
  have hlimit : '\x7b' ∉ "LIMIT ".toList := by decide
  cases n with
  | none => exact nil
  | some n =>
    refine cons ?_ nil
    rw [Line.chars, Piece.chars_fixed, String.toList_append]
    exact (isClear_of_not_mem hlimit).append (isClear_numeral (.inl (isUnsignedNumeral_nat n)))

end AllClear

end EventReport.Sql
