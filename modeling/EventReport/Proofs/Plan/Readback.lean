/-
# The filters of a compiled text are read back

## What is proved

`clauses_readback`: the lines of a compiled text that the clause reader accepts are
the line with the condition on the website and, after it and in the order of the
report, the lines of those base filters that a clause can say, each with its column
and its literals as they were written.  Every other line of the text is refused:
headers, select lists, joins, the WHERE of the pivot, the conditions on attributes,
and the clauses after them.

## What keeps the other lines from being read

Most of them begin with a word that is no connective, or with a parenthesis
(`isInert`).  The pivot's condition begins with WHERE and a comparison, but does not
end there.  A condition on an attribute goes on with EXISTS, which is neither a
column with a comparison after it nor a call that is known.
-/
import EventReport.Proofs.Clause.Readback
import EventReport.Proofs.Plan.Confinement

namespace EventReport

open Text Sql
open Token (isKeyword)

/-! ## The clause of a filter -/

/-- The clause that a filter on a column is read back as, if it is one. An unknown operator compares
for equality, and of several values all but `oneOf` take the first. -/
def Filter.clause? (f : Filter) (c : Column) : Option Clause :=
  let column : ColumnName := ⟨c.name.toList⟩
  let literal (v : String) : List Char := (Literal.ofValue c.type.isNumeric v).render.toList
  let first := f.comparands.headD ""
  match f.operator with
  | .equals | .unknown _ => some ⟨.and_, false, .equals column (literal first)⟩
  | .oneOf => some ⟨.and_, false, .oneOf column (f.comparands.map literal)⟩
  | .contains => pattern c (Pattern.containing first)
  | .startsWith => pattern c (Pattern.startingWith first)
  | .endsWith => pattern c (Pattern.endingWith first)
  | .interactive => some ⟨.and_, true, .placeholder c.name.toList⟩
  | .notEquals | .notContains | .isNull | .isNotNull => none
where
  /-- A number is matched as text, through a cast, which is no clause. -/
  pattern (c : Column) (p : String) : Option Clause :=
    if c.type.isNumeric then none
    else some ⟨.and_, false, .like ⟨c.name.toList⟩ (quote p).toList⟩

/-- The filters on columns of the registry that have what to compare them with, in order. -/
def Report.baseFilters (w : Warehouse) (r : Report) : List (Filter × Column) :=
  r.filters.filterMap fun f =>
    if f.isComplete then (w.registry.find? f.column).map fun c => (f, c) else none

theorem Report.of_mem_baseFilters {w : Warehouse} {r : Report} {f : Filter} {c : Column}
    (h : (f, c) ∈ r.baseFilters w) : c ∈ w.registry.columns ∧ f.isComplete = true := by
  obtain ⟨g, -, hg⟩ := List.mem_filterMap.1 h
  split at hg
  · next hcomplete =>
    obtain ⟨d, hd, heq⟩ := Option.map_eq_some_iff.1 hg
    cases heq
    exact ⟨List.mem_of_find?_eq_some hd, hcomplete⟩
  · cases hg

/-- The clause of the condition on the website. -/
def scopeClause (site : Website) : Clause :=
  ⟨.where_, false, .equals ⟨scopeColumn.toList⟩ (quote site.id).toList⟩

/-! ## Comparisons -/

/-- The predicate that a comparison with a column is read back as, if it is one. -/
def Comparator.predicate? (column : ColumnName) (numeric : Bool) (values : List String) :
    Comparator → Option Predicate
  | equals => some (.equals column (Literal.ofValue numeric (values.headD "")).render.toList)
  | oneOf => some (.oneOf column (values.map fun v => (Literal.ofValue numeric v).render.toList))
  | contains => pattern (Pattern.containing (values.headD ""))
  | startsWith => pattern (Pattern.startingWith (values.headD ""))
  | endsWith => pattern (Pattern.endingWith (values.headD ""))
  | notEquals | notContains | isNull | isNotNull => none
where
  pattern (p : String) : Option Predicate :=
    if numeric then none else some (.like column (Literal.text p).render.toList)

/-- A filter that compares has the clause of its comparison. -/
theorem Filter.clause?_eq {f : Filter} {comparator : Comparator}
    (hop : f.operator.comparator? = some comparator) (c : Column) :
    f.clause? c = (comparator.predicate? ⟨c.name.toList⟩ c.type.isNumeric f.comparands).map
      fun p => ⟨.and_, false, p⟩ := by
  have hpattern (p : String) : clause?.pattern c p =
      (Comparator.predicate?.pattern ⟨c.name.toList⟩ c.type.isNumeric p).map
        fun p => ⟨.and_, false, p⟩ := by
    unfold clause?.pattern Comparator.predicate?.pattern
    cases c.type.isNumeric with
    | true => rfl
    | false => rfl
  unfold clause?
  cases h : f.operator with
  | interactive =>
    rw [h] at hop
    cases hop
  | contains | startsWith | endsWith =>
    rw [h] at hop
    cases hop
    exact hpattern _
  | equals | notEquals | notContains | isNull | isNotNull | oneOf | unknown =>
    rw [h] at hop
    cases hop
    rfl

/-- The predicate that makes up all of the tokens. -/
def Predicate.ofTokens? (ts : List Token) : Option Predicate :=
  (Predicate.read? ts).bind fun (p, rest) => if rest = [] then some p else none

theorem read?_andLine_ofTokens? {cs : List Char} {ts : List Token} (h : tokenize cs = some ts) :
    Clause.read? ("    AND".toList ++ ' ' :: cs) =
      (Predicate.ofTokens? ts).map fun p => ⟨.and_, false, p⟩ := by
  rw [read?_andLine h, Predicate.ofTokens?]
  cases Predicate.read? ts with
  | none => rfl
  | some pr =>
    obtain ⟨p, rest⟩ := pr
    simp only [Option.bind_some]
    split <;> rfl

namespace Predicate

/-- A word that is neither LIKE nor IN does not compare the column before it. -/
theorem ofTokens?_word (column : List Char) {w : List Char} (ts : List Token)
    (hlike : isKeyword "LIKE" w = false) (hin : isKeyword "IN" w = false) :
    ofTokens? (.word column :: .word w :: ts) = none := by
  rw [ofTokens?, read?_column _ (by simp) (by simp), comparison?_word _ _ hlike hin]
  rfl

/-- A word that a parenthesis follows is a column only if it is DATE. -/
theorem ofTokens?_call {w : List Char} (ts : List Token) (hdate : isKeyword "DATE" w = false) :
    ofTokens? (.word w :: .symbol ['('] :: ts) = none := by
  simp only [ofTokens?, read?, hdate, Bool.false_eq_true, if_false]
  rfl

/-- A column and a comparison of it that is read to its end make up a predicate. -/
theorem ofTokens?_comparison {column : List Char} {ts : List Token} {p : Predicate}
    (hpoint : ts.head? ≠ some (.symbol ['.'])) (hparen : ts.head? ≠ some (.symbol ['(']))
    (h : comparison? ⟨column⟩ ts = some (p, [])) : ofTokens? (.word column :: ts) = some p := by
  rw [ofTokens?, read?_column _ hpoint hparen, h]
  rfl

end Predicate

namespace Comparator

variable {name : String}

theorem ofTokens?_equals (h : isIdentifier name = true) (numeric : Bool) (value : String) :
    ∃ ts, tokenize (Expr.compare .eq (.column (.bare name)) (operand numeric value)).chars =
        some ts ∧
      Predicate.ofTokens? ts =
        some (.equals ⟨name.toList⟩ (Literal.ofValue numeric value).render.toList) := by
  have huser := Literal.isUserValue_ofValue numeric value
  have hliteral := Literal.literal?_tokens huser []
  rw [List.append_nil] at hliteral
  have hsymbol : Comparison.eq.symbol.toList = ['='] := by decide
  refine ⟨_, tokenize_compare (tokenize_bare h) (tokenize_value _) .eq, ?_⟩
  rw [hsymbol]
  exact Predicate.ofTokens?_comparison (by simp) (by simp)
    (Predicate.comparison?_equals _ hliteral)

theorem ofTokens?_notEquals (h : isIdentifier name = true) (numeric : Bool) (value : String) :
    ∃ ts, tokenize (Expr.compare .ne (.column (.bare name)) (operand numeric value)).chars =
        some ts ∧
      Predicate.ofTokens? ts = none := by
  have hsymbol : Comparison.ne.symbol.toList = ['!', '='] := by decide
  refine ⟨_, tokenize_compare (tokenize_bare h) (tokenize_value _) .ne, ?_⟩
  rw [hsymbol, Predicate.ofTokens?]
  simp only [List.cons_append, List.nil_append]
  rw [Predicate.read?_column _ (by simp) (by simp), Predicate.comparison?_notEquals]
  rfl

/-- A numeric column is cast before it is compared with a pattern, and the cast is no column. -/
theorem ofTokens?_like (h : isIdentifier name = true) (numeric : Bool) (pattern : String) :
    ∃ ts, tokenize (like (.column (.bare name)) numeric pattern false).chars = some ts ∧
      Predicate.ofTokens? ts =
        if numeric then none
        else some (.like ⟨name.toList⟩ (Literal.text pattern).render.toList) := by
  have hvalue := tokenize_value (.text pattern)
  have hliteral := Literal.literal?_tokens (l := .text pattern) trivial []
  rw [List.append_nil] at hliteral
  cases numeric with
  | true =>
    obtain ⟨us, hus⟩ := tokenize_cast_string (tokenize_bare h)
    exact ⟨_, tokenize_like hus hvalue false, Predicate.ofTokens?_call _ (by decide)⟩
  | false =>
    exact ⟨_, tokenize_like (tokenize_bare h) hvalue false,
      Predicate.ofTokens?_comparison (by simp) (by simp) (Predicate.comparison?_like _ hliteral)⟩

theorem ofTokens?_notLike (h : isIdentifier name = true) (numeric : Bool) (pattern : String) :
    ∃ ts, tokenize (like (.column (.bare name)) numeric pattern true).chars = some ts ∧
      Predicate.ofTokens? ts = none := by
  have hvalue := tokenize_value (.text pattern)
  cases numeric with
  | true =>
    obtain ⟨us, hus⟩ := tokenize_cast_string (tokenize_bare h)
    exact ⟨_, tokenize_like hus hvalue true, Predicate.ofTokens?_call _ (by decide)⟩
  | false =>
    exact ⟨_, tokenize_like (tokenize_bare h) hvalue true,
      Predicate.ofTokens?_word _ _ (by decide) (by decide)⟩

theorem ofTokens?_oneOf (h : isIdentifier name = true) (numeric : Bool) (v : String)
    (vs : List String) :
    ∃ ts, tokenize (Expr.among (.column (.bare name)) ((v :: vs).map (operand numeric))).chars =
        some ts ∧
      Predicate.ofTokens? ts = some (.oneOf ⟨name.toList⟩
        ((v :: vs).map fun u => (Literal.ofValue numeric u).render.toList)) := by
  have huser : ∀ m ∈ Literal.ofValue numeric v :: vs.map (Literal.ofValue numeric),
      m.IsUserValue := by
    intro m hm
    rcases List.mem_cons.1 hm with rfl | hm
    · exact Literal.isUserValue_ofValue numeric v
    · obtain ⟨u, -, rfl⟩ := List.mem_map.1 hm
      exact Literal.isUserValue_ofValue numeric u
  have hoperands : (v :: vs).map (operand numeric) =
      (Literal.ofValue numeric v :: vs.map (Literal.ofValue numeric)).map .value := by
    simp [operand, Function.comp_def]
  rw [hoperands]
  refine ⟨_, tokenize_among (tokenize_bare h) _ _, ?_⟩
  have hcomparison := Predicate.comparison?_oneOf ⟨name.toList⟩ huser
  simp only [List.map_cons, List.map_map, Function.comp_def] at hcomparison
  exact Predicate.ofTokens?_comparison (by simp) (by simp) hcomparison

/-- Behind a column, IS begins no comparison. -/
theorem ofTokens?_is (h : isIdentifier name = true) {e : Expr} {cs : List Char} {ts : List Token}
    (hchars : e.chars = (Expr.column (.bare name)).chars ++ ' ' :: cs)
    (hcs : tokenize cs = some (.word "IS".toList :: ts)) :
    ∃ us, tokenize e.chars = some us ∧ Predicate.ofTokens? us = none := by
  refine ⟨.word name.toList :: .word "IS".toList :: ts, ?_,
    Predicate.ofTokens?_word _ _ (by decide) (by decide)⟩
  rw [hchars, tokenize_separated (tokenize_bare h) (by decide), hcs]
  rfl

/-- A comparison that is no predicate of a clause, or that is one, is read as such. -/
theorem ofTokens?_compare (h : isIdentifier name = true) (numeric : Bool) (values : List String)
    (c : Comparator) (hvalues : c = .oneOf → values ≠ []) :
    ∃ ts, tokenize (c.compare (.column (.bare name)) numeric values).chars = some ts ∧
      Predicate.ofTokens? ts = c.predicate? ⟨name.toList⟩ numeric values := by
  cases c with
  | equals => exact ofTokens?_equals h numeric _
  | notEquals => exact ofTokens?_notEquals h numeric _
  | contains => exact ofTokens?_like h numeric _
  | startsWith => exact ofTokens?_like h numeric _
  | endsWith => exact ofTokens?_like h numeric _
  | notContains => exact ofTokens?_notLike h numeric _
  | oneOf =>
    cases values with
    | nil => exact absurd rfl (hvalues rfl)
    | cons v vs => exact ofTokens?_oneOf h numeric v vs
  | isNull =>
    have hnull : tokenize "IS NULL".toList = some [.word "IS".toList, .word "NULL".toList] :=
      tokenize_of_within (by decide)
    exact ofTokens?_is h (Expr.chars_isNull _) hnull
  | isNotNull =>
    have hnull : tokenize "IS NOT NULL".toList =
        some [.word "IS".toList, .word "NOT".toList, .word "NULL".toList] :=
      tokenize_of_within (by decide)
    exact ofTokens?_is h (Expr.chars_isNotNull _) hnull

end Comparator

/-! ## Lines that begin plainly -/

namespace StartsPlainly

theorem qualified {r : String} (hr : isIdentifier r = true)
    (hopens : (Token.word r.toList).opensClause = false) (w : String) :
    StartsPlainly (Expr.of r w).chars := by
  have hchars : (Expr.of r w).chars = r.toList ++ '.' :: w.toList := by
    show (Expr.column ⟨r, w⟩).chars = _
    rw [Expr.chars_column, ColumnRef.chars_render hr]
  exact ⟨r.toList, '.', w.toList, hchars, hr, by decide, hopens⟩

theorem call {f : String} (hf : isIdentifier f = true)
    (hopens : (Token.word f.toList).opensClause = false) (args : List Expr) :
    StartsPlainly (Expr.call f args).chars :=
  ⟨f.toList, '(', _, Expr.chars_call f args, hf, by decide, hopens⟩

theorem aggregate {f : Aggregation} (hf : f ≠ .countRows) (arg : Expr) :
    StartsPlainly (Expr.aggregate f (some arg)).chars := by
  have hopening : ∃ w d rest, f.opening.1.toList ++ [f.opening.2] = w ++ d :: rest ∧
      isIdentifierChars w = true ∧ Token.endsWord d = true ∧
      (Token.word w).opensClause = false := by
    cases f with
    | countRows => exact absurd rfl hf
    | countDistinct =>
      exact ⟨"COUNT".toList, '(', "DISTINCT ".toList, by decide, by decide, by decide,
        by decide⟩
    | sum => exact ⟨"SUM".toList, '(', [], by decide, by decide, by decide, by decide⟩
    | average => exact ⟨"AVG".toList, '(', [], by decide, by decide, by decide, by decide⟩
    | median =>
      exact ⟨"APPROX_QUANTILES".toList, '(', [], rfl, by decide, by decide,
        by decide⟩
    | min => exact ⟨"MIN".toList, '(', [], by decide, by decide, by decide, by decide⟩
    | max => exact ⟨"MAX".toList, '(', [], by decide, by decide, by decide, by decide⟩
    | firstText =>
      exact ⟨"STRING_AGG".toList, '(', [], rfl, by decide, by decide, by decide⟩
  obtain ⟨w, d, rest, heq, hw, hd, hopens⟩ := hopening
  have hplain : StartsPlainly (f.opening.1.toList ++ [f.opening.2]) :=
    ⟨w, d, rest, heq, hw, hd, hopens⟩
  have happend := hplain.append (arg.chars ++ f.closing.1 :: f.closing.2)
  rw [Expr.chars_aggregate hf]
  simpa using happend

theorem countRows : StartsPlainly Expr.countRows.chars :=
  ⟨"COUNT".toList, '(', "*)".toList, by decide, by decide, by decide, by decide⟩

/-- An item begins as its expression does. -/
theorem item {e : Expr} (h : StartsPlainly e.chars) (name : Option String) :
    StartsPlainly (Item.expr e name).chars := by
  cases name with
  | none => exact h
  | some name =>
    rw [Item.chars_named]
    exact h.append _

theorem computedExpr (k : Computed) : StartsPlainly (Base.computedExpr k).chars := by
  have hconcat : isIdentifier "CONCAT" = true := by decide
  have hopens : (Token.word "CONCAT".toList).opensClause = false := by decide
  cases k with
  | urlFullpath => exact call hconcat hopens _
  | urlFullurl => exact call hconcat hopens _
  | referrerFullpath => exact call hconcat hopens _
  | referrerFullurl =>
    exact ⟨"CASE".toList, ' ', _, rfl, by decide, by decide, by decide⟩

/-- A column of the pivot begins with the function that folds it. -/
theorem pivotColumn (a : Attribute) : StartsPlainly (Pivot.column a).chars := by
  obtain ⟨key, type⟩ := a
  unfold Pivot.column
  cases type with
  | string => exact item (call (by decide) (by decide) _) _
  | number => exact item (aggregate (by simp) _) _

theorem shows {settings : Settings} {scope : Scope} {o : Outline} {i : Item}
    (h : Projection.Shows settings scope o i) : StartsPlainly i.chars := by
  have hbase : ∀ name, StartsPlainly (Expr.of baseName name).chars :=
    qualified (by decide) (by decide)
  have hpivot : ∀ name, StartsPlainly (Expr.of Pivot.relation name).chars :=
    qualified (by decide) (by decide)
  cases h with
  | date => exact item (call (by decide) (by decide) _) _
  | column => exact item (hbase _) none
  | metric m place =>
    refine item ?_ _
    rcases m.expr_cases scope (m.outputName place).1 with h | ⟨f, hf, ⟨c, -, -, h⟩ | ⟨a, -, -, h⟩⟩
    · rw [h]
      exact countRows
    · rw [h]
      exact aggregate hf _
    · rw [h]
      exact aggregate hf _
  | key => exact item (hpivot _) none
  | @folded a =>
    refine item ?_ _
    unfold Pivot.fold
    cases a.type with
    | string => exact aggregate (by simp) _
    | number => exact aggregate (by simp) _

end StartsPlainly

/-! ## Runs of lines that are no clauses -/

/-- None of the lines opens a clause, whatever becomes of the placeholders in it. -/
def AllInert (ls : List Line) : Prop := ∀ l ∈ ls, Firm (isInert · = true) l.chars

namespace AllInert

theorem nil : AllInert [] := by simp [AllInert]

theorem cons {l : Line} {ls : List Line} (hl : Firm (isInert · = true) l.chars)
    (h : AllInert ls) : AllInert (l :: ls) := by
  intro m hm
  rcases List.mem_cons.1 hm with rfl | hm
  · exact hl
  · exact h m hm

theorem append {ls ms : List Line} (hl : AllInert ls) (hm : AllInert ms) : AllInert (ls ++ ms) := by
  intro l h
  rcases List.mem_append.1 h with h | h
  · exact hl l h
  · exact hm l h

theorem firm_indent {l : Line} (h : Firm (isInert · = true) l.chars) :
    Firm (isInert · = true) l.indent.chars := by
  rw [Line.chars_indent]
  refine h.prepend (p := [' ', ' ']) (by decide) fun cs hcs => ?_
  show isInert (' ' :: ' ' :: cs) = true
  rw [isInert_blank (by decide), isInert_blank (by decide)]
  exact hcs

theorem indent {ls : List Line} (h : AllInert ls) : AllInert (ls.map Line.indent) := by
  intro l hl
  obtain ⟨m, hm, rfl⟩ := List.mem_map.1 hl
  exact firm_indent (h m hm)

/-- A line of fixed text that begins plainly. -/
theorem starts {s : String} (h : StartsPlainly s.toList) : AllInert [[.fixed s]] := by
  refine cons ?_ nil
  rw [Line.chars, Piece.chars_fixed]
  exact h.firm

/-- A line of fixed text; the hypotheses are computed. -/
theorem fixed {s : String} (hopen : '\x7b' ∉ s.toList) (h : isInert s.toList = true) :
    AllInert [[.fixed s]] := by
  refine cons ?_ nil
  rw [Line.chars, Piece.chars_fixed]
  exact .of_not_mem hopen h

theorem itemLines {is : List Item} (h : ∀ i ∈ is, StartsPlainly i.chars) :
    AllInert (Item.lines is) := by
  induction is with
  | nil => exact nil
  | cons i is ih =>
    have hi := h i List.mem_cons_self
    have ih := ih fun j hj => h j (List.mem_cons_of_mem i hj)
    cases is with
    | nil => exact cons (firm_indent hi.firm) nil
    | cons j js =>
      refine cons (firm_indent ?_) ih
      have hchars : Line.chars (i.pieces ++ [.fixed ","]) = i.chars ++ ",".toList := by
        rw [Line.chars, Piece.chars_append, Piece.chars_fixed]
        rfl
      rw [hchars]
      exact (hi.append _).firm

theorem selectLines {is : List Item} (hne : is ≠ [.star ""]) (h : ∀ i ∈ is, StartsPlainly i.chars) :
    AllInert (Item.selectLines is) := by
  rw [Item.selectLines_eq hne]
  exact append (fixed (by decide) (by decide)) (itemLines h)

/-- A table after a keyword. -/
theorem table {keyword : String} (h : StartsPlainly keyword.toList) (name relation : String) :
    AllInert (Query.sourceLines keyword (.table name relation)) := by
  refine starts ?_
  simp only [String.toList_append, List.append_assoc]
  exact h.append _

end AllInert

namespace Plan

variable {w : Warehouse} (p : Plan)

theorem allInert_opening : AllInert (p.openingLines w) := by
  have hfrom : StartsPlainly "FROM ".toList :=
    ⟨"FROM".toList, ' ', [], by decide, by decide, by decide, by decide⟩
  have hjoin : StartsPlainly (JoinKind.left.keywords ++ " ").toList :=
    ⟨"LEFT".toList, ' ', "JOIN ".toList, by decide, by decide, by decide, by decide⟩
  have hitems : ∀ i ∈ (Base.columns w p.withSession).select, StartsPlainly i.chars := by
    intro i hi
    rcases List.mem_cons.1 hi with rfl | hi
    · exact ⟨"e".toList, '.', "*".toList, by decide, by decide, by decide,
        by decide⟩
    · rcases List.mem_append.1 hi with hi | hi
      · obtain ⟨c, -, hk⟩ := List.mem_filterMap.1 hi
        obtain ⟨k, -, rfl⟩ := Option.map_eq_some_iff.1 hk
        exact .item (.computedExpr k) _
      · cases hsession : p.withSession with
        | false =>
          rw [hsession] at hi
          cases hi
        | true =>
          rw [hsession] at hi
          obtain ⟨c, -, rfl⟩ := List.mem_map.1 hi
          exact .item (.qualified (by decide) (by decide) _) none
  have hcolumns : AllInert (Base.columns w p.withSession).lines := by
    have hlines := Base.lines_columns w p.withSession
    rw [hlines]
    refine .append (.append (.selectLines (Base.select_columns_ne w _) hitems) ?_) ?_
    · exact .table hfrom _ _
    · cases p.withSession with
      | false => exact .nil
      | true =>
        refine .append (.table hjoin _ _) (.cons ?_ .nil)
        show Firm _ (Line.chars (.fixed "  ON " :: (Expr.eq (.of Base.sessionAlias "session_id")
          (.of Base.eventAlias "session_id")).pieces))
        exact .of_not_mem (by decide) (by decide)
  have hblock : AllInert (Query.sourceLines "FROM " (.nested (Base.columns w p.withSession))) :=
    .append (.append (.fixed (by decide) (by decide)) hcolumns.indent) (.fixed (by decide) (by decide))
  unfold openingLines
  exact .append (.fixed (by decide) (by decide)) (.indent (.append (.fixed (by decide) (by decide)) hblock))

/-- What the clauses after the filters begin with. -/
def tailOpenings : List String := ["GROUP BY ", "ORDER BY ", "LIMIT "]

theorem startsPlainly_of_mem_tailOpenings {opening : String} (h : opening ∈ tailOpenings) :
    StartsPlainly opening.toList := by
  have hgroup : StartsPlainly "GROUP BY ".toList :=
    ⟨"GROUP".toList, ' ', "BY ".toList, by decide, by decide, by decide, by decide⟩
  have horder : StartsPlainly "ORDER BY ".toList :=
    ⟨"ORDER".toList, ' ', "BY ".toList, by decide, by decide, by decide, by decide⟩
  have hlimit : StartsPlainly "LIMIT ".toList :=
    ⟨"LIMIT".toList, ' ', [], by decide, by decide, by decide, by decide⟩
  simp only [tailOpenings, List.mem_cons, List.not_mem_nil, or_false] at h
  rcases h with rfl | rfl | rfl
  · exact hgroup
  · exact horder
  · exact hlimit

theorem exists_of_mem_tailLines {l : Line} (h : l ∈ p.tailLines w) :
    ∃ opening ∈ tailOpenings, ∃ rest, l.chars = opening.toList ++ rest := by
  have hfixed : ∀ opening rest : String,
      Line.chars [.fixed (opening ++ rest)] = opening.toList ++ rest.toList := by
    intro opening rest
    rw [Line.chars, Piece.chars_fixed, String.toList_append]
  rcases List.mem_append.1 h with h | h
  · rcases List.mem_append.1 h with h | h
    · cases hg : p.projection.groupBy with
      | nil =>
        rw [hg] at h
        cases h
      | cons e es =>
        rw [hg] at h
        obtain rfl := List.mem_singleton.1 h
        exact ⟨"GROUP BY ", by simp [tailOpenings], _, rfl⟩
    · cases ho : p.projection.orderBy with
      | nil =>
        rw [ho] at h
        cases h
      | cons k ks =>
        rw [ho] at h
        obtain rfl := List.mem_singleton.1 h
        exact ⟨"ORDER BY ", by simp [tailOpenings], _, hfixed _ _⟩
  · obtain rfl := List.mem_singleton.1 h
    exact ⟨"LIMIT ", by simp [tailOpenings], _, hfixed _ _⟩

/-- The number of rows is always limited. -/
theorem tailLines_ne_nil : p.tailLines w ≠ [] := by
  simp [tailLines, Query.limitLines]

theorem allInert_tail : AllInert (p.tailLines w) := by
  intro l hl
  obtain ⟨opening, hopening, rest, hrest⟩ := p.exists_of_mem_tailLines hl
  rw [hrest]
  exact ((startsPlainly_of_mem_tailOpenings hopening).append rest).firm

end Plan

/-! ## The lines that begin with a connective and are no clauses -/

/-- None of the lines is a clause. -/
def AllRefused (ls : List Line) : Prop := ∀ l ∈ ls, Clause.read? l.chars = none

namespace AllRefused

theorem append {ls ms : List Line} (hl : AllRefused ls) (hm : AllRefused ms) :
    AllRefused (ls ++ ms) := by
  intro l h
  rcases List.mem_append.1 h with h | h
  · exact hl l h
  · exact hm l h

end AllRefused

theorem AllInert.allRefused {ls : List Line} (h : AllInert ls) : AllRefused ls :=
  fun l hl => read?_of_isInert (h l hl).holds

theorem Clause.read?_blank {c : Char} (h : isBlank c = true) (cs : List Char) :
    Clause.read? (c :: cs) = Clause.read? cs := by
  rw [Clause.read?, tokenize_blank _ h]
  rfl

/-- After a connective, only a predicate makes a clause. -/
theorem Clause.ofTokens?_connective {w : List Char} (hw : (Token.word w).opensClause = true)
    {ts : List Token} (h : Predicate.ofTokens? ts = none) :
    Clause.ofTokens? (.word w :: ts) = none := by
  have hconnective : ∃ c, Connective.read? (.word w :: ts) = some (c, ts) := by
    unfold Connective.read?
    dsimp only
    split
    · exact ⟨_, rfl⟩
    · next hwhere =>
      have hand : isKeyword "AND" w = true := by simpa [Token.opensClause, hwhere] using hw
      exact ⟨_, if_pos hand⟩
  obtain ⟨c, hc⟩ := hconnective
  rw [Clause.ofTokens?]
  · simp only [hc, Option.bind_eq_bind, Option.bind_some]
    unfold Predicate.ofTokens? at h
    cases hp : Predicate.read? ts with
    | none => rfl
    | some pr =>
      obtain ⟨p, rest⟩ := pr
      rw [hp] at h
      simp only [Option.bind_some] at h ⊢
      split at h
      · cases h
      · next hrest => rw [if_neg hrest]
  · intro ts' heq
    cases heq

/-- The line asks for a row, after a connective. -/
def AsksRow (connective : String) (line : List Char) : Prop :=
  ∃ (negated : Bool) (rest : List Char), line =
    connective.toList ++
      ' ' :: ((if negated then "NOT EXISTS ".toList else "EXISTS ".toList) ++ '(' :: rest)

/-- A condition on an attribute is no clause: EXISTS is no column. -/
theorem AsksRow.read? {connective : String} {line w : List Char}
    (hk : tokenize connective.toList = some [.word w]) (hopens : (Token.word w).opensClause = true)
    (h : AsksRow connective line) : Clause.read? line = none := by
  have hexists : tokenize "EXISTS ".toList = some [.word "EXISTS".toList] :=
    tokenize_of_within (by decide)
  have hnot : tokenize "NOT EXISTS ".toList = some [.word "NOT".toList, .word "EXISTS".toList] :=
    tokenize_of_within (by decide)
  have hdate : isKeyword "DATE" "EXISTS".toList = false := by decide
  have hlike : isKeyword "LIKE" "EXISTS".toList = false := by decide
  have hin : isKeyword "IN" "EXISTS".toList = false := by decide
  obtain ⟨negated, rest, rfl⟩ := h
  rw [Clause.read?, tokenize_separated hk (by decide)]
  cases negated with
  | true =>
    simp only [if_true]
    rw [tokenize_separated hnot (by decide)]
    generalize tokenize _ = tokens
    cases tokens with
    | none => rfl
    | some ts =>
      exact Clause.ofTokens?_connective hopens (Predicate.ofTokens?_word "NOT".toList ts hlike hin)
  | false =>
    simp only [if_false, Bool.false_eq_true]
    rw [tokenize_separated hexists (by decide)]
    generalize tokenize _ = tokens
    cases tokens with
    | none => rfl
    | some ts =>
      exact Clause.ofTokens?_connective hopens (Predicate.ofTokens?_call _ hdate)

/-- The line compares the column of the website, and goes on after that. -/
def IsPivotCondition (site : Website) (line : List Char) : Prop :=
  ∃ rest, line = "  WHERE d.website_id =".toList ++ ' ' :: (Quoted.chars site.id.toList ++
    ' ' :: ("AND".toList ++ ' ' :: rest))

/-- The condition of the pivot is no clause: it goes on after its first comparison. -/
theorem IsPivotCondition.read? {site : Website} {line : List Char}
    (h : IsPivotCondition site line) : Clause.read? line = none := by
  have hopening : tokenize "  WHERE d.website_id =".toList =
      some [.word "WHERE".toList, .word "d".toList, .symbol ['.'], .word "website_id".toList,
        .symbol ['=']] := tokenize_of_within (by decide)
  have hand : tokenize "AND".toList = some [.word "AND".toList] := tokenize_identifier (by decide)
  obtain ⟨rest, rfl⟩ := h
  rw [Clause.read?, tokenize_separated hopening (by decide), tokenize_quoted,
    tokenize_blank _ (by decide), tokenize_separated hand (by decide)]
  cases tokenize rest with
  | none => rfl
  | some ts => exact Clause.ofTokens?_connective (by decide) rfl

/-- Each line is inert, or it is the condition of a pivot. -/
def AllInertOrPivot (site : Website) (ls : List Line) : Prop :=
  ∀ l ∈ ls, Firm (isInert · = true) l.chars ∨ IsPivotCondition site l.chars

theorem AllInert.orPivot {ls : List Line} (h : AllInert ls) (site : Website) :
    AllInertOrPivot site ls := fun l hl => .inl (h l hl)

namespace AllInertOrPivot

variable {site : Website} {ls ms : List Line}

theorem append (hl : AllInertOrPivot site ls) (hm : AllInertOrPivot site ms) :
    AllInertOrPivot site (ls ++ ms) := by
  intro l h
  rcases List.mem_append.1 h with h | h
  · exact hl l h
  · exact hm l h

theorem allRefused (h : AllInertOrPivot site ls) : AllRefused ls := by
  intro l hl
  rcases h l hl with hinert | hpivot
  · exact read?_of_isInert hinert.holds
  · exact hpivot.read?

end AllInertOrPivot

/-! ## The six runs -/

namespace Pivot

variable (settings : Settings) (site : Website) (as : List Attribute)

/-- What stands on the line of the pivot's condition. -/
theorem isPivotCondition :
    ∀ l ∈ Condition.blockLines (Pivot.query settings site as).conditions,
      IsPivotCondition site l.indent.chars := by
  have hcolumn : (AttributeRow.column scopeColumn).chars = "d.website_id".toList := by
    decide
  have hchars : (Condition.blockLines (Pivot.query settings site as).conditions).map Line.chars =
      ["WHERE d.website_id =".toList ++ ' ' :: (Quoted.chars site.id.toList ++
        ' ' :: ("AND".toList ++
          ' ' :: (Expr.among AttributeRow.keyColumn (as.map fun a => .text a.key)).chars))] := by
    simp only [Pivot.query, Condition.blockLines, List.flatMap_nil, List.append_nil,
      Condition.chars_always, if_true]
    rw [Expr.chars_all (by simp)]
    simp only [List.map_cons, List.map_nil, joined, Expr.eq, Expr.chars_compare, Expr.chars_value,
      hcolumn, Literal.render, toList_quote]
    simp [Comparison.symbol]
  intro l hl
  have hmem := List.mem_map_of_mem (f := Line.chars) hl
  rw [hchars, List.mem_singleton] at hmem
  rw [Line.chars_indent, hmem]
  exact ⟨_, rfl⟩

theorem allInertOrPivot_query :
    AllInertOrPivot site ((Pivot.query settings site as).lines.map Line.indent) := by
  have hfrom : StartsPlainly "FROM ".toList :=
    ⟨"FROM".toList, ' ', [], by decide, by decide, by decide, by decide⟩
  have hgroup : StartsPlainly "GROUP BY ".toList :=
    ⟨"GROUP".toList, ' ', "BY ".toList, by decide, by decide, by decide, by decide⟩
  have hitems : ∀ i ∈ (Pivot.query settings site as).select, StartsPlainly i.chars := by
    intro i hi
    rcases List.mem_cons.1 hi with rfl | hi
    · exact .item (.qualified (by decide) (by decide) _) none
    · obtain ⟨a, -, rfl⟩ := List.mem_map.1 hi
      exact .pivotColumn a
  have hselect := AllInert.selectLines (select_query_ne settings site as) hitems
  have hblock : AllInertOrPivot site
      ((Condition.blockLines (Pivot.query settings site as).conditions).map Line.indent) := by
    intro l hl
    obtain ⟨m, hm, rfl⟩ := List.mem_map.1 hl
    exact .inr (isPivotCondition settings site as m hm)
  have hkeys : AllInert (Query.groupLines [AttributeRow.column AttributeRow.eventColumn]) :=
    .cons (hgroup.append _).firm .nil
  rw [lines_query, List.map_append, List.map_append]
  exact (((hselect.append (.table hfrom _ _)).indent.orPivot site).append hblock).append
    (hkeys.indent.orPivot site)

theorem allInertOrPivot_join :
    AllInertOrPivot site (Query.joinLines [Pivot.join settings site as]) := by
  have hopen : AllInert [[.fixed (JoinKind.left.keywords ++ " (")]] := .fixed (by decide) (by decide)
  have hclose : AllInert [[.fixed (") " ++ Pivot.relation)]] := .fixed (by decide) (by decide)
  have hon : AllInert [.fixed "  ON " :: (Expr.eq (.of relation AttributeRow.eventColumn)
      (.of baseName "event_id")).pieces] := .cons (.of_not_mem (by decide) (by decide)) .nil
  rw [lines_join]
  exact (((hopen.orPivot site).append (allInertOrPivot_query settings site as)).append
    (hclose.orPivot site)).append (hon.orPivot site)

end Pivot

namespace Plan

variable (w : Warehouse) (site : Website) (r : Report)

/-- A condition of the outer statement asks for a row of the attribute table. -/
theorem hasRow_of_mem_outerConditions {c : Condition}
    (hc : c ∈ (w.plan site r).outerConditions) :
    ∃ negated table relation conditions,
      c = .always (.hasRow negated table relation conditions) := by
  obtain ⟨f, -, a, comparator, -, rfl⟩ := exists_of_mem_outerConditions hc
  exact ⟨_, _, _, _, rfl⟩

/-- Each line of the outer conditions asks for a row, and the first one has the WHERE. -/
theorem outerLines_cases :
    (w.plan site r).outerLines.map Line.chars = [] ∨
      ∃ line lines, (w.plan site r).outerLines.map Line.chars = line :: lines ∧
        AsksRow "WHERE" line ∧ ∀ m ∈ lines, AsksRow "  AND" m := by
  have hlines : ∀ c ∈ (w.plan site r).outerConditions, ∀ first, ∃ line,
      (c.lines first).map Line.chars = [line] ∧ AsksRow (if first then "WHERE" else "  AND") line := by
    intro c hc first
    obtain ⟨negated, table, relation, conditions, rfl⟩ := hasRow_of_mem_outerConditions w site r hc
    obtain ⟨rest, hrest⟩ : ∃ rest, (Expr.hasRow negated table relation conditions).chars =
        (if negated then "NOT EXISTS ".toList else "EXISTS ".toList) ++ '(' :: rest :=
      ⟨_, Expr.chars_hasRow negated table relation conditions⟩
    refine ⟨_, Condition.chars_always (.hasRow negated table relation conditions) first, negated,
      rest, ?_⟩
    rw [hrest]
    cases first <;> rfl
  unfold outerLines
  cases houter : (w.plan site r).outerConditions with
  | nil => exact .inl rfl
  | cons c cs =>
    rw [houter] at hlines
    obtain ⟨line, hline, hasks⟩ := hlines c List.mem_cons_self true
    refine .inr ⟨line, (cs.flatMap (Condition.lines false)).map Line.chars, ?_, hasks, ?_⟩
    · rw [Condition.blockLines, List.map_append, hline]
      rfl
    · intro m hm
      obtain ⟨l, hl, rfl⟩ := List.mem_map.1 hm
      obtain ⟨d, hd, hl⟩ := List.mem_flatMap.1 hl
      obtain ⟨line, hline, hasks⟩ := hlines d (List.mem_cons_of_mem c hd) false
      have hchars := List.mem_map_of_mem (f := Line.chars) hl
      rw [hline, List.mem_singleton] at hchars
      rw [hchars]
      exact hasks

theorem allRefused_outer : AllRefused (w.plan site r).outerLines := by
  have hwhere : tokenize "WHERE".toList = some [.word "WHERE".toList] := tokenize_identifier (by decide)
  have hand : tokenize "  AND".toList = some [.word "AND".toList] := tokenize_of_within (by decide)
  intro l hl
  have hchars := List.mem_map_of_mem (f := Line.chars) hl
  rcases outerLines_cases w site r with hnil | ⟨line, lines, heq, hline, hlines⟩
  · rw [hnil] at hchars
    cases hchars
  · rw [heq] at hchars
    rcases List.mem_cons.1 hchars with h | h
    · rw [h]
      exact hline.read? hwhere (by decide)
    · exact (hlines _ h).read? hand (by decide)

theorem select_ne : (w.plan site r).projection.select ≠ [.star ""] := by
  intro heq
  have hfit := Projection.isFit_of w.settings (.of w.registry r.attributes) r.outline
  have hshows := hfit.select (.star "") (by
    show Item.star "" ∈ (w.plan site r).projection.select
    rw [heq]
    exact List.mem_cons_self)
  cases hshows

theorem joinLines_query (p : Plan) :
    Query.joinLines (p.query w).joins =
      if p.attributes.isEmpty then []
      else Query.joinLines [Pivot.join w.settings p.website p.attributes] := by
  show Query.joinLines (if p.attributes.isEmpty then [] else _) = _
  split <;> rfl

theorem allInertOrPivot_select : AllInertOrPivot site ((w.plan site r).selectLines w) := by
  have hfit := Projection.isFit_of w.settings (.of w.registry r.attributes) r.outline
  have hclose : AllInert [[.fixed ")"]] := .fixed (by decide) (by decide)
  have hselect : AllInert (Item.selectLines (w.plan site r).projection.select) :=
    .selectLines (select_ne w site r) fun i hi => .shows (hfit.select i hi)
  have hfrom : AllInert [[.fixed ("FROM " ++ baseName)]] := .fixed (by decide) (by decide)
  have hjoins : AllInertOrPivot site (Query.joinLines ((w.plan site r).query w).joins) := by
    rw [joinLines_query]
    split
    · exact AllInert.nil.orPivot site
    · exact Pivot.allInertOrPivot_join _ _ _
  exact (hclose.orPivot site).append (((hselect.append hfrom).orPivot site).append hjoins)

/-! ## The clauses -/

theorem chars_scopeLine :
    (w.plan site r).scopeLine.chars =
      "  WHERE website_id =".toList ++ ' ' :: Quoted.chars site.id.toList := by
  have hcolumn : (Expr.column (.bare scopeColumn)).chars = "website_id".toList := by
    decide
  have hblock := Condition.chars_always
    (.eq (.column (.bare scopeColumn)) (.value (.text site.id))) true
  have hline : Line.chars (.fixed "WHERE " :: (Base.scopeCondition site).expr.pieces) =
      "WHERE".toList ++ ' ' :: (Expr.eq (.column (.bare scopeColumn)) (.value (.text site.id))).chars := by
    simpa [Condition.lines, Base.scopeCondition, Condition.expr] using hblock
  show (Line.indent (.fixed "WHERE " :: (Base.scopeCondition site).expr.pieces)).chars = _
  rw [Line.chars_indent, hline]
  simp only [Expr.eq, Expr.chars_compare, Expr.chars_value, hcolumn, Literal.render, toList_quote]
  simp [Comparison.symbol]

theorem read?_scopeLine :
    Clause.read? (w.plan site r).scopeLine.chars = some (scopeClause site) := by
  have hopening : tokenize "  WHERE website_id =".toList =
      some [.word "WHERE".toList, .word "website_id".toList, .symbol ['=']] :=
      tokenize_of_within (by decide)
  have hwhere : isKeyword "WHERE" "WHERE".toList = true := by decide
  have hquoted := tokenize_quoted site.id.toList []
  rw [List.append_nil, tokenize_nil] at hquoted
  have hliteral : Predicate.literal? [.quoted (Quoted.chars site.id.toList)] =
      some (Quoted.chars site.id.toList, []) := rfl
  have hcomparison := Predicate.comparison?_equals ⟨"website_id".toList⟩ hliteral
  have hpredicate : Predicate.read? [.word "website_id".toList, .symbol ['='],
      .quoted (Quoted.chars site.id.toList)] =
        some (.equals ⟨"website_id".toList⟩ (Quoted.chars site.id.toList), []) := by
    rw [Predicate.read?_column _ (by simp) (by simp), hcomparison]
  rw [chars_scopeLine, Clause.read?, tokenize_separated hopening (by decide), hquoted]
  show Clause.ofTokens? (.word "WHERE".toList :: [.word "website_id".toList, .symbol ['='],
    .quoted (Quoted.chars site.id.toList)]) = _
  rw [Clause.ofTokens?]
  · simp only [Connective.read?, hwhere, if_true, Option.bind_eq_bind, Option.bind_some, hpredicate]
    rw [scopeClause, toList_quote]
    rfl
  · intro ts heq
    cases heq

theorem baseConditions_eq :
    (w.plan site r).baseConditions = (r.baseFilters w).map fun (f, c) => f.columnCondition c := by
  show (r.filters.map _).filterMap Fate.base? = _
  rw [Report.baseFilters, List.filterMap_map, List.map_filterMap]
  refine List.filterMap_congr fun f _ => ?_
  have hbase := f.base?_fate w.settings (.of w.registry r.attributes)
  by_cases hcomplete : f.isComplete = true
  · rw [if_pos hcomplete] at hbase ⊢
    rw [Option.map_map]
    exact hbase
  · rw [if_neg hcomplete] at hbase ⊢
    exact hbase

end Plan

namespace Filter

/-- A list of values that is compared with is not empty. -/
theorem comparands_ne_nil_of_oneOf {f : Filter} (h : f.isComplete = true)
    (hop : f.operator.comparator? = some .oneOf) : f.comparands ≠ [] := by
  refine comparands_ne_nil (missingValue?_eq_none_iff.2 h) ?_
  cases hf : f.operator with
  | oneOf => rfl
  | _ =>
    rw [hf] at hop
    cases hop

/-- The line of a base filter is read as its clause. -/
theorem read?_columnLine {f : Filter} {c : Column} (hname : isIdentifier c.name = true)
    (hcomplete : f.isComplete = true) :
    ∃ line, (((f.columnCondition c).lines false).map Line.indent).map Line.chars = [line] ∧
      Clause.read? line = f.clause? c := by
  have hindent : ∀ ls : List Line, (ls.map Line.indent).map Line.chars =
      (ls.map Line.chars).map fun cs => ' ' :: ' ' :: cs := by
    intro ls
    rw [List.map_map, List.map_map]
    exact List.map_congr_left fun l _ => Line.chars_indent l
  unfold columnCondition
  cases hop : f.operator.comparator? with
  | none =>
    unfold clause?
    rw [Operator.comparator?_eq_none_iff.1 hop]
    refine ⟨' ' :: ' ' :: optionalChars c.name.toList, ?_, ?_⟩
    · rw [hindent, Condition.chars_optional]
      rfl
    · rw [Clause.read?_blank (by decide), Clause.read?_blank (by decide), Clause.read?,
        tokenize_optionalChars hname]
      have hwhere : isKeyword "WHERE" "AND".toList = false := by decide
      have hand : isKeyword "AND" "AND".toList = true := by decide
      simp only [Option.bind_some, Clause.ofTokens?, Connective.read?, hwhere, hand, if_true,
        Bool.false_eq_true, if_false, Option.bind_eq_bind, Predicate.read?]
  | some comparator =>
    obtain ⟨ts, htokens, hread⟩ := comparator.ofTokens?_compare hname c.type.isNumeric
      f.comparands fun h => comparands_ne_nil_of_oneOf hcomplete (h ▸ hop)
    rw [clause?_eq hop]
    refine ⟨"    AND".toList ++ ' ' ::
      (comparator.compare (.column (.bare c.name)) c.type.isNumeric f.comparands).chars, ?_, ?_⟩
    · rw [hindent, Condition.chars_always]
      rfl
    · rw [read?_andLine_ofTokens? htokens, hread]

end Filter

namespace Plan

variable (w : Warehouse) (site : Website) (r : Report)

theorem read?_filterLines (hw : w.registry.IsValid) :
    (((w.plan site r).filterLines).map Line.chars).map Clause.read? =
      (r.baseFilters w).map fun (f, c) => f.clause? c := by
  have hfit : ∀ fc ∈ r.baseFilters w,
      isIdentifier fc.2.name = true ∧ fc.1.isComplete = true := by
    intro fc hfc
    obtain ⟨hmem, hcomplete⟩ := Report.of_mem_baseFilters hfc
    exact ⟨Registry.isIdentifier_of_mem hw hmem, hcomplete⟩
  unfold filterLines
  rw [baseConditions_eq]
  generalize r.baseFilters w = fcs at hfit
  induction fcs with
  | nil => rfl
  | cons fc fcs ih =>
    obtain ⟨f, c⟩ := fc
    obtain ⟨hname, hcomplete⟩ := hfit _ List.mem_cons_self
    obtain ⟨line, hline, hread⟩ := Filter.read?_columnLine hname hcomplete
    have ih := ih fun fc hfc => hfit fc (List.mem_cons_of_mem _ hfc)
    rw [List.map_cons, List.flatMap_cons, List.map_append, List.map_append, List.map_append, ih,
      hline, List.map_cons, List.map_cons, List.map_nil, hread]
    rfl

end Plan

/-- The lines of a compiled text that are clauses: the one with the condition on the website, and
after it those of the base filters, in order, that a clause can say. -/
theorem clauses_readback (w : Warehouse) (r : Report) (site : Website)
    (hw : w.registry.validate = .ok ()) (hsite : r.website = some site)
    (hselected : site.isSelected = true) :
    (∃ before scope filters after,
      splitLines (w.compile r).sql.toList = before ++ scope :: (filters ++ after) ∧
      (∀ line ∈ before, Clause.read? line = none) ∧
      Clause.read? scope = some (scopeClause site) ∧
      filters.map Clause.read? = (r.baseFilters w).map (fun (f, c) => f.clause? c) ∧
      ∀ line ∈ after, Clause.read? line = none) ∧
    (splitLines (w.compile r).sql.toList).filterMap Clause.read? =
      scopeClause site :: (r.baseFilters w).filterMap fun (f, c) => f.clause? c := by
  have hlines : splitLines (w.compile r).sql.toList =
      ((w.plan site r).query w).lines.map Line.chars := by
    have hself := (SameShape.refl w r).planAlike hw hsite hsite
    have hneat := (hself.linesAlike hw w.settings.timezone).neat_left
    rw [Warehouse.sql_compile hsite hselected]
    exact Query.splitLines_sql (Plan.lines_query_ne_nil _ _) hneat
  have hchars : ∀ {ls : List Line}, AllRefused ls → ∀ line ∈ ls.map Line.chars,
      Clause.read? line = none := by
    intro ls h line hline
    obtain ⟨l, hl, rfl⟩ := List.mem_map.1 hline
    exact h l hl
  have hbefore := hchars (Plan.allInert_opening (w := w) (w.plan site r)).allRefused
  have hafter := hchars ((Plan.allInertOrPivot_select w site r).allRefused.append
    ((Plan.allRefused_outer w site r).append
      (Plan.allInert_tail (w := w) (w.plan site r)).allRefused))
  have hfilters := Plan.read?_filterLines w site r hw
  have hscope := Plan.read?_scopeLine w site r
  rw [Plan.lines_query, List.map_append, List.map_cons, List.map_append] at hlines
  refine ⟨⟨_, _, _, _, hlines, hbefore, hscope, hfilters, hafter⟩, ?_⟩
  have hnone : ∀ {ls : List (List Char)}, (∀ line ∈ ls, Clause.read? line = none) →
      ls.filterMap Clause.read? = [] := by
    intro ls h
    rw [List.filterMap_eq_nil_iff]
    exact h
  have hmiddle : (((w.plan site r).filterLines).map Line.chars).filterMap Clause.read? =
      (r.baseFilters w).filterMap fun (f, c) => f.clause? c := by
    have h := congrArg (List.filterMap id) hfilters
    simpa only [List.filterMap_map, Function.comp_def, id_eq] using h
  rw [hlines, List.filterMap_append, hnone hbefore, List.nil_append, List.filterMap_cons, hscope,
    List.filterMap_append, hnone hafter, List.append_nil]
  exact congrArg (scopeClause site :: ·) hmiddle

/-- Of a literal that quotes a clause, a number, a null check, a negation and an interactive filter,
all but the two that no clause can say are read back. -/
theorem clauses_readback_standard :
    (splitLines (Warehouse.compile {} {
        website := some { id := "a" }
        filters := [.equals "url_path" "' AND url_path = '", .isNull "browser",
          .oneOf "event_type" ["1", "x"], { column := "os", operator := .notEquals, value := some "b" },
          .interactive "page_title"] }).sql.toList).filterMap Clause.read? =
      [⟨.where_, false, .equals ⟨"website_id".toList⟩ "'a'".toList⟩,
        ⟨.and_, false, .equals ⟨"url_path".toList⟩ "'\\' AND url_path = \\''".toList⟩,
        ⟨.and_, false, .oneOf ⟨"event_type".toList⟩ ["1".toList, "'x'".toList]⟩,
        ⟨.and_, true, .placeholder "page_title".toList⟩] := by
  have hvalid : Registry.standard.validate = .ok () := by decide
  have h := fun r hsite => (clauses_readback {} r { id := "a" } hvalid hsite (by decide)).2
  exact (h _ rfl).trans (by decide)

end EventReport
