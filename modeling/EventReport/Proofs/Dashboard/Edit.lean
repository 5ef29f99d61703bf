/-
# The place where a variable is bound

To bind a variable is to change a text in one place: one line gives way to another,
or one filter is put in, perhaps with a WHERE before it.  What this means for the
text is said of its lines as they are cut out of it again.

## What is proved

The lines of the bound text are those of the bound document (`splitLines_bind`), for
no line that is written holds a line feed.  All of them but the ones of that place
stand as they stood (`bind_edits`).  The filter that is written is read back with
the indentation, the connective, the brackets and the column of the filter that it
took over, and so one line more refers to the variable.
-/
import EventReport.Proofs.Dashboard.Survival

namespace EventReport

/-- The column of a filter, as it is spelled. -/
def Predicate.column? : Predicate → Option ColumnName
  | equals column _ | oneOf column _ | like column _ => some column
  | equalsPlaceholder column _ | dateEqualsPlaceholder column _ => some column
  | placeholder _ => none

namespace Dashboard

open Text
open Placeholder (occurs)

namespace Variable

variable {v : Variable}

/-! ## The line that is taken over -/

/-- The line is a filter with literals on the target column, and the column is not the one that the
website is selected by. -/
structure Takes (v : Variable) (line : List Char) (c : Clause) (column : ColumnName) : Prop where
  clause : TextLine.clause? line = some c
  literal : c.predicate.literalColumn? = some column
  target : column.isNamed v.targetColumn.toList = true
  free : column.isNamed scopeColumn.toList = false

/-- Whether the variable may take the filter over. -/
def MayTake (v : Variable) (line : List Char) : Prop := ∃ c column, v.Takes line c column

theorem boundLine?_eq_some_iff {line new : List Char} :
    v.boundLine? line = some new ↔ ∃ c column, v.Takes line c column ∧
      new = TextLine.indent line ++ Clause.render { c with predicate := v.predicate column } := by
  constructor
  · intro h
    obtain ⟨c, hc, h⟩ := Option.bind_eq_some_iff.1 h
    obtain ⟨column, hcolumn, h⟩ := Option.bind_eq_some_iff.1 h
    split at h
    · next hnamed =>
      simp only [Bool.and_eq_true, Bool.not_eq_true'] at hnamed
      exact ⟨c, column, ⟨hc, hcolumn, hnamed.2, hnamed.1⟩, (Option.some.inj h).symm⟩
    · cases h
  · rintro ⟨c, column, ⟨hc, hcolumn, htarget, hfree⟩, rfl⟩
    simp [boundLine?, hc, hcolumn, htarget, hfree]

theorem boundLine?_eq_none_iff {line : List Char} : v.boundLine? line = none ↔ ¬v.MayTake line := by
  constructor
  · rintro h ⟨c, column, htakes⟩
    rw [boundLine?_eq_some_iff.2 ⟨c, column, htakes, rfl⟩] at h
    cases h
  · intro h
    cases hline : v.boundLine? line with
    | none => rfl
    | some new =>
      obtain ⟨c, column, htakes, -⟩ := boundLine?_eq_some_iff.1 hline
      exact absurd ⟨c, column, htakes⟩ h

theorem bindFirst?_append {before rest : List (List Char)}
    (h : ∀ line ∈ before, v.boundLine? line = none) :
    v.bindFirst? (before ++ rest) = (v.bindFirst? rest).map (before ++ ·) := by
  induction before with
  | nil => simp
  | cons b before ih =>
    have ih := ih fun l hl => h l (List.mem_cons_of_mem b hl)
    rw [List.cons_append, bindFirst?, h b List.mem_cons_self, ih, Option.map_map]
    rfl

/-- Either the first filter that may be taken over is, or there is none. -/
theorem exists_first (v : Variable) (lines : List (List Char)) :
    (∃ before line after, lines = before ++ line :: after ∧
      (∀ l ∈ before, ¬v.MayTake l) ∧ v.MayTake line) ∨ ∀ l ∈ lines, ¬v.MayTake l := by
  induction lines with
  | nil => exact .inr fun l hl => absurd hl List.not_mem_nil
  | cons line lines ih =>
    by_cases hline : v.MayTake line
    · exact .inl ⟨[], line, lines, rfl, fun l hl => absurd hl List.not_mem_nil, hline⟩
    · rcases ih with ⟨before, l, after, rfl, hbefore, hl⟩ | hnone
      · exact .inl ⟨line :: before, l, after, rfl, List.forall_mem_cons.2 ⟨hline, hbefore⟩, hl⟩
      · exact .inr (List.forall_mem_cons.2 ⟨hline, hnone⟩)

end Variable

namespace Document

variable {v : Variable}

theorem bind_of_boundLine {before after : List (List Char)} {line new : List Char}
    (hbefore : ∀ l ∈ before, v.boundLine? l = none) (hline : v.boundLine? line = some new) :
    Document.bind ⟨before ++ line :: after⟩ v = ⟨before ++ new :: after⟩ := by
  have hfirst : v.bindFirst? (before ++ line :: after) = some (before ++ new :: after) := by
    rw [Variable.bindFirst?_append hbefore, Variable.bindFirst?, hline]
    rfl
  rw [Document.bind, hfirst]

theorem bind_of_none {lines : List (List Char)} (h : ∀ l ∈ lines, v.boundLine? l = none) :
    Document.bind ⟨lines⟩ v = Document.addFilter ⟨lines⟩ v := by
  rw [Document.bind, bindFirst?_eq_none h]

theorem tailStart_le (d : Document) : d.tailStart ≤ d.lines.length := by
  unfold tailStart
  split
  · next i hi => exact Nat.le_of_lt (List.findIdx?_eq_some_iff_findIdx_eq.1 hi).1
  · exact Nat.sub_le _ _

end Document

/-! ## The lines that are written -/

theorem indent_render {indent : List Char} (hindent : ∀ d ∈ indent, isBlank d = true) {c : Clause}
    {us : List Token} (h : c.predicate.IsWritten us) :
    TextLine.indent (indent ++ c.render) = indent := by
  have hbody : TextLine.body (indent ++ c.render) = indent ++ c.render := by
    refine body_eq_self ?_
    rw [List.getLast?_append]
    cases hlast : c.render.getLast? with
    | none =>
      obtain ⟨connective, optional, p⟩ := c
      cases optional <;> simp [Clause.render] at hlast
    | some d =>
      have hreturn := getLast?_render h
      rwa [hlast] at hreturn
  have hhead : ∀ d ∈ c.render.head?, isBlank d = false := by
    intro d hd
    obtain ⟨connective, optional, p⟩ := c
    cases optional with
    | true =>
      obtain rfl : '[' = d := by simpa [Clause.render] using hd
      decide
    | false =>
      cases connective with
      | where_ =>
        obtain rfl : 'W' = d := by simpa [Clause.render, Connective.keyword] using hd
        decide
      | and_ =>
        obtain rfl : 'A' = d := by simpa [Clause.render, Connective.keyword] using hd
        decide
  rw [TextLine.indent, hbody, leadingBlanks, Token.takeWhile_append_of_head hhead,
    List.takeWhile_eq_self_iff.2 hindent]

theorem column?_predicate {v : Variable} (hkind : ∀ target, v.kind ≠ .fieldFilter target)
    (column : ColumnName) : (v.predicate column).column? = some column := by
  unfold Variable.predicate
  cases hk : v.kind with
  | fieldFilter target => exact absurd hk (hkind target)
  | text => rfl
  | number => rfl
  | date => rfl

theorem placeholder?_predicate (v : Variable) (column : ColumnName) :
    (v.predicate column).placeholder? = some v.name.toList := by
  unfold Variable.predicate
  cases v.kind <;> rfl

theorem refersTo_of_predicate {v : Variable} {line : List Char} {connective : Connective} {optional : Bool}
    {column : ColumnName}
    (h : TextLine.clause? line = some ⟨connective, optional, v.predicate column⟩) :
    TextLine.refersTo v.name.toList line = true := by
  rw [TextLine.refersTo, h]
  simp [placeholder?_predicate]

section Variable

variable {v : Variable} (hv : isIdentifier v.name = true)

include hv

/-- The column of the filter that is added is a qualified identifier, if it is written at all. -/
theorem isWritten_added : ∃ us,
    (v.predicate ⟨baseName.toList ++ '.' :: v.targetColumn.toList⟩).IsWritten us := by
  have hspelled : ∀ w : List Char, isIdentifierChars w = true →
      ∃ us, (ColumnName.mk (baseName.toList ++ '.' :: w)).IsSpelled us := by
    intro w hw
    have htokens := tokenize_qualified (r := baseName.toList) (by decide) hw
    have hline : '\n' ∉ baseName.toList ++ '.' :: w := by
      have hneat : isNeat (baseName.toList ++ ['.']) = true := by decide
      have hline := newline_not_mem_of_isNeat (isNeat_append hneat (isNeat_identifier hw))
      rwa [List.append_assoc] at hline
    have hcolumn : Grammar.IsColumn [.word baseName.toList, .symbol ['.'], .word w]
        ⟨baseName.toList ++ '.' :: w⟩ := .part _ (.word w)
    exact ⟨_, ColumnName.isSpelled_of_isColumn hcolumn (inLine_of_tokenize hline htokens)⟩
  unfold Variable.targetColumn
  cases hk : v.kind with
  | fieldFilter target =>
    unfold Variable.predicate
    rw [hk]
    exact ⟨_, Predicate.isWritten_placeholder hv⟩
  | text =>
    obtain ⟨us, hus⟩ := hspelled _ hv
    exact isWritten_predicate hv hus
  | number =>
    obtain ⟨us, hus⟩ := hspelled _ hv
    exact isWritten_predicate hv hus
  | date =>
    obtain ⟨us, hus⟩ := hspelled Registry.defaultTimestampField.toList (by decide)
    exact isWritten_predicate hv hus

theorem clause?_addedLine : TextLine.clause? v.addedLine =
    some ⟨.and_, true, v.predicate ⟨baseName.toList ++ '.' :: v.targetColumn.toList⟩⟩ := by
  obtain ⟨us, hus⟩ := isWritten_added hv
  have hwritten : (Clause.mk .and_ true
      (v.predicate ⟨baseName.toList ++ '.' :: v.targetColumn.toList⟩)).predicate.IsWritten us := hus
  exact clause?_render hwritten (isBlank_of_mem_replicate 2)

/-- The filter that takes the place of another is written in the same way. -/
theorem Variable.Takes.boundLine {line : List Char} {c : Clause} {column : ColumnName}
    (h : v.Takes line c column) (hline : '\n' ∉ line) :
    ∃ new, v.boundLine? line = some new ∧ TextLine.indent new = TextLine.indent line ∧
      TextLine.clause? new = some ⟨c.connective, c.optional, v.predicate column⟩ ∧ '\n' ∉ new := by
  have hbound := Variable.boundLine?_eq_some_iff.2 ⟨c, column, h, rfl⟩
  obtain ⟨-, us, hspelled⟩ := Clause.exists_of_read? hline (read?_of_clause? h.clause) h.literal
  obtain ⟨vs, hwritten⟩ := isWritten_predicate hv hspelled
  have hblank : ∀ d ∈ TextLine.indent line, isBlank d = true := isBlank_of_mem_leadingBlanks
  have hwritten' : (Clause.mk c.connective c.optional (v.predicate column)).predicate.IsWritten vs :=
    hwritten
  refine ⟨_, hbound, indent_render hblank hwritten', clause?_render hwritten' hblank, ?_⟩
  rw [List.mem_append, not_or]
  refine ⟨fun hmem => ?_, TextLine.newline_not_mem_render hwritten'⟩
  have hbody : '\n' ∈ TextLine.body line := (List.takeWhile_sublist _).subset hmem
  exact hline (List.mem_reverse.1 ((List.dropWhile_sublist _).subset (List.mem_reverse.1 hbody)))

theorem newline_not_mem_bind {lines : List (List Char)} (h : ∀ l ∈ lines, '\n' ∉ l) :
    ∀ l ∈ (Document.bind ⟨lines⟩ v).lines, '\n' ∉ l := by
  rcases v.exists_first lines with ⟨before, line, after, rfl, hbefore, c, column, htakes⟩ | hnone
  · obtain ⟨new, hbound, -, -, hnew⟩ := htakes.boundLine hv (h line (by simp))
    rw [Document.bind_of_boundLine (fun l hl => Variable.boundLine?_eq_none_iff.2 (hbefore l hl))
      hbound]
    intro l hl
    rcases List.mem_append.1 hl with hl | hl
    · exact h l (List.mem_append_left _ hl)
    rcases List.mem_cons.1 hl with rfl | hl
    · exact hnew
    · exact h l (List.mem_append_right _ (List.mem_cons_of_mem _ hl))
  · rw [Document.bind_of_none fun l hl => Variable.boundLine?_eq_none_iff.2 (hnone l hl),
      Document.lines_addFilter]
    intro l hl
    rcases List.mem_append.1 hl with hl | hl
    · rcases List.mem_append.1 hl with hl | hl
      · exact h l (List.mem_of_mem_take hl)
      · rw [Document.mem_opening hl]
        decide
    rcases List.mem_cons.1 hl with rfl | hl
    · exact newline_not_mem_of_isNeat (isFilter_addedLine hv).2
    · exact h l (List.mem_of_mem_drop hl)

/-- The bound text is cut into the lines of the bound document. -/
theorem splitLines_bind {sql : String} (hnew : occurs v.name.toList sql.toList = false) :
    splitLines (bind sql v).toList = (Document.bind ⟨splitLines sql.toList⟩ v).lines := by
  have hbinds : (isIdentifier v.name && !occurs v.name.toList sql.toList) = true := by
    rw [hv, hnew]
    rfl
  have hne : (Document.bind ⟨splitLines sql.toList⟩ v).lines ≠ [] := by
    rw [Document.bind]
    split
    · next bound hbound =>
      obtain ⟨before, line, after, new, -, rfl, -⟩ := exists_of_bindFirst? hbound
      simp
    · simp [Document.addFilter]
  rw [bind, if_pos hbinds, String.toList_ofList, Document.ofText, Document.text]
  exact splitLines_joinLines hne
    (newline_not_mem_bind hv fun l hl => not_mem_of_mem_splitLines hl)

end Variable

theorem Variable.Takes.refersTo {v : Variable} {line : List Char} {c : Clause} {column : ColumnName}
    (h : v.Takes line c column) (name : List Char) : TextLine.refersTo name line = false := by
  refine TextLine.refersTo_of_isLiteral name ?_
  rw [TextLine.isLiteral, h.clause]
  simp [h.literal]

/-- The condition that always holds is no filter on a column. -/
theorem clause?_alwaysLine : TextLine.clause? (alwaysLine []) = none := by decide_cbv

theorem refersTo_of_mem_opening (name : List Char) {d : Document} {line : List Char}
    (h : line ∈ d.opening) : TextLine.refersTo name line = false := by
  rw [Document.mem_opening h, TextLine.refersTo, clause?_alwaysLine]

/-- Binding changes a text in one place: the first filter that the variable may take over gives way
to one that differs from it in the predicate only, or an optional filter is put in after those of
the outermost statement, with a WHERE before it if that has none. -/
theorem bind_edits (sql : String) (v : Variable) (hv : isIdentifier v.name = true)
    (hnew : occurs v.name.toList sql.toList = false) :
    ((∃ before line after c column new, splitLines sql.toList = before ++ line :: after ∧
        (∀ l ∈ before, ¬v.MayTake l) ∧ v.Takes line c column ∧
        splitLines (bind sql v).toList = before ++ new :: after ∧
        TextLine.indent new = TextLine.indent line ∧
        TextLine.clause? new = some ⟨c.connective, c.optional, v.predicate column⟩ ∧
        ((∀ target, v.kind ≠ .fieldFilter target) →
          (v.predicate column).column? = some column)) ∨
      (∀ l ∈ splitLines sql.toList, ¬v.MayTake l) ∧
        ∃ place ≤ (splitLines sql.toList).length,
          place = (Document.ofText sql.toList).tailStart ∧
          splitLines (bind sql v).toList = (splitLines sql.toList).take place ++
            (if (Document.ofText sql.toList).hasTopLevelWhere place then []
              else ["WHERE 1 = 1".toList]) ++
            v.addedLine :: (splitLines sql.toList).drop place ∧
          TextLine.clause? v.addedLine =
            some ⟨.and_, true, v.predicate ⟨baseName.toList ++ '.' :: v.targetColumn.toList⟩⟩) ∧
      (splitLines (bind sql v).toList).countP (TextLine.refersTo v.name.toList) =
        (splitLines sql.toList).countP (TextLine.refersTo v.name.toList) + 1 := by
  have hlines := splitLines_bind hv hnew
  rcases v.exists_first (splitLines sql.toList) with
    ⟨before, line, after, hsplit, hbefore, c, column, htakes⟩ | hnone
  · have hmem : line ∈ splitLines sql.toList := by simp [hsplit]
    have hline : '\n' ∉ line := not_mem_of_mem_splitLines hmem
    obtain ⟨new, hbound, hindent, hclause, -⟩ := htakes.boundLine hv hline
    rw [hsplit, Document.bind_of_boundLine
      (fun l hl => Variable.boundLine?_eq_none_iff.2 (hbefore l hl)) hbound] at hlines
    refine ⟨.inl ⟨before, line, after, c, column, new, hsplit, hbefore, htakes, hlines, hindent,
      hclause, fun hkind => column?_predicate hkind column⟩, ?_⟩
    rw [hlines, hsplit]
    simp only [List.countP_append, List.countP_cons, htakes.refersTo,
      refersTo_of_predicate hclause]
    rfl
  · rw [Document.bind_of_none fun l hl => Variable.boundLine?_eq_none_iff.2 (hnone l hl),
      Document.lines_addFilter] at hlines
    have hadded := clause?_addedLine hv
    refine ⟨.inr ⟨hnone, _, Document.tailStart_le (Document.ofText sql.toList), rfl, hlines,
      hadded⟩, ?_⟩
    have hopening : (Document.opening ⟨splitLines sql.toList⟩).countP
        (TextLine.refersTo v.name.toList) = 0 := by
      rw [List.countP_eq_zero]
      intro l hl
      rw [refersTo_of_mem_opening _ hl]
      exact Bool.false_ne_true
    have hkept : (splitLines sql.toList).countP (TextLine.refersTo v.name.toList) =
        ((splitLines sql.toList).take (Document.tailStart ⟨splitLines sql.toList⟩)).countP
            (TextLine.refersTo v.name.toList) +
          ((splitLines sql.toList).drop (Document.tailStart ⟨splitLines sql.toList⟩)).countP
            (TextLine.refersTo v.name.toList) := by
      rw [← List.countP_append, List.take_append_drop]
    rw [hlines, hkept]
    simp only [List.countP_append, List.countP_cons, hopening, refersTo_of_predicate hadded]
    rfl

/-- A block whose second filter the variable takes over. -/
theorem bind_edits_block :
    (splitLines (bind "WHERE x = 'b'\n  AND y = 1" (.named "y" .text)).toList).countP
        (TextLine.refersTo "y".toList) =
      (splitLines "WHERE x = 'b'\n  AND y = 1".toList).countP (TextLine.refersTo "y".toList) + 1 :=
  (bind_edits "WHERE x = 'b'\n  AND y = 1" (.named "y" .text) (by decide) (by decide_cbv)).2

end Dashboard

end EventReport
