/-
# Binding a variable once more

A variable that is bound already is left alone, and that it is bound is seen from its
placeholder.

## What is proved

`bind_eq_self_iff`: a text stays as it is if and only if the name is no identifier or
the placeholder occurs.  So binding twice is binding once exactly if the first
binding writes a placeholder that is found again (`bind_bind_iff`).  It is, if the
text before it leaves no braces open; that is so wherever each line of the statement
closes the braces it opens (`bind_bind_of_closed`).

## What is NOT proved, because it is false

That binding twice is always binding once.  The search for placeholders does not know
about quoted texts, and two opening braces in the literal of a filter hide every
placeholder up to the next two closing braces.  So a variable can be bound behind
such a filter again and again.
-/
import EventReport.Proofs.Dashboard.Scope

namespace EventReport.Dashboard

open Text Sql
open Placeholder (write occurs leavesOpen)

/-! ## Lines within a text -/

/-- Lines that close the braces they open leave none open. -/
theorem leavesOpen_lines {before : List (List Char)} (h : ∀ line ∈ before, leavesOpen line = false)
    (start : List Char) :
    leavesOpen (before.flatMap (· ++ ['\n']) ++ start) = leavesOpen start := by
  induction before with
  | nil => rfl
  | cons b before ih =>
    have ih := ih fun l hl => h l (List.mem_cons_of_mem b hl)
    have hsep := Placeholder.separate_cons (d := '\n') (by decide) (by decide) b
      (before.flatMap (· ++ ['\n']) ++ start)
    have hline := Placeholder.leavesOpen_append hsep
    rw [h b List.mem_cons_self] at hline
    rw [List.flatMap_cons, List.append_assoc, List.append_assoc, List.singleton_append, hline]
    show leavesOpen ('\n' :: _) = _
    rw [Placeholder.leavesOpen_cons fun hc => absurd hc (by decide), ih]

/-! ## The line that is bound -/

theorem getLast?_render {c : Clause} {us : List Token} (h : c.predicate.IsWritten us) :
    c.render.getLast? ≠ some '\r' := by
  obtain ⟨connective, optional, p⟩ := c
  have hlast := h.readsAs.last
  cases optional with
  | true =>
    simp [Clause.render, List.getLast?_cons]
  | false =>
    have hrender : Clause.render ⟨connective, false, p⟩ =
        connective.keyword.toList ++ ' ' :: p.render := rfl
    rw [hrender, List.getLast?_append, List.getLast?_cons]
    cases hp : p.render.getLast? with
    | none => simp
    | some d => simpa [hp] using hlast

theorem clause?_render {c : Clause} {us : List Token} (h : c.predicate.IsWritten us)
    {indent : List Char} (hindent : ∀ d ∈ indent, isBlank d = true) :
    TextLine.clause? (indent ++ c.render) = some c := by
  have hlast : (indent ++ c.render).getLast? ≠ some '\r' := by
    have hrender := getLast?_render h
    rw [List.getLast?_append]
    cases hc : c.render.getLast? with
    | none =>
      obtain ⟨connective, optional, p⟩ := c
      cases optional <;> simp [Clause.render] at hc
    | some d => simpa [hc] using hrender
  rw [TextLine.clause?, body_eq_self hlast]
  exact Clause.read?_render h hindent

/-- Carriage returns at the end of a line are blanks, so a filter is read with them, too. -/
theorem read?_of_clause? {line : List Char} {c : Clause} (h : TextLine.clause? line = some c) :
    Clause.read? line = some c := by
  obtain ⟨returns, hline, hreturns⟩ : ∃ returns, line = TextLine.body line ++ returns ∧
      ∀ d ∈ returns, d = '\r' := by
    refine ⟨(line.reverse.takeWhile (· == '\r')).reverse, ?_, fun d hd => ?_⟩
    · rw [TextLine.body, ← List.reverse_append, List.takeWhile_append_dropWhile,
        List.reverse_reverse]
    · simpa using List.mem_takeWhile_imp (List.mem_reverse.1 hd)
  have hblank : tokenize returns = some [] := by
    have hreturn : isBlank '\r' = true := by decide
    have hreturns : ∀ d ∈ returns, isBlank d = true := fun d hd => hreturns d hd ▸ hreturn
    have htokens := tokenize_blanks hreturns []
    rwa [List.append_nil, tokenize_nil] at htokens
  have hapart : ∀ d ∈ returns.head?, Token.isApart d = true := by
    intro d hd
    obtain rfl := hreturns d (List.mem_of_mem_head? hd)
    decide
  obtain ⟨ts, htokens, hclause⟩ := Option.bind_eq_some_iff.1 h
  rw [hline, Clause.read?, tokenize_append htokens hapart, hblank]
  simpa using hclause

theorem literalColumn?_predicate (v : Variable) (column : ColumnName) :
    (v.predicate column).literalColumn? = none := by
  unfold Variable.predicate
  cases v.kind <;> rfl

section Variable

variable {v : Variable} (hv : isIdentifier v.name = true)

include hv

theorem isWritten_predicate {column : ColumnName} {us : List Token} (hc : column.IsSpelled us) :
    ∃ vs, (v.predicate column).IsWritten vs := by
  unfold Variable.predicate
  split
  · exact ⟨_, Predicate.isWritten_placeholder hv⟩
  · exact ⟨_, Predicate.isWritten_equalsPlaceholder hc hv⟩
  · exact ⟨_, Predicate.isWritten_equalsPlaceholder hc hv⟩
  · exact ⟨_, Predicate.isWritten_dateEqualsPlaceholder hc hv⟩

/-- A line that is bound is a filter with a placeholder, where it was one with a literal. -/
theorem clause?_boundLine {line bound : List Char} (hline : '\n' ∉ line)
    (h : v.boundLine? line = some bound) :
    ∃ c column, TextLine.clause? line = some c ∧ c.predicate.literalColumn? = some column ∧
      bound = TextLine.indent line ++ { c with predicate := v.predicate column }.render ∧
      TextLine.clause? bound = some { c with predicate := v.predicate column } := by
  obtain ⟨c, hc, h⟩ := Option.bind_eq_some_iff.1 h
  obtain ⟨column, hcolumn, h⟩ := Option.bind_eq_some_iff.1 h
  split at h
  · obtain rfl := Option.some.inj h
    obtain ⟨-, us, hspelled⟩ := Clause.exists_of_read? hline (read?_of_clause? hc) hcolumn
    obtain ⟨vs, hwritten⟩ := isWritten_predicate hv hspelled
    exact ⟨c, column, hc, hcolumn, rfl, clause?_render hwritten isBlank_of_mem_leadingBlanks⟩
  · cases h

theorem boundLine_ne {line bound : List Char} (hline : '\n' ∉ line)
    (h : v.boundLine? line = some bound) : bound ≠ line := by
  obtain ⟨c, column, hc, hcolumn, -, hbound⟩ := clause?_boundLine hv hline h
  rintro rfl
  rw [hc, Option.some.injEq] at hbound
  rw [hbound, literalColumn?_predicate] at hcolumn
  cases hcolumn

end Variable

/-- What stands before the placeholder in a predicate that a variable of the kind is bound by. -/
theorem exists_front_of_kind (kind : VariableKind) (column : ColumnName) :
    ∃ front, (∀ v : Variable, v.kind = kind →
        (v.predicate column).render = front ++ write v.name.toList) ∧
      (front = [] ∨ front.getLast? = some ' ') ∧
      ('\x7b' ∈ front → (∀ target, kind ≠ .fieldFilter target) ∧ '\x7b' ∈ column.spelling) := by
  have hequals : ∀ p : List Char, (p ++ " = ".toList).getLast? = some ' ' := by
    intro p
    rw [List.getLast?_append]
    rfl
  have hspelled : ∀ {p : List Char}, '\x7b' ∈ p ++ " = ".toList → '\x7b' ∈ p := by
    intro p hmem
    exact (List.mem_append.1 hmem).resolve_right (by decide)
  cases kind with
  | fieldFilter target =>
    exact ⟨[], fun v hv => by rw [Variable.predicate, hv]; rfl, .inl rfl, by simp⟩
  | text | number =>
    exact ⟨column.spelling ++ " = ".toList, fun v hv => by rw [Variable.predicate, hv]; rfl,
      .inr (hequals _), fun hmem => ⟨by simp, hspelled hmem⟩⟩
  | date =>
    refine ⟨"DATE(".toList ++ column.spelling ++ ") = ".toList,
      fun v hv => by rw [Variable.predicate, hv]; rfl, .inr ?_, fun hmem => ⟨by simp, ?_⟩⟩
    · rw [List.getLast?_append]
      rfl
    · have hmem := (List.mem_append.1 hmem).resolve_right (by decide)
      exact (List.mem_append.1 hmem).resolve_left (by decide)

/-- Where the placeholder stands in a filter that a variable of the kind is bound by. -/
theorem exists_render_of_kind (kind : VariableKind) (connective : Connective) (optional : Bool)
    (column : ColumnName) :
    ∃ start finish, (∀ v : Variable, v.kind = kind →
        Clause.render ⟨connective, optional, v.predicate column⟩ =
          start ++ (write v.name.toList ++ finish)) ∧
      start.getLast? = some ' ' ∧ '\x7b' ∉ finish ∧
      ('\x7b' ∈ start → (∀ target, kind ≠ .fieldFilter target) ∧ '\x7b' ∈ column.spelling) := by
  obtain ⟨front, hfront, hlast, hbrace⟩ := exists_front_of_kind kind column
  have hkeyword : '\x7b' ∉ connective.keyword.toList ++ [' '] := by cases connective <;> decide
  have hstart : (connective.keyword.toList ++ ' ' :: front).getLast? = some ' ' := by
    rw [List.getLast?_append, List.getLast?_cons]
    rcases hlast with rfl | hlast
    · rfl
    · rw [hlast]
      rfl
  have hfront' : '\x7b' ∈ connective.keyword.toList ++ ' ' :: front → '\x7b' ∈ front := by
    intro hmem
    rw [List.append_cons] at hmem
    exact (List.mem_append.1 hmem).resolve_left hkeyword
  cases optional with
  | false =>
    refine ⟨connective.keyword.toList ++ ' ' :: front, [], fun v hv => ?_, hstart,
      List.not_mem_nil, fun hmem => hbrace (hfront' hmem)⟩
    simp [Clause.render, hfront v hv]
  | true =>
    refine ⟨'[' :: '[' :: (connective.keyword.toList ++ ' ' :: front), [']', ']'],
      fun v hv => ?_, ?_, by decide, fun hmem => hbrace (hfront' (by simpa using hmem))⟩
    · simp [Clause.render, hfront v hv]
    · rw [List.getLast?_cons, List.getLast?_cons, hstart]
      rfl

/-- Where the placeholder of a variable stands in a filter. -/
theorem exists_render_predicate (v : Variable) (connective : Connective) (optional : Bool)
    (column : ColumnName) :
    ∃ start finish, Clause.render ⟨connective, optional, v.predicate column⟩ =
        start ++ (write v.name.toList ++ finish) ∧ start.getLast? = some ' ' ∧ '\x7b' ∉ finish ∧
      ('\x7b' ∈ start → (∀ target, v.kind ≠ .fieldFilter target) ∧ '\x7b' ∈ column.spelling) := by
  obtain ⟨start, finish, hrender, hstart⟩ :=
    exists_render_of_kind v.kind connective optional column
  exact ⟨start, finish, hrender v rfl, hstart⟩

theorem exists_of_bindFirst? {v : Variable} {lines bound : List (List Char)}
    (h : v.bindFirst? lines = some bound) :
    ∃ before line after new, lines = before ++ line :: after ∧ bound = before ++ new :: after ∧
      v.boundLine? line = some new := by
  induction lines generalizing bound with
  | nil => cases h
  | cons line lines ih =>
    rw [Variable.bindFirst?] at h
    split at h
    · next new hnew =>
      obtain rfl := Option.some.inj h
      exact ⟨[], line, lines, new, rfl, rfl, hnew⟩
    · obtain ⟨rest, hrest, rfl⟩ := Option.map_eq_some_iff.1 h
      obtain ⟨before, line', after, new, rfl, rfl, hnew⟩ := ih hrest
      exact ⟨line :: before, line', after, new, rfl, rfl, hnew⟩

theorem bindFirst?_eq_none {v : Variable} {lines : List (List Char)}
    (h : ∀ line ∈ lines, v.boundLine? line = none) : v.bindFirst? lines = none := by
  induction lines with
  | nil => rfl
  | cons line lines ih =>
    rw [Variable.bindFirst?, h line List.mem_cons_self]
    dsimp only
    rw [ih fun l hl => h l (List.mem_cons_of_mem line hl)]
    rfl

namespace Document

/-- The condition that always holds, where the outermost statement has no WHERE. -/
def opening (d : Document) : List (List Char) :=
  if d.hasTopLevelWhere d.tailStart then [] else [alwaysLine []]

theorem lines_addFilter (d : Document) (v : Variable) :
    (d.addFilter v).lines =
      d.lines.take d.tailStart ++ d.opening ++ v.addedLine :: d.lines.drop d.tailStart := rfl

theorem mem_opening {d : Document} {line : List Char} (h : line ∈ d.opening) :
    line = alwaysLine [] := by
  unfold opening at h
  split at h
  · cases h
  · exact List.mem_singleton.1 h

end Document

/-! ## The text that stays as it is -/

theorem length_joinLines {lines : List (List Char)} (h : lines ≠ []) :
    (joinLines lines).length + 1 = (lines.map fun line => line.length + 1).sum := by
  induction lines with
  | nil => exact absurd rfl h
  | cons line lines ih =>
    cases lines with
    | nil => simp [joinLines]
    | cons m lines =>
      have ih := ih (List.cons_ne_nil m lines)
      rw [joinLines_cons (List.cons_ne_nil m lines), List.map_cons, List.sum_cons, ← ih]
      simp only [List.length_append, List.length_cons]
      omega

theorem text_addFilter_ne {lines : List (List Char)} (h : lines ≠ []) (v : Variable) :
    (Document.addFilter ⟨lines⟩ v).text ≠ joinLines lines := by
  have hsum : ∀ opening : List (List Char), ∀ place : Nat,
      (lines.map fun line => line.length + 1).sum <
        ((lines.take place ++ opening ++ v.addedLine :: lines.drop place).map
          fun line => line.length + 1).sum := by
    intro opening place
    have hsplit : (lines.map fun line => line.length + 1).sum =
        ((lines.take place).map fun line => line.length + 1).sum +
          ((lines.drop place).map fun line => line.length + 1).sum := by
      rw [← List.sum_append, ← List.map_append, List.take_append_drop]
    simp only [List.map_append, List.map_cons, List.sum_append, List.sum_cons]
    omega
  intro heq
  have hadded : (Document.addFilter ⟨lines⟩ v).lines ≠ [] := by simp [Document.addFilter]
  have hlength := length_joinLines hadded
  rw [← Document.text, heq, length_joinLines h] at hlength
  exact absurd hlength (Nat.ne_of_lt (hsum _ _))

/-- A variable leaves a text as it is only if it is bound there already, or has no identifier for a
name. -/
theorem bind_eq_self_iff (sql : String) (v : Variable) :
    bind sql v = sql ↔ (isIdentifier v.name = true → occurs v.name.toList sql.toList = true) := by
  rw [bind]
  split
  · next hbinds =>
    simp only [Bool.and_eq_true, Bool.not_eq_true'] at hbinds
    obtain ⟨hv, hnew⟩ := hbinds
    refine iff_of_false (fun heq => ?_) (fun himp => ?_)
    · have htext := congrArg String.toList heq
      rw [String.toList_ofList, Document.ofText, Document.bind] at htext
      have hlines := htext.trans (joinLines_splitLines sql.toList).symm
      split at hlines
      · next bound hbound =>
        obtain ⟨before, line, after, new, hsplit, rfl, hnew⟩ := exists_of_bindFirst? hbound
        dsimp only at hsplit
        have hmem : line ∈ splitLines sql.toList := by
          rw [hsplit]
          exact List.mem_append_right _ List.mem_cons_self
        have hline : '\n' ∉ line := not_mem_of_mem_splitLines hmem
        rw [hsplit, Document.text, joinLines_append_cons, joinLines_append_cons] at hlines
        exact boundLine_ne hv hline hnew (List.append_cancel_right (List.append_cancel_left hlines))
      · exact text_addFilter_ne (splitLines_ne_nil _) v hlines
    · rw [himp hv] at hnew
      cases hnew
  · next hkept =>
    refine iff_of_true rfl fun hv => ?_
    rw [hv] at hkept
    simpa using hkept

/-! ## The text that is bound -/

/-- The placeholder that is written stands behind lines of the text, on a line that has something
before it. -/
structure Places (v : Variable) (lines before : List (List Char)) (start : List Char) : Prop where
  before : ∀ line ∈ before, line ∈ lines ∨ line = alwaysLine []
  start_last : start.getLast? = some ' '
  start_brace : '\x7b' ∈ start → ∃ line ∈ lines, ∃ c column, TextLine.clause? line = some c ∧
    c.predicate.literalColumn? = some column ∧ '\x7b' ∈ column.spelling

/-- A filter that is added and compares a column has no brace in the column. -/
theorem brace_not_mem_addedColumn {v : Variable} (hv : isIdentifier v.name = true)
    (hkind : ∀ target, v.kind ≠ .fieldFilter target) :
    '\x7b' ∉ baseName.toList ++ '.' :: v.targetColumn.toList := by
  have hname : '\x7b' ∉ v.name.toList := fun hmem =>
    absurd (isIdentifierChar_of_mem hv hmem) (by decide)
  have hbase : '\x7b' ∉ baseName.toList ++ ['.'] := by decide
  have htarget : '\x7b' ∉ v.targetColumn.toList := by
    unfold Variable.targetColumn
    cases hk : v.kind with
    | text => exact hname
    | number => exact hname
    | date =>
      show '\x7b' ∉ Registry.defaultTimestampField.toList
      decide
    | fieldFilter target => exact absurd hk (hkind target)
  rw [List.append_cons, List.mem_append, not_or]
  exact ⟨hbase, htarget⟩

/-- A filter that is taken over shows the placeholder behind its own indentation and column. -/
theorem exists_places_of_bindFirst? {v : Variable} (hv : isIdentifier v.name = true)
    {lines bound : List (List Char)} (hlines : ∀ line ∈ lines, '\n' ∉ line)
    (h : v.bindFirst? lines = some bound) :
    ∃ before start rest,
      joinLines bound = before.flatMap (· ++ ['\n']) ++ start ++ (write v.name.toList ++ rest) ∧
      Places v lines before start := by
  obtain ⟨before, line, after, new, rfl, rfl, hline⟩ := exists_of_bindFirst? h
  have hmem : line ∈ before ++ line :: after := List.mem_append_right _ List.mem_cons_self
  obtain ⟨c, column, hc, hcolumn, rfl, -⟩ := clause?_boundLine hv (hlines line hmem) hline
  obtain ⟨start, finish, hrender, hlast, -, hbrace⟩ :=
    exists_render_predicate v c.connective c.optional column
  refine ⟨before, TextLine.indent line ++ start, finish ++ after.flatMap ('\n' :: ·), ?_, ?_⟩
  · rw [joinLines_append_cons, hrender]
    simp
  constructor
  case before =>
    intro l hl
    exact .inl (List.mem_append_left _ hl)
  case start_last =>
    rw [List.getLast?_append, hlast]
    rfl
  case start_brace =>
    intro hopen
    have hopen : '\x7b' ∈ start := by
      refine (List.mem_append.1 hopen).resolve_left fun hindent => ?_
      exact absurd (isBlank_of_mem_leadingBlanks _ hindent) (by decide)
    exact ⟨line, hmem, c, column, hc, hcolumn, (hbrace hopen).2⟩

/-- A filter that is added shows the placeholder behind the lines above it, and behind a WHERE that
comes with it. -/
theorem exists_places_addFilter {v : Variable} (hv : isIdentifier v.name = true)
    (lines : List (List Char)) :
    ∃ before start rest, (Document.addFilter ⟨lines⟩ v).text =
        before.flatMap (· ++ ['\n']) ++ start ++ (write v.name.toList ++ rest) ∧
      Places v lines before start := by
  obtain ⟨start, finish, hrender, hlast, -, hbrace⟩ := exists_render_predicate v .and_ true
    ⟨baseName.toList ++ '.' :: v.targetColumn.toList⟩
  have hadded : v.addedLine = "  ".toList ++ (start ++ (write v.name.toList ++ finish)) := by
    rw [Variable.addedLine, hrender]
  let place := Document.tailStart ⟨lines⟩
  refine ⟨lines.take place ++ Document.opening ⟨lines⟩, "  ".toList ++ start,
    finish ++ (lines.drop place).flatMap ('\n' :: ·), ?_, ?_⟩
  · rw [Document.text, Document.lines_addFilter, joinLines_append_cons, hadded]
    simp only [List.append_assoc]
    rfl
  constructor
  case before =>
    intro l hl
    exact (List.mem_append.1 hl).imp List.mem_of_mem_take Document.mem_opening
  case start_last =>
    rw [List.getLast?_append, hlast]
    rfl
  case start_brace =>
    intro hopen
    have hopen : '\x7b' ∈ start := (List.mem_append.1 hopen).resolve_left (by decide)
    obtain ⟨hkind, hcolumn⟩ := hbrace hopen
    exact absurd hcolumn (brace_not_mem_addedColumn hv hkind)

/-- A variable is bound by writing its placeholder. -/
theorem exists_bind {sql : String} {v : Variable} (hv : isIdentifier v.name = true)
    (hnew : occurs v.name.toList sql.toList = false) :
    ∃ before start rest, (bind sql v).toList =
        before.flatMap (· ++ ['\n']) ++ start ++ (write v.name.toList ++ rest) ∧
      Places v (splitLines sql.toList) before start := by
  have hbinds : (isIdentifier v.name && !occurs v.name.toList sql.toList) = true := by
    rw [hv, hnew]
    rfl
  rw [bind, if_pos hbinds, String.toList_ofList, Document.ofText, Document.bind]
  split
  · next bound hbound =>
    exact exists_places_of_bindFirst? hv (fun _ hline => not_mem_of_mem_splitLines hline) hbound
  · exact exists_places_addFilter hv _

/-- Binding twice is binding once where no line leaves braces open, and no filter with a literal has
them in its column. -/
theorem bind_bind_of_closed {sql : String}
    (hclosed : ∀ line ∈ splitLines sql.toList, leavesOpen line = false)
    (hcolumns : ∀ line ∈ splitLines sql.toList, ∀ c column, TextLine.clause? line = some c →
      c.predicate.literalColumn? = some column → '\x7b' ∉ column.spelling) (v : Variable) :
    bind (bind sql v) v = bind sql v := by
  rw [bind_eq_self_iff]
  intro hv
  cases hnew : occurs v.name.toList sql.toList with
  | true =>
    have hkept : bind sql v = sql := (bind_eq_self_iff sql v).2 fun _ => hnew
    rw [hkept, hnew]
  | false =>
    obtain ⟨before, start, rest, htext, hplaces⟩ := exists_bind hv hnew
    have hbefore : ∀ line ∈ before, leavesOpen line = false := by
      intro line hline
      rcases hplaces.before line hline with hmem | rfl
      · exact hclosed line hmem
      · exact Placeholder.leavesOpen_of_not_mem (by decide)
    have hstart : leavesOpen start = false := by
      refine Placeholder.leavesOpen_of_not_mem fun hmem => ?_
      obtain ⟨line, hline, c, column, hc, hcolumn, hbrace⟩ := hplaces.start_brace hmem
      exact hcolumns line hline c column hc hcolumn hbrace
    have hlast : (before.flatMap (· ++ ['\n']) ++ start).getLast? ≠ some '\x7b' := by
      rw [List.getLast?_append, hplaces.start_last]
      simp
    rw [htext, Placeholder.occurs_append_write hv hlast, leavesOpen_lines hbefore, hstart]
    rfl

/-! ## The statement of a report -/

/-- The literals of a filter's clause are compared with the column of the filter. -/
theorem literalColumn?_clause {f : Filter} {d : Column} {c : Clause} {column : ColumnName}
    (hc : f.clause? d = some c) (hcolumn : c.predicate.literalColumn? = some column) :
    column = ⟨d.name.toList⟩ := by
  have hpattern {p : String} (hp : Filter.clause?.pattern d p = some c) :
      column = ⟨d.name.toList⟩ := by
    unfold Filter.clause?.pattern at hp
    split at hp
    · cases hp
    · obtain rfl := Option.some.inj hp
      exact (Option.some.inj hcolumn).symm
  unfold Filter.clause? at hc
  cases hop : f.operator with
  | equals | oneOf | unknown =>
    rw [hop] at hc
    obtain rfl := Option.some.inj hc
    exact (Option.some.inj hcolumn).symm
  | contains | startsWith | endsWith =>
    rw [hop] at hc
    exact hpattern hc
  | interactive =>
    rw [hop] at hc
    obtain rfl := Option.some.inj hc
    cases hcolumn
  | notEquals | notContains | isNull | isNotNull =>
    rw [hop] at hc
    cases hc

section Report

variable (w : Warehouse) (site : Website) (r : Report)

/-- The clauses of a statement are the condition on the website and base filters. -/
theorem clause?_of_mem_lines (hw : w.registry.validate = .ok ()) (hsite : r.website = some site)
    (hselected : site.isSelected = true) {line : List Char}
    (hline : line ∈ splitLines (w.compile r).sql.toList) {c : Clause}
    (hc : TextLine.clause? line = some c) :
    c = scopeClause site ∨ ∃ fc ∈ r.baseFilters w, fc.1.clause? fc.2 = some c := by
  have hneat := isNeat_of_mem_query w site r hw hsite
  rw [splitLines_compile w site r hw hsite hselected] at hline
  obtain ⟨l, hl, rfl⟩ := List.mem_map.1 hline
  rw [clause?_of_isNeat (hneat l hl)] at hc
  rw [Plan.lines_query] at hl
  simp only [List.mem_append, List.mem_cons] at hl
  have hrefused : ∀ {ls : List Line}, AllRefused ls → l ∉ ls := by
    intro ls hls hmem
    rw [hls l hmem] at hc
    cases hc
  rcases hl with hl | rfl | hl | hl | hl | hl
  · exact absurd hl (hrefused (Plan.allInert_opening (w.plan site r)).allRefused)
  · rw [Plan.read?_scopeLine] at hc
    exact .inl (Option.some.inj hc).symm
  · have hmem := List.mem_map_of_mem (f := Clause.read?) (List.mem_map_of_mem (f := Line.chars) hl)
    rw [Plan.read?_filterLines w site r hw] at hmem
    obtain ⟨fc, hfc, hread⟩ := List.mem_map.1 hmem
    exact .inr ⟨fc, hfc, hread.trans hc⟩
  · exact absurd hl (hrefused (Plan.allInertOrPivot_select w site r).allRefused)
  · exact absurd hl (hrefused (Plan.allRefused_outer w site r))
  · exact absurd hl (hrefused (Plan.allInert_tail (w.plan site r)).allRefused)

/-- No column of a filter with a literal holds a brace. -/
theorem brace_not_mem_column (hw : w.registry.validate = .ok ()) (hsite : r.website = some site)
    (hselected : site.isSelected = true) :
    ∀ line ∈ splitLines (w.compile r).sql.toList, ∀ c column, TextLine.clause? line = some c →
      c.predicate.literalColumn? = some column → '\x7b' ∉ column.spelling := by
  intro line hline c column hc hcolumn
  rcases clause?_of_mem_lines w site r hw hsite hselected hline hc with rfl | ⟨fc, hfc, hclause⟩
  · obtain rfl := Option.some.inj hcolumn
    show '\x7b' ∉ scopeColumn.toList
    decide
  · have hname := Registry.isIdentifier_of_mem hw (Report.of_mem_baseFilters hfc).1
    obtain rfl := literalColumn?_clause hclause hcolumn
    exact fun hmem => absurd (isIdentifierChar_of_mem hname hmem) (by decide)

end Report

/-- Binding twice is binding once if and only if there is nothing to bind, or the placeholder is
found where binding wrote it: behind a text that leaves no braces open, or among other placeholders
of the variable. In the statement of a report it is, if every line closes the braces it opens. -/
theorem bind_bind_iff (v : Variable) :
    (∀ sql : String, bind (bind sql v) v = bind sql v ↔
      isIdentifier v.name = false ∨ occurs v.name.toList sql.toList = true ∨
        ∃ head rest, (bind sql v).toList = head ++ (write v.name.toList ++ rest) ∧
          head.getLast? = some ' ' ∧
          (leavesOpen head = false ∨ occurs v.name.toList head = true ∨
            occurs v.name.toList rest = true)) ∧
    ∀ (w : Warehouse) (r : Report) (site : Website), w.registry.validate = .ok () →
      r.website = some site → site.isSelected = true →
      (∀ line ∈ splitLines (w.compile r).sql.toList, leavesOpen line = false) →
      bind (bind (w.compile r).sql v) v = bind (w.compile r).sql v := by
  refine ⟨fun sql => ?_, fun w r site hw hsite hselected hclosed => ?_⟩
  · have hfound : ∀ {head rest : List Char}, isIdentifier v.name = true →
        (bind sql v).toList = head ++ (write v.name.toList ++ rest) → head.getLast? = some ' ' →
        (occurs v.name.toList (bind sql v).toList = true ↔ leavesOpen head = false ∨
          occurs v.name.toList head = true ∨ occurs v.name.toList rest = true) := by
      intro head rest hv htext hlast
      rw [htext, Placeholder.occurs_append_write hv (by rw [hlast]; decide)]
      simp [or_assoc]
    rw [bind_eq_self_iff]
    constructor
    · intro hidempotent
      cases hv : isIdentifier v.name with
      | false => exact .inl rfl
      | true =>
        refine .inr ?_
        cases hnew : occurs v.name.toList sql.toList with
        | true => exact .inl rfl
        | false =>
          obtain ⟨before, start, rest, htext, hplaces⟩ := exists_bind hv hnew
          have hlast : (before.flatMap (· ++ ['\n']) ++ start).getLast? = some ' ' := by
            rw [List.getLast?_append, hplaces.start_last]
            rfl
          exact .inr ⟨_, rest, htext, hlast, (hfound hv htext hlast).1 (hidempotent hv)⟩
    · rintro (hv | hbound | ⟨head, rest, htext, hlast, hsome⟩) hidentifier
      · rw [hv] at hidentifier
        cases hidentifier
      · have hkept : bind sql v = sql := (bind_eq_self_iff sql v).2 fun _ => hbound
        rw [hkept, hbound]
      · exact (hfound hidentifier htext hlast).2 hsome
  · exact bind_bind_of_closed hclosed (brace_not_mem_column w site r hw hsite hselected) v

/-- Two braces that a literal leaves open hide the placeholder behind them. -/
theorem bind_bind_ne :
    bind (bind "WHERE x = '\x7b\x7b'\nAND y = 'b'" (.named "y" .text)) (.named "y" .text) ≠
      bind "WHERE x = '\x7b\x7b'\nAND y = 'b'" (.named "y" .text) := by
  have hsecond : ∀ {sql : String} {v : Variable} {l m new : List Char},
      isIdentifier v.name = true → occurs v.name.toList sql.toList = false →
      splitLines sql.toList = [l, m] → v.boundLine? l = none → v.boundLine? m = some new →
      occurs v.name.toList (joinLines [l, new]) = false → bind (bind sql v) v ≠ bind sql v := by
    intro sql v l m new hv hnew hlines hl hm hhidden hsame
    have hbind : bind sql v = String.ofList (joinLines [l, new]) := by
      simp [bind, hv, hnew, Document.ofText, hlines, Document.bind, Variable.bindFirst?, hl, hm,
        Document.text]
    have hfound := (bind_eq_self_iff _ v).1 hsame hv
    rw [hbind, String.toList_ofList, hhidden] at hfound
    cases hfound
  have hlines : splitLines "WHERE x = '\x7b\x7b'\nAND y = 'b'".toList =
      ["WHERE x = '\x7b\x7b'".toList, "AND y = 'b'".toList] := by decide
  have hnew : occurs "y".toList "WHERE x = '\x7b\x7b'\nAND y = 'b'".toList = false := by decide_cbv
  have hclause : TextLine.clause? "WHERE x = '\x7b\x7b'".toList =
      some ⟨.where_, false, .equals ⟨"x".toList⟩ "'\x7b\x7b'".toList⟩ := by decide_cbv
  have hother : (ColumnName.mk "x".toList).isNamed (Variable.named "y" .text).targetColumn.toList =
      false := by decide
  have hl : (Variable.named "y" .text).boundLine? "WHERE x = '\x7b\x7b'".toList = none := by
    simp only [Variable.boundLine?, hclause, Option.bind_eq_bind, Option.bind_some,
      Predicate.literalColumn?, hother, Bool.and_false]
    rfl
  have hm : (Variable.named "y" .text).boundLine? "AND y = 'b'".toList =
      some "AND y = \x7b\x7by\x7d\x7d".toList := by decide_cbv
  have hhidden : occurs "y".toList (joinLines ["WHERE x = '\x7b\x7b'".toList,
      "AND y = \x7b\x7by\x7d\x7d".toList]) = false := by decide_cbv
  exact hsecond (by decide) hnew hlines hl hm hhidden

/-- A warehouse with two columns. -/
def smallWarehouse : Warehouse where
  registry := { timestampField := "t",
                columns := [⟨"t", .event, "", .timestamp⟩, ⟨"u", .event, "", .string⟩] }
  settings := { eventTable := "e", eventDataTable := "f" }

set_option maxRecDepth 16384 in
/-- Two braces that a literal closes hide nothing: the variable is bound once and for all. -/
theorem bind_bind_iff_closed :
    bind (bind (smallWarehouse.compile {
          website := some { id := "a" }
          filters := [.equals "u" "\x7b\x7bb\x7d\x7d"] }).sql (.named "v" .text)) (.named "v" .text) =
      bind (smallWarehouse.compile {
          website := some { id := "a" }
          filters := [.equals "u" "\x7b\x7bb\x7d\x7d"] }).sql (.named "v" .text) := by
  refine (bind_bind_iff _).2 _ _ { id := "a" } (by decide) rfl (by decide) (fun line hline => ?_)
  have hlines : splitLines (smallWarehouse.compile {
        website := some { id := "a" }
        filters := [.equals "u" "\x7b\x7bb\x7d\x7d"] }).sql.toList =
      ["WITH base AS (", "  SELECT *", "  FROM (", "    SELECT", "      e.*", "    FROM \x60e\x60 e",
        "  )", "  WHERE website_id = 'a'", "    AND u = '\x7b\x7bb\x7d\x7d'", ")", "SELECT",
        "  COUNT(*) AS metric_1", "FROM base", "LIMIT 1000"].map String.toList := by cbv
  have hplain : ∀ l ∈ ["WITH base AS (", "  SELECT *", "  FROM (", "    SELECT", "      e.*",
      "    FROM \x60e\x60 e", "  )", "  WHERE website_id = 'a'", "    AND u = '\x7b\x7bb\x7d\x7d'",
      ")", "SELECT", "  COUNT(*) AS metric_1", "FROM base", "LIMIT 1000"].map String.toList,
      '\x7b' ∉ l ∨ l = "    AND u = '\x7b\x7bb\x7d\x7d'".toList := by decide
  have hfilter : leavesOpen "    AND u = '\x7b\x7bb\x7d\x7d'".toList = false := by decide_cbv
  rw [hlines] at hline
  rcases hplain line hline with hnone | rfl
  · exact Placeholder.leavesOpen_of_not_mem hnone
  · exact hfilter

end EventReport.Dashboard
