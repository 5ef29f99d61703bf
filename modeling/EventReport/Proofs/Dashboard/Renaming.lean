/-
# Renaming a variable

A variable is renamed by its placeholders: each of them is written anew with the other
name.  They are found by one scan of the whole text, which knows nothing of lines and
filters, while to take a variable out is to look for filters line by line.

## What is proved

`placeholders_exchanged`: the scan finds in the new text what it found in the old one, with
the new placeholder, or nothing, where one of the name was.  So none of the name is left
when a variable has been taken out or renamed, and one that has been renamed can be renamed
back.

`rename_bind`: in the statement of a harmless report, variables that take over the same
filters are interchangeable.  The placeholder stands where it would have been written for
the other one, since where it is written does not depend on the name (`IsOrderly.exists_place`),
and to take out either of the two leaves out the same line.

## What is NOT proved, because it is false

That this is so for every report without two opening braces in a row.  A NUL between two
braces is left out where they are quoted; they come together in the statement, and the
placeholder behind them is never found, so that it keeps its name (`rename_bind_nul`).
-/
import EventReport.Proofs.Clause.Rendering
import EventReport.Proofs.Dashboard.Commutation
import EventReport.Proofs.Dashboard.Restoration
import EventReport.Proofs.Text.Substitution

namespace EventReport

open Text

/-- A filter with a placeholder has it between its braces. -/
theorem Clause.exists_write_of_read? {line : List Char} {c : Clause} {name : List Char}
    (h : Clause.read? line = some c) (hname : c.predicate.placeholder? = some name) :
    ∃ inner, Placeholder.write inner <:+: line := by
  obtain ⟨ts, hts, hclause⟩ := Option.bind_eq_some_iff.1 h
  obtain ⟨us, hus, hp⟩ := (Grammar.ofTokens?_iff.1 hclause).exists_predicate
  obtain ⟨s, hs, hlexeme⟩ := Token.exists_lexeme_of_mem hts (hus (hp.placeholder_mem hname))
  cases hlexeme
  exact ⟨_, hs⟩

namespace Dashboard

open Placeholder (occurs write scan names leavesOpen)

/-! ## Placeholders that are exchanged -/

theorem rename_eq {sql a b : String} (ha : isIdentifier a = true) (hb : isIdentifier b = true)
    (hne : a ≠ b) (hnew : occurs b.toList sql.toList = false) :
    rename sql a b =
      .ok (String.ofList (Placeholder.replace a.toList (write b.toList) sql.toList)) := by
  simp [rename, ha, hb, hne, hnew]

/-- Where the placeholders of a name give way to a text without opening braces, or to another
placeholder, nothing else changes in what the scan finds. No placeholder is left of a variable that
has been taken out or renamed, and to rename it back spells its placeholders in one way. -/
theorem placeholders_exchanged :
    (∀ name r cs : List Char, '\x7b' ∉ r →
      scan (Placeholder.replace name r cs) =
          (scan cs).flatMap (fun s => if s.name? = some name then r.map .char else [s]) ∧
        names (Placeholder.replace name r cs) = (names cs).filter (· ≠ name)) ∧
    (∀ name new cs : List Char, isIdentifierChars new = true →
      scan (Placeholder.replace name (write new) cs) =
          (scan cs).map (fun s => if s.name? = some name then .hole new else s) ∧
        names (Placeholder.replace name (write new) cs) =
          (names cs).map fun n => if n = name then new else n) ∧
    (∀ (sql : String) (v : Variable), occurs v.name.toList (unbind sql v).toList = false) ∧
    ∀ sql a b : String, isIdentifier a = true → isIdentifier b = true → a ≠ b →
      occurs b.toList sql.toList = false →
      ∃ t, rename sql a b = .ok t ∧ occurs a.toList t.toList = false ∧
        rename t b a =
          .ok (String.ofList (Placeholder.replace a.toList (write a.toList) sql.toList)) := by
  refine ⟨fun name r cs hr => ⟨Placeholder.scan_replace_plain cs hr,
      Placeholder.names_replace_plain cs hr⟩,
    fun name new cs hnew => ⟨Placeholder.scan_replace_write cs hnew,
      Placeholder.names_replace_write cs hnew⟩, fun sql v => ?_, fun sql a b ha hb hne hnew => ?_⟩
  · rw [unbind, String.toList_ofList]
    exact Placeholder.occurs_replace_plain _ (by decide)
  · have hnames : a.toList ≠ b.toList := fun heq => hne (String.toList_inj.1 heq)
    have hgone : occurs a.toList (String.ofList
        (Placeholder.replace a.toList (write b.toList) sql.toList)).toList = false := by
      rw [String.toList_ofList]
      exact Placeholder.occurs_replace_write _ hb hnames
    refine ⟨_, rename_eq ha hb hne hnew, hgone, ?_⟩
    rw [rename_eq hb ha hne.symm hgone, String.toList_ofList,
      Placeholder.replace_replace sql.toList hb hnew]

/-- One placeholder is exchanged, and the one before it, that begins with a third brace, is kept. -/
theorem placeholders_exchanged_braces :
    names (Placeholder.replace "b".toList [] "\x7b\x7b\x7ba\x7d\x7d\x7b\x7b b \x7d\x7d".toList) =
        ["\x7ba".toList] ∧
      names (Placeholder.replace "b".toList (write "c".toList)
          "\x7b\x7b\x7ba\x7d\x7d\x7b\x7b b \x7d\x7d".toList) = ["\x7ba".toList, "c".toList] ∧
      ∃ t, rename "\x7b\x7b\x7ba\x7d\x7d\x7b\x7b b \x7d\x7d" "b" "c" = .ok t ∧
        rename t "c" "b" = .ok "\x7b\x7b\x7ba\x7d\x7d\x7b\x7bb\x7d\x7d" := by
  obtain ⟨hplain, hwrite, -, hrename⟩ := placeholders_exchanged
  obtain ⟨t, ht, -, hback⟩ := hrename "\x7b\x7b\x7ba\x7d\x7d\x7b\x7b b \x7d\x7d" "b" "c"
    (by decide) (by decide) (by decide) (by decide_cbv)
  refine ⟨?_, ?_, t, ht, ?_⟩
  · rw [(hplain _ [] _ List.not_mem_nil).2]
    decide_cbv
  · rw [(hwrite _ _ _ (by decide)).2]
    decide_cbv
  · rw [hback]
    decide_cbv

/-! ## Variables that do not occur -/

theorem refersTo_of_isClear {line : List Char} (h : IsClear line) (name : List Char) :
    TextLine.refersTo name line = false := by
  rw [TextLine.refersTo]
  split
  · next c hc =>
    rw [beq_eq_false_iff_ne]
    intro hname
    obtain ⟨inner, hinner⟩ := Clause.exists_write_of_read? (read?_of_clause? hc) hname
    have hbraces : ['\x7b', '\x7b'] <:+: write inner := ⟨[], inner ++ ['\x7d', '\x7d'], rfl⟩
    exact Placeholder.not_infix_of_isChain (isClear_iff.1 h).1 (hbraces.trans hinner)
  · rfl

/-- A variable that does not occur in the statement of a harmless report is not referred to. -/
theorem isFresh_compile {w : Warehouse} {r : Report} (hw : w.registry.validate = .ok ())
    (hr : IsHarmless w r) {v : Variable}
    (hnew : occurs v.name.toList (w.compile r).sql.toList = false) :
    IsFresh v (splitLines (w.compile r).sql.toList) := by
  have hclosed := (isOrderly_compile hw hr).closed
  have hoccurs : ∀ line ∈ splitLines (w.compile r).sql.toList,
      occurs v.name.toList line = false := by
    rw [← joinLines_splitLines (w.compile r).sql.toList, Placeholder.occurs_joinLines hclosed,
      List.any_eq_false] at hnew
    simpa using hnew
  refine ⟨hclosed, hoccurs, fun line hline => ?_⟩
  rcases isClear_or_optional_compile hw hr line hline with hclear | ⟨name, hname, rfl⟩
  · exact refersTo_of_isClear hclear _
  · have hother : name.toList ≠ v.name.toList := by
      intro heq
      have hfound := ((holdsOnly_optional name.toList).occurs_iff hname).2 heq.symm
      rw [hoccurs _ hline] at hfound
      cases hfound
    simpa [TextLine.refersTo, clause?_optional hname, Predicate.placeholder?] using hother

/-! ## The place of a placeholder -/

section Target

variable {u v : Variable} (h : v.targetColumn = u.targetColumn)

include h

/-- What a variable takes over depends on its target column alone. -/
theorem Variable.Takes.of_target {line : List Char} {c : Clause} {column : ColumnName}
    (htakes : u.Takes line c column) : v.Takes line c column where
  clause := htakes.clause
  literal := htakes.literal
  target := by rw [h]; exact htakes.target
  free := htakes.free

theorem Variable.boundLine?_of_target {lines : List (List Char)} (hnone : ∀ l ∈ lines, ¬u.MayTake l) :
    ∀ l ∈ lines, v.boundLine? l = none := by
  intro l hl
  rw [Variable.boundLine?_eq_none_iff]
  rintro ⟨c, column, htakes⟩
  exact hnone l hl ⟨c, column, htakes.of_target h.symm⟩

end Target

/-- Variables of one kind that have one target column are bound at one place, whatever their names. -/
theorem IsOrderly.exists_place {sql : String} (h : IsOrderly (splitLines sql.toList)) {u : Variable}
    (hu : isIdentifier u.name = true)
    (htarget : ∀ v : Variable, v.kind = u.kind → v.targetColumn = u.targetColumn) :
    ∃ before after start finish, '\x7b' ∉ start ∧ '\x7b' ∉ finish ∧
      before ++ after ⊆ splitLines sql.toList ++ [alwaysLine []] ∧
      ∀ v : Variable, v.kind = u.kind → isIdentifier v.name = true →
        occurs v.name.toList sql.toList = false →
        splitLines (bind sql v).toList =
            before ++ (start ++ (write v.name.toList ++ finish)) :: after ∧
          ∃ optional column, TextLine.clause? (start ++ (write v.name.toList ++ finish)) =
            some ⟨.and_, optional, v.predicate column⟩ := by
  rcases u.exists_first (splitLines sql.toList) with
    ⟨before, line, after, hlines, hbefore, c, column, htakes⟩ | hnone
  · -- the first filter that may be taken over gives way to the placeholder
    have hmem : line ∈ splitLines sql.toList := by simp [hlines]
    have hplain := h.plain line hmem u c column htakes
    have hand : c.connective = .and_ :=
      connective_of_isFilter hplain.isInner.isFilter (read?_of_clause? htakes.clause)
    obtain ⟨start, finish, hstart, hfinish, hplace⟩ := exists_place_of_kind u.kind c.connective
      c.optional _ (brace_not_mem_indent line) fun _ => hplain.column
    refine ⟨before, after, start, finish, hstart, hfinish, ?_, fun v hkind hv hnew => ?_⟩
    · intro l hl
      rw [hlines]
      rcases List.mem_append.1 hl with hl | hl <;> simp [hl]
    · have hv' : v.Takes line c column := htakes.of_target (htarget v hkind)
      have hbound : v.boundLine? line = some (start ++ (write v.name.toList ++ finish)) := by
        rw [Variable.boundLine?_eq_some_iff]
        exact ⟨c, column, hv', (hplace v hkind).symm⟩
      obtain ⟨new, hnew', -, hclause, -⟩ := hv'.boundLine hv (not_mem_of_mem_splitLines hmem)
      obtain rfl := Option.some.inj (hbound.symm.trans hnew')
      rw [hand] at hclause
      refine ⟨?_, c.optional, column, hclause⟩
      rw [splitLines_bind hv hnew, hlines, Document.bind_of_boundLine
        (Variable.boundLine?_of_target (htarget v hkind) hbefore) hbound]
  · -- or a filter is added behind the others
    obtain ⟨start, finish, hstart, hfinish, hplace⟩ := exists_place_of_kind u.kind .and_ true
      "  ".toList (by decide) (brace_not_mem_addedColumn hu)
    let d : Document := ⟨splitLines sql.toList⟩
    refine ⟨d.lines.take d.tailStart ++ d.opening, d.lines.drop d.tailStart, start, finish, hstart,
      hfinish, ?_, fun v hkind hv hnew => ?_⟩
    · have hopening : d.opening ⊆ [alwaysLine []] := fun l hl =>
        List.mem_singleton.2 (Document.mem_opening hl)
      exact List.append_subset.2 ⟨List.append_subset.2
        ⟨List.subset_append_of_subset_left _ (List.take_subset _ _),
          List.subset_append_of_subset_right _ hopening⟩,
        List.subset_append_of_subset_left _ (List.drop_subset _ _)⟩
    · have hadded : start ++ (write v.name.toList ++ finish) = v.addedLine := by
        rw [Variable.addedLine, htarget v hkind, hplace v hkind]
      rw [hadded]
      refine ⟨?_, true, _, clause?_addedLine hv⟩
      rw [splitLines_bind hv hnew, Document.bind_of_none
        (Variable.boundLine?_of_target (htarget v hkind) hnone), Document.lines_addFilter]

/-! ## Variables of one kind -/

/-- One placeholder among lines that hold none of its name is exchanged where it stands. -/
theorem replace_joinLines_of_holdsOnly {name new start finish : List Char}
    {before after : List (List Char)} (hname : isIdentifierChars name = true)
    (hclosed : ∀ l ∈ before ++ after, leavesOpen l = false)
    (hnone : ∀ l ∈ before ++ after, occurs name l = false) (hstart : '\x7b' ∉ start)
    (hfinish : '\x7b' ∉ finish) :
    Placeholder.replace name (write new)
        (joinLines (before ++ (start ++ (write name ++ finish)) :: after)) =
      joinLines (before ++ (start ++ (write new ++ finish)) :: after) := by
  have hline : HoldsOnly name (start ++ (write name ++ finish)) :=
    ⟨start, finish, hstart, hfinish, rfl⟩
  have hkept : ∀ ls ⊆ before ++ after, ls.map (Placeholder.replace name (write new)) = ls := by
    intro ls hls
    refine (List.map_congr_left fun l hl => ?_).trans (List.map_id ls)
    exact Placeholder.replace_eq_self (hnone l (hls hl))
  have hwritten : Placeholder.replace name (write new) (write name ++ finish) =
      write new ++ finish := by
    have hhole : (Placeholder.Segment.hole name).name? = some name :=
      congrArg some (trimChars_identifier hname)
    rw [Placeholder.replace, Placeholder.scan_identifier hname, List.singleton_append,
      List.flatMap_cons, if_pos hhole]
    congr 1
    exact Placeholder.replace_eq_self (Placeholder.occurs_of_not_mem hfinish)
  obtain ⟨hbefore, hafter⟩ := List.forall_mem_append.1 hclosed
  rw [Placeholder.replace_joinLines (Regions.forall_append hbefore
      (List.forall_mem_cons.2 ⟨hline.leavesOpen hname, hafter⟩)),
    List.map_append, List.map_cons, hkept _ (List.subset_append_left _ _),
    hkept _ (List.subset_append_right _ _), Placeholder.replace_append_of_not_mem hstart, hwritten]

/-- In the statement of a harmless report, a date or a field filter is bound as any other one of its
kind and column: to rename it is to have bound the other one, and to take either of them out gives
the same text. -/
theorem rename_bind (w : Warehouse) (r : Report) (u v : Variable)
    (hw : w.registry.validate = .ok ()) (hr : IsHarmless w r)
    (hkind : u.kind = .date ∨ ∃ column, u.kind = .fieldFilter column) (hsame : v.kind = u.kind)
    (hu : isIdentifier u.name = true) (hv : isIdentifier v.name = true) (hnames : u.name ≠ v.name)
    (hnewu : occurs u.name.toList (w.compile r).sql.toList = false)
    (hnewv : occurs v.name.toList (w.compile r).sql.toList = false) :
    ∃ t, rename (bind (w.compile r).sql u) u.name v.name = .ok t ∧ t = bind (w.compile r).sql v ∧
      unbind t v = unbind (bind (w.compile r).sql u) u := by
  have htarget : ∀ v : Variable, v.kind = u.kind → v.targetColumn = u.targetColumn := by
    intro v hv
    rcases hkind with hk | ⟨column, hk⟩
    · rw [Variable.targetColumn, Variable.targetColumn, hv, hk]
    · rw [Variable.targetColumn, Variable.targetColumn, hv, hk]
  have horderly := isOrderly_compile hw hr
  obtain ⟨before, after, start, finish, hstart, hfinish, hothers, hplace⟩ :=
    horderly.exists_place hu htarget
  obtain ⟨hlinesu, ou, cu, hclauseu⟩ := hplace u rfl hu hnewu
  obtain ⟨hlinesv, ov, cv, hclausev⟩ := hplace v hsame hv hnewv
  have hfreshu : IsFresh u (before ++ after) :=
    ((isFresh_compile hw hr hnewu).append (.always u)).subset hothers
  have hfreshv : IsFresh v (before ++ after) :=
    ((isFresh_compile hw hr hnewv).append (.always v)).subset hothers
  have hother : v.name.toList ≠ u.name.toList := fun heq => hnames (String.toList_inj.1 heq).symm
  have hrenamed :
      rename (bind (w.compile r).sql u) u.name v.name = .ok (bind (w.compile r).sql v) := by
    rw [rename_eq hu hv hnames (by rw [horderly.occurs_bind hu hother, hnewv]),
      ← joinLines_splitLines (bind (w.compile r).sql u).toList, hlinesu,
      replace_joinLines_of_holdsOnly hu hfreshu.closed hfreshu.occurs hstart hfinish, ← hlinesv,
      joinLines_splitLines, String.ofList_toList]
  have hunbound : unbind (bind (w.compile r).sql v) v = unbind (bind (w.compile r).sql u) u := by
    rw [← String.toList_inj, hfreshv.unbind hclausev hlinesv, hfreshu.unbind hclauseu hlinesu]
  exact ⟨_, hrenamed, rfl, hunbound⟩

set_option maxRecDepth 16384 in
/-- A variable that has taken a filter over is renamed. -/
theorem rename_bind_small :
    ∃ t, rename (bind (smallWarehouse.compile {
            website := some { id := "a" }
            filters := [.equals "u" "b"] }).sql (.named "x" (.fieldFilter "u"))) "x" "y" = .ok t ∧
      t = bind (smallWarehouse.compile {
            website := some { id := "a" }
            filters := [.equals "u" "b"] }).sql (.named "y" (.fieldFilter "u")) ∧
      unbind t (.named "y" (.fieldFilter "u")) = unbind (bind (smallWarehouse.compile {
            website := some { id := "a" }
            filters := [.equals "u" "b"] }).sql (.named "x" (.fieldFilter "u")))
          (.named "x" (.fieldFilter "u")) := by
  have hvalid : smallWarehouse.registry.validate = .ok () := by decide
  have hnew : ∀ name ∈ ["x", "y"], occurs name.toList (smallWarehouse.compile {
      website := some { id := "a" }
      filters := [.equals "u" "b"] }).sql.toList = false := by
    rw [← joinLines_splitLines (smallWarehouse.compile _).sql.toList,
      splitLines_compile smallWarehouse { id := "a" } _ hvalid rfl (by decide)]
    decide +kernel
  exact rename_bind smallWarehouse _ (.named "x" (.fieldFilter "u")) (.named "y" (.fieldFilter "u"))
    hvalid (.of_plain (by decide) (by decide +kernel)) (.inr ⟨_, rfl⟩) rfl (by decide) (by decide)
    (by decide) (hnew "x" (by simp)) (hnew "y" (by simp))

/-! ## Braces that come together -/

/-- A variable whose placeholder is not found keeps its name. -/
theorem rename_bind_ne_of_hidden {u v : Variable} (hu : isIdentifier u.name = true)
    (hv : isIdentifier v.name = true) (hnames : u.name ≠ v.name) {sql : String}
    {lines : List (List Char)} (hlines : splitLines sql.toList = lines)
    (hnewu : occurs u.name.toList (joinLines lines) = false)
    (hnewv : occurs v.name.toList (joinLines lines) = false)
    (hhidden : ∀ name ∈ [u.name, v.name],
      occurs name.toList (joinLines (Document.bind ⟨lines⟩ u).lines) = false)
    (hne : Document.bind ⟨lines⟩ u ≠ Document.bind ⟨lines⟩ v) :
    rename (bind sql u) u.name v.name ≠ .ok (bind sql v) := by
  subst hlines
  rw [joinLines_splitLines] at hnewu hnewv
  have hlinesu := splitLines_bind hu hnewu
  have hlinesv := splitLines_bind hv hnewv
  rw [← hlinesu, joinLines_splitLines] at hhidden
  have hkept : rename (bind sql u) u.name v.name = .ok (bind sql u) := by
    rw [rename_eq hu hv hnames (hhidden _ (by simp)),
      Placeholder.replace_eq_self (hhidden _ (by simp)), String.ofList_toList]
  rw [hkept]
  intro heq
  rw [Except.ok.inj heq, hlinesv] at hlinesu
  exact hne (congrArg Document.mk hlinesu.symm)

/-- A report with a NUL between two opening braces, and no variable. -/
def splitBracesReport : Report where
  website := some { id := "a" }
  filters := [.equals "u" "\x7b\x00\x7b"]

set_option maxRecDepth 16384 in
/-- No two opening braces stand in a row in the report, but in its statement they do, and the
placeholder that is bound behind them keeps its name. -/
theorem rename_bind_nul :
    (∀ s ∈ splitBracesReport.quotedTexts smallWarehouse, ¬['\x7b', '\x7b'] <:+: s.toList) ∧
      (∀ name ∈ ["x", "y"],
        occurs name.toList (smallWarehouse.compile splitBracesReport).sql.toList = false) ∧
      rename (bind (smallWarehouse.compile splitBracesReport).sql (.named "x" .date)) "x" "y" ≠
        .ok (bind (smallWarehouse.compile splitBracesReport).sql (.named "y" .date)) := by
  have hlines : splitLines (smallWarehouse.compile splitBracesReport).sql.toList =
      ["WITH base AS (", "  SELECT *", "  FROM (", "    SELECT", "      e.*", "    FROM \x60e\x60 e",
        "  )", "  WHERE website_id = 'a'", "    AND u = '\x7b\x7b'", ")", "SELECT",
        "  COUNT(*) AS metric_1", "FROM base", "LIMIT 1000"].map String.toList := by
    rw [splitLines_compile smallWarehouse { id := "a" } splitBracesReport (by decide) rfl (by decide)]
    decide +kernel
  have hhidden : rename (bind (smallWarehouse.compile splitBracesReport).sql (.named "x" .date))
      (Variable.named "x" .date).name (Variable.named "y" .date).name ≠
        .ok (bind (smallWarehouse.compile splitBracesReport).sql (.named "y" .date)) :=
    rename_bind_ne_of_hidden (by decide) (by decide) (by decide) hlines (by decide +kernel)
      (by decide +kernel) (by decide +kernel) (by decide +kernel)
  refine ⟨by decide, ?_, hhidden⟩
  rw [← joinLines_splitLines (smallWarehouse.compile splitBracesReport).sql.toList, hlines]
  decide +kernel

end Dashboard

end EventReport
