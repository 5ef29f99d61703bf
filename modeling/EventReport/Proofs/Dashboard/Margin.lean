/-
# The lines of a statement that begin at the margin

A nested statement is indented, so the lines at the margin are those of the outermost
statement and the two brackets around each of the statements that it reads from.

## What is proved

`margin_compile`: for every report on a selected website, which lines stand at the
margin, and in which order.  The search for the place of a filter takes the lines at
the margin for the outline of the statement.  So it finds the end of the filters of the
outermost statement, and whether it has any, among all the SELECTs and WHEREs of the
statements inside; and a filter that is added stands right there.
-/
import EventReport.Proofs.Plan.Provision
import EventReport.Proofs.Dashboard.Rebinding

namespace EventReport

open Text Sql

namespace Report

/-- Whether a filter compares an attribute, and has what to compare it with. -/
def filtersAttribute (w : Warehouse) (r : Report) : Bool :=
  r.filters.any fun f =>
    r.namesAttribute w f.column && f.operator != .interactive && f.isComplete

end Report

namespace Dashboard

/-- The lines that begin at the margin. -/
def margin (lines : List (List Char)) : List (List Char) := lines.filter (!isIndented ·)

/-- The lines are one line with the opening, or none. -/
def AtMost (opening : String) (lines : List (List Char)) : Prop :=
  lines = [] ∨ ∃ rest, lines = [opening.toList ++ rest]

theorem margin_append (ls ms : List (List Char)) : margin (ls ++ ms) = margin ls ++ margin ms :=
  List.filter_append ..

theorem margin_indented {ls : List (List Char)} (h : ∀ line ∈ ls, isIndented line = true) :
    margin ls = [] :=
  List.filter_eq_nil_iff.2 fun line hline => by simp [h line hline]

theorem margin_map_indent (ls : List Line) : margin ((ls.map Line.indent).map Line.chars) = [] := by
  refine margin_indented fun line hline => ?_
  obtain ⟨l, hl, rfl⟩ := List.mem_map.1 hline
  obtain ⟨m, -, rfl⟩ := List.mem_map.1 hl
  exact (firm_isIndented m).holds

theorem margin_itemLines (is : List Item) : margin ((Item.lines is).map Line.chars) = [] := by
  refine margin_indented fun line hline => ?_
  obtain ⟨l, hl, rfl⟩ := List.mem_map.1 hline
  obtain ⟨m, rfl⟩ := exists_indent_of_mem_itemLines hl
  exact (firm_isIndented m).holds

/-- A line of one fixed text, at the margin. -/
theorem margin_fixed {s : String} (h : isIndented s.toList = false) :
    margin ([[Piece.fixed s]].map Line.chars) = [s.toList] := by
  rw [List.map_singleton, Line.chars, Piece.chars_fixed]
  simp [margin, h]

section Report

variable (w : Warehouse) (site : Website) (r : Report)

theorem isEmpty_outerConditions :
    (w.plan site r).outerConditions.isEmpty = !r.filtersAttribute w := by
  have hfates : (w.plan site r).outerConditions = (r.filters.map
      (Filter.fate w.settings (Scope.of w.registry r.attributes))).filterMap Fate.outer? := rfl
  have hcompiled (f : Filter) :
      (f.fate w.settings (Scope.of w.registry r.attributes)).outer?.isSome =
        (r.namesAttribute w f.column && f.operator != .interactive && f.isComplete) := by
    rw [Bool.eq_iff_iff, Filter.isSome_outer?_iff, Bool.and_eq_true, Bool.and_eq_true, and_assoc,
      Report.namesAttribute_iff, bne_iff_ne]
  rw [Bool.eq_iff_iff, List.isEmpty_iff, hfates, List.filterMap_map, List.filterMap_eq_nil_iff,
    Bool.not_eq_true', Report.filtersAttribute, List.any_eq_false]
  simp [← hcompiled]

/-- Between the two blocks of filters stand the select list and the pivot, if it is read. -/
theorem margin_select : margin (((w.plan site r).selectLines w).map Line.chars) =
    [")", "SELECT", "FROM base"].map String.toList ++
      if r.readsAttribute w then ["LEFT JOIN (", ") event_data"].map String.toList else [] := by
  have hjoins : margin ((Query.joinLines ((w.plan site r).query w).joins).map Line.chars) =
      if r.readsAttribute w then ["LEFT JOIN (", ") event_data"].map String.toList else [] := by
    rw [Plan.joinLines_query, isEmpty_attributes]
    cases r.readsAttribute w with
    | false => rfl
    | true =>
      have hopen : margin ([[Piece.fixed (JoinKind.left.keywords ++ " (")]].map Line.chars) =
          ["LEFT JOIN (".toList] := margin_fixed (by decide)
      have hclose : margin ([[Piece.fixed (") " ++ Pivot.relation)]].map Line.chars) =
          [") event_data".toList] := margin_fixed (by decide)
      have hon : ∀ ps : List Piece, margin ([Piece.fixed "  ON " :: ps].map Line.chars) = [] := by
        intro ps
        refine margin_indented fun line hline => ?_
        obtain rfl := List.mem_singleton.1 hline
        rw [Line.chars, Piece.chars_cons, Piece.inline_fixed]
        rfl
      rw [Bool.not_true, if_neg Bool.false_ne_true, if_pos rfl, Pivot.lines_join,
        ← List.singleton_append]
      simp only [List.map_append, margin_append, margin_map_indent, hopen, hclose, hon]
      rfl
  have hclose : margin ([[Piece.fixed ")"]].map Line.chars) = [")".toList] :=
    margin_fixed (by decide)
  have hkeyword : margin ([[Piece.fixed "SELECT"]].map Line.chars) = ["SELECT".toList] :=
    margin_fixed (by decide)
  have hfrom : margin ([[Piece.fixed ("FROM " ++ baseName)]].map Line.chars) =
      ["FROM base".toList] := margin_fixed (by decide)
  rw [Plan.selectLines, Item.selectLines_eq (Plan.select_ne w site r), ← List.singleton_append,
    ← List.singleton_append (l := Item.lines _)]
  simp only [List.map_append, margin_append, margin_itemLines, hclose, hkeyword, hfrom, hjoins]
  rfl

/-- The tail is all at the margin. -/
theorem exists_tail : ∃ groups orders, ((w.plan site r).tailLines w).map Line.chars =
      groups ++ (orders ++ [("LIMIT " ++ toString w.settings.rowLimit).toList]) ∧
    AtMost "GROUP BY " groups ∧ AtMost "ORDER BY " orders := by
  refine ⟨(Query.groupLines (w.plan site r).projection.groupBy).map Line.chars,
    (Query.orderLines (w.plan site r).projection.orderBy).map Line.chars, ?_, ?_, ?_⟩
  · have hlimit : (Query.limitLines (some w.settings.rowLimit)).map Line.chars =
        [("LIMIT " ++ toString w.settings.rowLimit).toList] := by
      rw [Query.limitLines, List.map_singleton, Line.chars, Piece.chars_fixed]
    rw [Plan.tailLines, List.map_append, List.map_append, hlimit, List.append_assoc]
  · cases (w.plan site r).projection.groupBy with
    | nil => exact .inl rfl
    | cons e es => exact .inr ⟨_, rfl⟩
  · cases (w.plan site r).projection.orderBy with
    | nil => exact .inl rfl
    | cons k ks =>
      refine .inr ⟨(", ".intercalate ((k :: ks).map SortKey.render)).toList, ?_⟩
      show [Line.chars
        [.fixed ("ORDER BY " ++ ", ".intercalate ((k :: ks).map SortKey.render))]] = _
      rw [Line.chars, Piece.chars_fixed, String.toList_append]

theorem margin_of_atMost {opening : String} {lines : List (List Char)} (h : AtMost opening lines)
    (hopening : ∀ rest, isIndented (opening.toList ++ rest) = false) : margin lines = lines := by
  rcases h with rfl | ⟨rest, rfl⟩
  · rfl
  · simp [margin, hopening]

/-- The filters of the outermost statement: the first has the WHERE, at the margin, and the others
are indented. -/
theorem outer_cases :
    if r.filtersAttribute w then ∃ rest lines,
        (w.plan site r).outerLines.map Line.chars = ("WHERE ".toList ++ rest) :: lines ∧
          ∀ line ∈ lines, isIndented line = true
      else (w.plan site r).outerLines.map Line.chars = [] := by
  have hempty := isEmpty_outerConditions w site r
  cases houter : (w.plan site r).outerConditions with
  | nil =>
    rw [houter, List.isEmpty_nil, eq_comm, Bool.not_eq_true'] at hempty
    rw [if_neg (by simp [hempty]), Plan.outerLines, houter]
    rfl
  | cons c cs =>
    rw [houter, List.isEmpty_cons, eq_comm, Bool.not_eq_false'] at hempty
    rw [if_pos hempty]
    rcases Plan.outerLines_cases w site r with hnil | ⟨line, lines, heq, hline, hlines⟩
    · rw [Plan.outerLines, houter] at hnil
      cases c <;> cases hnil
    · obtain ⟨negated, rest, rfl⟩ := hline
      refine ⟨_, lines, heq, fun m hm => ?_⟩
      obtain ⟨negated, rest, rfl⟩ := hlines m hm
      rfl

end Report

/-- The blocks that the statement of a report is laid out in. -/
structure IsLaidOut (w : Warehouse) (r : Report) (base select outer tail : List (List Char)) :
    Prop where
  base : margin base = ["WITH base AS (".toList]
  select : margin select = [")", "SELECT", "FROM base"].map String.toList ++
    if r.readsAttribute w then ["LEFT JOIN (", ") event_data"].map String.toList else []
  outer : if r.filtersAttribute w then ∃ rest lines, outer = ("WHERE ".toList ++ rest) :: lines ∧
      ∀ line ∈ lines, isIndented line = true
    else outer = []
  tail : ∃ groups orders,
    tail = groups ++ (orders ++ [("LIMIT " ++ toString w.settings.rowLimit).toList]) ∧
      AtMost "GROUP BY " groups ∧ AtMost "ORDER BY " orders

namespace IsLaidOut

variable {w : Warehouse} {r : Report} {base select outer tail : List (List Char)}

theorem margin_tail (h : IsLaidOut w r base select outer tail) : margin tail = tail := by
  obtain ⟨groups, orders, rfl, hgroups, horders⟩ := h.tail
  have hlimit : margin [("LIMIT " ++ toString w.settings.rowLimit).toList] =
      [("LIMIT " ++ toString w.settings.rowLimit).toList] := by
    rw [String.toList_append]
    rfl
  rw [margin_append, margin_append, margin_of_atMost hgroups fun rest => rfl,
    margin_of_atMost horders fun rest => rfl, hlimit]

theorem margin_outer (h : IsLaidOut w r base select outer tail) : margin outer = outer.take 1 := by
  have houter := h.outer
  split at houter
  · obtain ⟨rest, lines, rfl, hlines⟩ := houter
    rw [← List.singleton_append, margin_append, margin_indented hlines]
    rfl
  · rw [houter]
    rfl

theorem isEmpty_outer (h : IsLaidOut w r base select outer tail) :
    outer.isEmpty = !r.filtersAttribute w := by
  have houter := h.outer
  split at houter
  · next hfilters =>
    obtain ⟨rest, lines, rfl, -⟩ := houter
    rw [hfilters]
    rfl
  · next hfilters =>
    rw [houter, Bool.eq_false_of_not_eq_true hfilters]
    rfl

end IsLaidOut

/-- A variable that takes the place of no filter is added after the filters of the outermost
statement. -/
theorem Regions.Sound.splitLines_bind {s : Regions} (h : s.Sound) {sql : String}
    (hsql : splitLines sql.toList = s.lines) {v : Variable} (hv : isIdentifier v.name = true)
    (hnew : Placeholder.occurs v.name.toList sql.toList = false)
    (hnone : v.bindFirst? s.lines = none) :
    splitLines (Dashboard.bind sql v).toList = s.front ++
      (if s.outer.isEmpty then [alwaysLine []] else []) ++ v.addedLine :: s.tail := by
  have hbinds : (isIdentifier v.name && !Placeholder.occurs v.name.toList sql.toList) = true := by
    rw [hv, hnew]
    rfl
  obtain ⟨t, hlines, ht, -⟩ := h.addFilter hv
  have htake : s.lines.take s.front.length = s.front := List.take_left ..
  have hdrop : s.lines.drop s.front.length = s.tail := List.drop_left ..
  rw [Dashboard.bind, if_pos hbinds, String.toList_ofList, Document.ofText, hsql, Document.bind,
    hnone]
  show splitLines (joinLines (Document.addFilter ⟨s.lines⟩ v).lines) = _
  rw [hlines, ht.splitLines_eq, ← hlines, Document.addFilter, h.tailStart, h.hasTopLevelWhere]
  simp only [htake, hdrop]
  cases s.outer.isEmpty <;> rfl

section Report

variable {w : Warehouse} {site : Website} {r : Report}

/-- Which lines of a statement stand at the margin; where the search for the place of a filter ends;
and what a variable that takes the place of no filter adds. -/
theorem margin_compile (hw : w.registry.validate = .ok ()) (hsite : r.website = some site)
    (hselected : site.isSelected = true) :
    ∃ base select outer tail : List (List Char),
      splitLines (w.compile r).sql.toList = base ++ select ++ outer ++ tail ∧
      IsLaidOut w r base select outer tail ∧
      margin (splitLines (w.compile r).sql.toList) =
        ["WITH base AS (", ")", "SELECT", "FROM base"].map String.toList ++
          (if r.readsAttribute w then ["LEFT JOIN (", ") event_data"].map String.toList else []) ++
          outer.take 1 ++ tail ∧
      (Document.ofText (w.compile r).sql.toList).tailStart = (base ++ select ++ outer).length ∧
      (Document.ofText (w.compile r).sql.toList).hasTopLevelWhere (base ++ select ++ outer).length =
        r.filtersAttribute w ∧
      ∀ v : Variable, isIdentifier v.name = true →
        Placeholder.occurs v.name.toList (w.compile r).sql.toList = false →
        v.bindFirst? (splitLines (w.compile r).sql.toList) = none →
        splitLines (bind (w.compile r).sql v).toList = base ++ select ++ outer ++
          (if r.filtersAttribute w then [] else ["WHERE 1 = 1".toList]) ++ v.addedLine :: tail := by
  have hsound := Regions.sound_ofReport w site r hw hsite
  have hlines : splitLines (w.compile r).sql.toList = (Regions.ofReport w site r).lines := by
    rw [Warehouse.sql_compile hsite hselected, Query.toList_sql, ← Regions.lines_ofReport,
      hsound.splitLines_eq]
  have hselect : margin (Regions.ofReport w site r).select = _ := margin_select w site r
  have houter : if r.filtersAttribute w then ∃ rest lines,
      (Regions.ofReport w site r).outer = ("WHERE ".toList ++ rest) :: lines ∧
        ∀ line ∈ lines, isIndented line = true
      else (Regions.ofReport w site r).outer = [] := outer_cases w site r
  have htail : ∃ groups orders, (Regions.ofReport w site r).tail =
      groups ++ (orders ++ [("LIMIT " ++ toString w.settings.rowLimit).toList]) ∧
      AtMost "GROUP BY " groups ∧ AtMost "ORDER BY " orders := exists_tail w site r
  generalize Regions.ofReport w site r = s at hsound hlines hselect houter htail
  have hfront : s.front =
      openingLine :: (s.opening ++ s.scope :: s.filters) ++ s.select ++ s.outer := by
    simp [Regions.front]
  have hbase : margin (openingLine :: (s.opening ++ s.scope :: s.filters)) =
      ["WITH base AS (".toList] := by
    have hindented : ∀ line ∈ s.opening ++ s.scope :: s.filters, isIndented line = true :=
      Regions.forall_append (fun line hline => (hsound.opening line hline).firm.holds.isIndented)
        (List.forall_mem_cons.2 ⟨hsound.scope.firm.holds.isIndented,
          fun line hline => (hsound.filters line hline).isInner.isIndented⟩)
    rw [← List.singleton_append, margin_append, margin_indented hindented]
    rfl
  have hlaid : IsLaidOut w r _ s.select s.outer s.tail := ⟨hbase, hselect, houter, htail⟩
  have hempty := hlaid.isEmpty_outer
  have hdocument : Document.ofText (w.compile r).sql.toList = ⟨s.lines⟩ := by
    rw [Document.ofText, hlines]
  refine ⟨_, s.select, s.outer, s.tail, ?_, hlaid, ?_, ?_, ?_, fun v hv hnew hnone => ?_⟩
  · rw [hlines, Regions.lines, hfront]
  · rw [hlines, Regions.lines, hfront, margin_append, margin_append, margin_append, hbase,
      hselect, hlaid.margin_outer, hlaid.margin_tail]
    rfl
  · rw [hdocument, hsound.tailStart, hfront]
  · rw [hdocument, ← hfront, hsound.hasTopLevelWhere, hempty, Bool.not_not]
  · rw [hlines] at hnone
    rw [hsound.splitLines_bind hlines hv hnew hnone, hempty, hfront]
    cases r.filtersAttribute w <;> rfl

end Report

/-- A report that compares and groups by an attribute, and a variable for a filter that it does not
have. -/
theorem margin_compile_attribute :
    ∃ (r : Report) (base select outer tail : List (List Char)),
      splitLines (smallWarehouse.compile r).sql.toList = base ++ select ++ outer ++ tail ∧
      IsLaidOut smallWarehouse r base select outer tail ∧
      margin (splitLines (smallWarehouse.compile r).sql.toList) =
        ["WITH base AS (", ")", "SELECT", "FROM base", "LEFT JOIN (", ") event_data",
          "WHERE EXISTS (SELECT 1 FROM \x60f\x60 d WHERE d.website_event_id = base.event_id" ++
            " AND d.data_key = 'k' AND d.string_value LIKE 'c%')",
          "GROUP BY dato, event_data.param_k", "ORDER BY dato DESC", "LIMIT 1000"].map
            String.toList ∧
      splitLines (bind (smallWarehouse.compile r).sql (.named "x" .text)).toList =
        base ++ select ++ outer ++ ["  [[AND base.x = \x7b\x7bx\x7d\x7d]]",
          "GROUP BY dato, event_data.param_k", "ORDER BY dato DESC", "LIMIT 1000"].map
            String.toList := by
  let r : Report :=
    { website := some { id := "a" }
      filters := [.equals "u" "b", .startsWith "param_k" "c", .isNull "param_k"]
      attributes := [⟨"k", .string⟩]
      outline := { groupBy := ["t", "param_k"] } }
  have hw : smallWarehouse.registry.validate = .ok () := by decide
  have hlines : splitLines (smallWarehouse.compile r).sql.toList =
      ((smallWarehouse.plan { id := "a" } r).query smallWarehouse).lines.map Line.chars :=
    splitLines_compile smallWarehouse _ r hw rfl (by decide)
  have hreads : r.readsAttribute smallWarehouse = true := by decide
  have hfilters : r.filtersAttribute smallWarehouse = true := by decide
  have hnew : Placeholder.occurs "x".toList (smallWarehouse.compile r).sql.toList = false := by
    rw [← joinLines_splitLines (smallWarehouse.compile r).sql.toList, hlines]
    decide +kernel
  have hnone : ∀ line ∈ splitLines (smallWarehouse.compile r).sql.toList,
      (Variable.named "x" .text).boundLine? line = none := by
    rw [hlines]
    decide +kernel
  have hshown : margin (splitLines (smallWarehouse.compile r).sql.toList) =
      ["WITH base AS (", ")", "SELECT", "FROM base", "LEFT JOIN (", ") event_data",
        "WHERE EXISTS (SELECT 1 FROM \x60f\x60 d WHERE d.website_event_id = base.event_id" ++
          " AND d.data_key = 'k' AND d.string_value LIKE 'c%')",
        "GROUP BY dato, event_data.param_k", "ORDER BY dato DESC", "LIMIT 1000"].map
          String.toList := by
    rw [hlines]
    decide +kernel
  obtain ⟨base, select, outer, tail, hsplit, hlaid, hmargin, -, -, hbind⟩ :=
    margin_compile (w := smallWarehouse) (r := r) hw rfl (by decide)
  have hbound := hbind (.named "x" .text) (by decide) hnew (bindFirst?_eq_none hnone)
  rw [if_pos hfilters, List.append_nil] at hbound
  obtain ⟨first, rest, rfl⟩ : ∃ first rest, outer = first :: rest := by
    refine List.exists_cons_of_ne_nil fun hnil => ?_
    have hempty := hlaid.isEmpty_outer
    rw [hnil, hfilters] at hempty
    cases hempty
  -- the lines at the margin after the first filter are the tail
  rw [hshown, if_pos hreads] at hmargin
  obtain rfl : _ = tail := congrArg (List.drop 7) hmargin
  exact ⟨r, base, select, _, _, hsplit, hlaid, hshown, hbound⟩

end Dashboard

end EventReport
