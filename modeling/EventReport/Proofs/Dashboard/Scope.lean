/-
# The condition on the website, whatever a dashboard does

## What is proved

The statement of a report has sound regions (`Regions.sound_ofReport`), so what holds of
sound regions holds of all that a run of steps makes of it: every filter is reached
from a WHERE, and the condition on the website stands where it stood.

## What is NOT proved, because it is false

That the condition stays as it is, whatever the id.  Taking out a variable replaces
its placeholder everywhere, in quoted texts too, and an id may hold one.  To forbid
two opening braces in the id is not enough: quoting leaves out NUL, and so brings
braces together that were apart.  `scopeStands_iff` has the exact condition.

-/
import EventReport.Proofs.Dashboard.Run
import EventReport.Proofs.Plan.Readback
import EventReport.Proofs.Text.Clear

namespace EventReport.Dashboard

open Text Sql
open Token (isKeyword)

/-- The line with the condition on the website, as it is compiled. -/
def scopeText (site : Website) : List Char :=
  "  WHERE website_id = ".toList ++ (quote site.id).toList

theorem scopeText_eq (site : Website) :
    scopeText site = "  WHERE website_id =".toList ++ ' ' :: Quoted.chars site.id.toList := by
  have hopening : "  WHERE website_id = ".toList = "  WHERE website_id =".toList ++ [' '] := by
    decide
  unfold scopeText
  rw [hopening, List.append_assoc, toList_quote, List.singleton_append]

/-! ## Lines at the margin and lines that are indented -/

theorem firm_isIndented (l : Line) : Firm (isIndented · = true) l.indent.chars := by
  rw [Line.chars_indent]
  exact .of_append (p := [' ', ' ']) _ (by decide) fun _ => rfl

/-- What is between the two blocks of filters begins no clause that a filter is added before. -/
def IsBetween (line : List Char) : Prop :=
  TextLine.startsTail line = false ∧ TextLine.startsTopLevel ["WHERE"] line = false

theorem isBetween_of_isIndented {line : List Char} (h : isIndented line = true) :
    IsBetween line := ⟨startsTail_of_isIndented h, startsTopLevel_of_isIndented h _⟩

/-- The lines between the two blocks of filters, those of them that stand at the margin. -/
def marginTexts : List String :=
  [")", "SELECT", "FROM " ++ baseName, JoinKind.left.keywords ++ " (", ") " ++ Pivot.relation]

theorem firm_isBetween_margin {s : String} (h : s ∈ marginTexts) :
    Firm IsBetween (Line.chars [.fixed s]) := by
  rw [Line.chars, Piece.chars_fixed]
  simp only [marginTexts, List.mem_cons, List.not_mem_nil, or_false] at h
  rcases h with rfl | rfl | rfl | rfl | rfl <;>
    exact .of_not_mem (by decide) ⟨by decide, by decide⟩

theorem exists_indent_of_mem_itemLines {is : List Item} {l : Line} (h : l ∈ Item.lines is) :
    ∃ m, l = Line.indent m := by
  fun_induction Item.lines is with
  | case1 => cases h
  | case2 i => exact ⟨_, List.mem_singleton.1 h⟩
  | case3 i is _ ih =>
    rcases List.mem_cons.1 h with h | h
    · exact ⟨_, h⟩
    · exact ih h

section Report

variable (w : Warehouse) (site : Website) (r : Report)

theorem firm_isBetween : ∀ l ∈ (w.plan site r).selectLines w, Firm IsBetween l.chars := by
  have hindent : ∀ m : Line, Firm IsBetween m.indent.chars :=
    fun m => (firm_isIndented m).imp fun _ => isBetween_of_isIndented
  have hmargin : ∀ s ∈ marginTexts, ∀ l ∈ [[Piece.fixed s]], Firm IsBetween (Line.chars l) := by
    intro s hs l hl
    obtain rfl := List.mem_singleton.1 hl
    exact firm_isBetween_margin hs
  have hitems : ∀ l ∈ Item.lines (w.plan site r).projection.select, Firm IsBetween l.chars := by
    intro l hl
    obtain ⟨m, rfl⟩ := exists_indent_of_mem_itemLines hl
    exact hindent m
  have hjoins : ∀ l ∈ Query.joinLines ((w.plan site r).query w).joins, Firm IsBetween l.chars := by
    rw [Plan.joinLines_query]
    split
    · exact fun l hl => absurd hl List.not_mem_nil
    · have hquery : ∀ l ∈ (Pivot.query w.settings (w.plan site r).website
          (w.plan site r).attributes).lines.map Line.indent, Firm IsBetween l.chars := by
        intro l hl
        obtain ⟨m, -, rfl⟩ := List.mem_map.1 hl
        exact hindent m
      have hon : ∀ ps : List Piece, ∀ l ∈ [Piece.fixed "  ON " :: ps], Firm IsBetween (Line.chars l) := by
        intro ps l hl
        obtain rfl := List.mem_singleton.1 hl
        rw [Line.chars, Piece.chars_cons, Piece.inline_fixed]
        exact .of_append _ (by decide) fun _ => isBetween_of_isIndented rfl
      rw [Pivot.lines_join]
      exact Regions.forall_append (Regions.forall_append (Regions.forall_append
        (hmargin _ (by simp [marginTexts])) hquery) (hmargin _ (by simp [marginTexts]))) (hon _)
  rw [Plan.selectLines, Item.selectLines_eq (Plan.select_ne w site r)]
  exact Regions.forall_append (hmargin _ (by simp [marginTexts])) (Regions.forall_append
    (Regions.forall_append (Regions.forall_append (hmargin _ (by simp [marginTexts])) hitems)
      (hmargin _ (by simp [marginTexts]))) hjoins)

/-! ## The regions of a report -/

/-- The quote that a literal begins with is as far as the line is settled. -/
theorem firm_quoted {Q : List Char → Prop} {p : List Char} (hp : '\x7b' ∉ p)
    (hQ : ∀ other, Q (p ++ ' ' :: '\'' :: other)) (cs rest : List Char) :
    Firm Q (p ++ ' ' :: (Quoted.chars cs ++ rest)) := by
  have hline : p ++ ' ' :: (Quoted.chars cs ++ rest) =
      (p ++ [' ', '\'']) ++ (Quoted.body cs ++ '\'' :: rest) := by simp [Quoted.chars]
  rw [hline]
  refine .of_append _ (by simpa using hp) fun other => ?_
  rw [List.append_assoc]
  exact hQ other

theorem firm_isQuiet_pivotCondition {line : List Char} (h : IsPivotCondition site line) :
    Firm IsQuiet line := by
  have htokens : tokenize "  WHERE d.website_id =".toList =
      some (.word "WHERE".toList :: [.word "d".toList, .symbol ['.'], .word "website_id".toList,
        .symbol ['=']]) := tokenize_of_within (by decide)
  obtain ⟨rest, rfl⟩ := h
  refine firm_quoted (by decide) (fun other => ?_) _ _
  exact .of_comparison (c := ⟨"d.website_id".toList⟩) rfl htokens (fun q ts => rfl) (by decide)

theorem firm_isScope : Firm IsScope (scopeText site) := by
  have htokens : tokenize "  WHERE website_id =".toList =
      some (.word "WHERE".toList :: [.word "website_id".toList, .symbol ['=']]) :=
      tokenize_of_within (by decide)
  have hscope := firm_quoted (Q := IsScope) (p := "  WHERE website_id =".toList) (by decide)
    (fun other => {
      isQuiet := .of_comparison (c := ⟨"website_id".toList⟩) rfl htokens (fun q ts => rfl)
        (by decide)
      isWhere := rfl
      isIndented := rfl }) site.id.toList []
  rw [List.append_nil] at hscope
  rw [scopeText_eq]
  exact hscope

theorem isInnerFilter_of_mem_lines {c : Condition} {l : Line} (h : l ∈ c.lines false) :
    IsInnerFilter l.indent.chars := by
  rw [Line.chars_indent]
  cases c with
  | always e =>
    obtain rfl := List.mem_singleton.1 h
    rw [Line.chars, Piece.chars_cons, Piece.inline_fixed]
    exact .of_append (isBlank_of_mem_replicate 4) (by decide) false _
  | optional e =>
    obtain rfl := List.mem_singleton.1 h
    rw [Line.chars, Piece.chars_append, Piece.chars_cons, Piece.inline_fixed, List.append_assoc]
    exact .of_append (isBlank_of_mem_replicate 4) (by decide) true _

/-- Whatever the row that is asked for, the line is known by what stands before it. -/
theorem firm_of_asksRow {k : String} {line : List Char} {Q : List Char → Prop}
    (hk : '\x7b' ∉ k.toList) (hQ : ∀ l, AsksRow k l → Q l) (h : AsksRow k line) : Firm Q line := by
  obtain ⟨negated, rest, rfl⟩ := h
  have hasks : ∀ other, Q (k.toList ++
      ' ' :: ((if negated then "NOT EXISTS ".toList else "EXISTS ".toList) ++ '(' :: other)) :=
    fun other => hQ _ ⟨negated, other, rfl⟩
  have hopen : '\x7b' ∉ (if negated then "NOT EXISTS ".toList else "EXISTS ".toList) := by
    cases negated <;> decide
  generalize (if negated then "NOT EXISTS ".toList else "EXISTS ".toList) = e at hasks hopen ⊢
  have hline : ∀ other, k.toList ++ ' ' :: (e ++ '(' :: other) =
      (k.toList ++ ' ' :: (e ++ ['('])) ++ other := by simp
  rw [hline]
  refine .of_append _ (by simp [hk, hopen]) fun other => ?_
  rw [← hline]
  exact hasks other

theorem opensOuter_of_asksRow {line : List Char} (h : AsksRow "WHERE" line) : OpensOuter line := by
  have hwhere : tokenize "WHERE".toList = some [.word "WHERE".toList] := tokenize_identifier (by decide)
  have hclause := h.read? hwhere (by decide)
  obtain ⟨negated, rest, rfl⟩ := h
  exact {
    isQuiet := .of_read? rfl hclause
    isWhere := rfl
    startsTail := by cases negated <;> rfl
    startsSelect := by cases negated <;> rfl
    startsWhere := by cases negated <;> rfl }

theorem isInnerFilter_of_asksRow {line : List Char} (h : AsksRow "  AND" line) :
    IsInnerFilter line := by
  obtain ⟨negated, rest, rfl⟩ := h
  exact .of_append (isBlank_of_mem_replicate 2) (by decide) false _

theorem firm_opensTail {opening : String} (h : opening ∈ Plan.tailOpenings) (rest : List Char) :
    Firm OpensTail (opening.toList ++ rest) := by
  have hinert : ∀ other, isInert (opening.toList ++ other) = true := fun other =>
    ((Plan.startsPlainly_of_mem_tailOpenings h).append other).firm.holds
  have hstarts : '\x7b' ∉ opening.toList ∧
      ∀ other, TextLine.startsTail (opening.toList ++ other) = true := by
    simp only [Plan.tailOpenings, List.mem_cons, List.not_mem_nil, or_false] at h
    rcases h with rfl | rfl | rfl <;> exact ⟨by decide, fun other => rfl⟩
  exact .of_append rest hstarts.1 fun other => ⟨hinert other, hstarts.2 other⟩

/-- The regions of the statement of a report. -/
def Regions.ofReport : Regions where
  opening := ((w.plan site r).openingLines w).tail.map Line.chars
  scope := scopeText site
  filters := (w.plan site r).filterLines.map Line.chars
  select := ((w.plan site r).selectLines w).map Line.chars
  outer := (w.plan site r).outerLines.map Line.chars
  tail := ((w.plan site r).tailLines w).map Line.chars

theorem Regions.lines_ofReport :
    (Regions.ofReport w site r).lines = ((w.plan site r).query w).lines.map Line.chars := by
  have hopening : Line.chars [.fixed ("WITH " ++ baseName ++ " AS (")] = openingLine := by
    rw [Line.chars, Piece.chars_fixed]
    decide
  have hscope : (w.plan site r).scopeLine.chars = scopeText site := by
    rw [scopeText_eq]
    exact Plan.chars_scopeLine w site r
  rw [Plan.lines_query]
  simp [Regions.lines, Regions.front, Regions.ofReport, Plan.openingLines, hopening, hscope]

/-- Each line of the statement of a report is neat. -/
theorem isNeat_of_mem_query (hw : w.registry.validate = .ok ()) (hsite : r.website = some site) :
    ∀ l ∈ ((w.plan site r).query w).lines, isNeat l.chars = true := by
  have hself := (SameShape.refl w r).planAlike hw hsite hsite
  exact (hself.linesAlike hw w.settings.timezone).neat_left

/-- The lines of a statement are those that are planned. -/
theorem splitLines_compile (hw : w.registry.validate = .ok ()) (hsite : r.website = some site)
    (hselected : site.isSelected = true) :
    splitLines (w.compile r).sql.toList = ((w.plan site r).query w).lines.map Line.chars := by
  rw [Warehouse.sql_compile hsite hselected]
  exact Query.splitLines_sql (Plan.lines_query_ne_nil _ _) (isNeat_of_mem_query w site r hw hsite)

section Neat

variable {w site r}

theorem settled_openingLines
    (hneat : ∀ l ∈ (w.plan site r).openingLines w, isNeat l.chars = true) :
    ∀ l ∈ ((w.plan site r).openingLines w).tail, Settled IsOpening l.chars := by
  intro l hl
  have hmem := List.mem_of_mem_tail hl
  have hinert := Plan.allInert_opening (w.plan site r) l hmem
  have hindented : Firm (isIndented · = true) l.chars := by
    obtain ⟨m, -, rfl⟩ := List.mem_map.1 hl
    exact firm_isIndented m
  exact ⟨hneat l hmem, (hinert.and hindented).imp fun _ h => ⟨h.1, h.2⟩⟩

theorem isNeatFilter_filterLines
    (hneat : ∀ l ∈ (w.plan site r).filterLines, isNeat l.chars = true) :
    ∀ l ∈ (w.plan site r).filterLines, IsNeatFilter l.chars := by
  intro l hl
  have hl' := hneat l hl
  obtain ⟨m, hm, rfl⟩ := List.mem_map.1 hl
  obtain ⟨c, -, hc⟩ := List.mem_flatMap.1 hm
  exact ⟨hl', isInnerFilter_of_mem_lines hc⟩

theorem settled_selectLines (hneat : ∀ l ∈ (w.plan site r).selectLines w, isNeat l.chars = true) :
    ∀ l ∈ (w.plan site r).selectLines w, Settled IsSelect l.chars := by
  intro l hl
  have hquiet : Firm IsQuiet l.chars := by
    rcases Plan.allInertOrPivot_select w site r l hl with hinert | hpivot
    · exact hinert.imp fun _ => .of_isInert
    · exact firm_isQuiet_pivotCondition site hpivot
  have hbetween := firm_isBetween w site r l hl
  exact ⟨hneat l hl, (hquiet.and hbetween).imp fun _ h => ⟨h.1, h.2.1, h.2.2⟩⟩

theorem exists_opensSelect (hneat : ∀ l ∈ (w.plan site r).selectLines w, isNeat l.chars = true) :
    ∃ l ∈ (w.plan site r).selectLines w, Settled OpensSelect l.chars := by
  have hmem : [Piece.fixed "SELECT"] ∈ (w.plan site r).selectLines w := by
    rw [Plan.selectLines, Item.selectLines_eq (Plan.select_ne w site r)]
    simp
  refine ⟨_, hmem, hneat _ hmem, ?_⟩
  rw [Line.chars, Piece.chars_fixed]
  exact .of_not_mem (by decide) ⟨.of_isInert (by decide), by decide⟩

theorem isOuterBlock_outerLines
    (hneat : ∀ line ∈ (w.plan site r).outerLines.map Line.chars, isNeat line = true) :
    IsOuterBlock ((w.plan site r).outerLines.map Line.chars) := by
  rcases Plan.outerLines_cases w site r with hnil | ⟨line, lines, heq, hline, hlines⟩
  · rw [hnil]
    exact .nil
  · rw [heq] at hneat ⊢
    have hopens := firm_of_asksRow (by decide) (fun _ => opensOuter_of_asksRow) hline
    refine .block ⟨hneat line List.mem_cons_self, hopens⟩ fun m hm => ?_
    exact ⟨hneat m (List.mem_cons_of_mem line hm), isInnerFilter_of_asksRow (hlines m hm)⟩

theorem settled_tailLines (hneat : ∀ l ∈ (w.plan site r).tailLines w, isNeat l.chars = true) :
    ∀ l ∈ (w.plan site r).tailLines w, Settled OpensTail l.chars := by
  intro l hl
  obtain ⟨opening, hopening, rest, hrest⟩ := Plan.exists_of_mem_tailLines _ hl
  refine ⟨hneat l hl, ?_⟩
  rw [hrest]
  exact firm_opensTail hopening rest

theorem isTail_tailLines (hneat : ∀ l ∈ (w.plan site r).tailLines w, isNeat l.chars = true) :
    IsTail (((w.plan site r).tailLines w).map Line.chars) := by
  have hsettled := settled_tailLines hneat
  cases htail : (w.plan site r).tailLines w with
  | nil => exact absurd htail (Plan.tailLines_ne_nil (w.plan site r))
  | cons l ls =>
    rw [htail] at hsettled
    refine .intro (hsettled l List.mem_cons_self) fun line hline => ?_
    obtain ⟨m, hm, rfl⟩ := List.mem_map.1 hline
    have hm := hsettled m (List.mem_cons_of_mem l hm)
    exact ⟨hm.isNeat, hm.firm.imp fun _ h => h.isInert⟩

end Neat

theorem Regions.sound_ofReport (hw : w.registry.validate = .ok ()) (hsite : r.website = some site) :
    (Regions.ofReport w site r).Sound := by
  have hneat := isNeat_of_mem_query w site r hw hsite
  rw [Plan.lines_query] at hneat
  simp only [List.mem_append, List.mem_cons] at hneat
  have hselect : ∀ l ∈ (w.plan site r).selectLines w, isNeat l.chars = true :=
    fun l hl => hneat l (.inr (.inr (.inr (.inl hl))))
  constructor
  case opening =>
    intro line hline
    obtain ⟨l, hl, rfl⟩ := List.mem_map.1 hline
    exact settled_openingLines (fun l hl => hneat l (.inl hl)) l hl
  case scope =>
    have hscope := hneat _ (.inr (.inl rfl))
    rw [Plan.chars_scopeLine, ← scopeText_eq] at hscope
    exact ⟨hscope, firm_isScope site⟩
  case filters =>
    intro line hline
    obtain ⟨l, hl, rfl⟩ := List.mem_map.1 hline
    exact isNeatFilter_filterLines (fun l hl => hneat l (.inr (.inr (.inl hl)))) l hl
  case select =>
    intro line hline
    obtain ⟨l, hl, rfl⟩ := List.mem_map.1 hline
    exact settled_selectLines hselect l hl
  case select_opens =>
    obtain ⟨l, hl, hopens⟩ := exists_opensSelect hselect
    exact ⟨l.chars, List.mem_map_of_mem hl, hopens⟩
  case outer =>
    refine isOuterBlock_outerLines fun line hline => ?_
    obtain ⟨l, hl, rfl⟩ := List.mem_map.1 hline
    exact hneat l (.inr (.inr (.inr (.inr (.inl hl)))))
  case tail =>
    exact isTail_tailLines fun l hl => hneat l (.inr (.inr (.inr (.inr (.inr hl)))))

/-- What the steps make of the statement of a report has sound regions. -/
theorem Regions.exists_run (hw : w.registry.validate = .ok ()) (hsite : r.website = some site)
    (hselected : site.isSelected = true) (steps : List Step)
    (hsteps : ∀ step ∈ steps, step.isAdmissible = true) :
    ∃ t : Regions, splitLines (run (w.compile r).sql steps).toList = t.lines ∧ t.Sound ∧
      (Regions.ofReport w site r).Follows t := by
  have hsound := Regions.sound_ofReport w site r hw hsite
  have hsql : (w.compile r).sql.toList = joinLines (Regions.ofReport w site r).lines := by
    rw [Warehouse.sql_compile hsite hselected, Query.toList_sql, Regions.lines_ofReport]
  obtain ⟨t, ht, htsound, hfollows⟩ := hsound.run hsql steps hsteps
  exact ⟨t, by rw [ht, htsound.splitLines_eq], htsound, hfollows⟩

end Report

/-! ## Ids that hold no placeholder -/

/-- No placeholder of a variable occurs in the quoted id. -/
def IsClearId (site : Website) : Prop :=
  ∀ name : String, isIdentifier name = true →
    Placeholder.occurs name.toList (quote site.id).toList = false

theorem occurs_scopeText (name : List Char) (site : Website) :
    Placeholder.occurs name (scopeText site) = Placeholder.occurs name (quote site.id).toList :=
  Placeholder.occurs_append (by decide) _

theorem isClearId_of_plain {site : Website} (hnul : '\x00' ∉ site.id.toList)
    (hopen : ¬['\x7b', '\x7b'] <:+: site.id.toList) : IsClearId site :=
  fun name _ => (isHarmless_of_not_mem hnul hopen).isClear.occurs name.toList

/-! ## Ids that hold a placeholder -/

/-- There is one place where the condition on the website can stand. -/
theorem ScopeStands.place_unique {scope : List Char} {i j : Nat} {lines : List (List Char)}
    (hscope : isWhere scope = true) (hi : ScopeStands scope i lines)
    (hj : ScopeStands scope j lines) : i = j := by
  have hle : ∀ {i j}, ScopeStands scope i lines → ScopeStands scope j lines → ¬i < j := by
    intro i j hi hj hlt
    have hmem : scope ∈ lines.take j :=
      List.mem_of_getElem? (by rw [List.getElem?_take_of_lt hlt]; exact hi.line)
    rw [(hj.first scope hmem).2.1] at hscope
    cases hscope
  have := hle hi hj
  have := hle hj hi
  omega

/-- In the warehouse as it comes, no line before the condition on the website has a brace, unless
sessions are joined. -/
theorem brace_not_mem_opening {p : Plan} (h : p.withSession = false) :
    ∀ line ∈ ((p.openingLines {}).tail.map Line.chars), '\x7b' ∉ line := by
  unfold Plan.openingLines
  rw [h]
  decide +kernel

/-- A placeholder in the quoted id is replaced when its variable is taken out. -/
theorem not_scopeStands {site : Website} (hselected : site.isSelected = true) {name : String}
    (hname : isIdentifier name = true)
    (hoccurs : Placeholder.occurs name.toList (quote site.id).toList = true) (place : Nat)
    (h : ∀ steps : List Step, (∀ step ∈ steps, step.isAdmissible = true) →
      ScopeStands (scopeText site) place
        (splitLines (run (Warehouse.compile {} { website := some site }).sql steps).toList)) :
    False := by
  have hvalid : Registry.standard.validate = .ok () := by decide
  have hsound := Regions.sound_ofReport {} site { website := some site } hvalid rfl
  have hsql : (Warehouse.compile {} { website := some site }).sql.toList =
      joinLines (Regions.ofReport {} site { website := some site }).lines := by
    rw [Warehouse.sql_compile rfl hselected, Query.toList_sql, Regions.lines_ofReport]
  have hbefore : ∀ line ∈ openingLine :: (Regions.ofReport {} site { website := some site }).opening,
      '\x7b' ∉ line := by
    intro line hline
    rcases List.mem_cons.1 hline with rfl | hline
    · decide
    · exact brace_not_mem_opening rfl line hline
  obtain ⟨after, hafter⟩ := hsound.unbind_scope (v := .named name .text) hsql hname hbefore
  have hlines := hsound.splitLines_eq
  rw [← hsql] at hlines
  have hcompiled : ScopeStands (scopeText site) place _ := h [] (by simp)
  have hplace := hcompiled.place_unique rfl (hlines ▸ hsound.scopeStands)
  have hunbound : ScopeStands (scopeText site) place _ := h [.unbind (.named name .text)] (by
    intro step hstep
    obtain rfl := List.mem_singleton.1 hstep
    exact hname)
  have hline : (splitLines (Dashboard.unbind _ (.named name .text)).toList)[place]? =
      some (scopeText site) := hunbound.line
  rw [hafter, hplace] at hline
  have hreplace : Placeholder.replace name.toList ['\'', '\''] (scopeText site) =
      scopeText site := by
    simpa [Regions.ofReport, Variable.named] using hline
  -- the name and its braces are longer than the two quotes in their place
  have hlt := Placeholder.length_replace_lt (r := ['\'', '\''])
    ((occurs_scopeText name.toList site).trans hoccurs) (by simp)
  rw [hreplace] at hlt
  exact Nat.lt_irrefl _ hlt

/-! ## The exact condition -/

/-- Whatever the steps, every filter is reached from a WHERE, and still is when optional filters are
dropped.  The condition on the website stays as it is, and where it is, just if no placeholder occurs
in the quoted id; and none does if the id has neither two opening braces nor NUL. -/
theorem scopeStands_iff (site : Website) (hselected : site.isSelected = true) :
    (∀ (w : Warehouse) (r : Report), w.registry.validate = .ok () → r.website = some site →
      ∀ steps : List Step, (∀ step ∈ steps, step.isAdmissible = true) →
        ∀ kept, Drops (splitLines (run (w.compile r).sql steps).toList) kept → IsAnchored kept) ∧
    ((∀ (w : Warehouse) (r : Report), w.registry.validate = .ok () → r.website = some site →
      ∃ place, ∀ steps : List Step, (∀ step ∈ steps, step.isAdmissible = true) →
        ScopeStands (scopeText site) place (splitLines (run (w.compile r).sql steps).toList)) ↔
      IsClearId site) ∧
    ('\x00' ∉ site.id.toList → ¬['\x7b', '\x7b'] <:+: site.id.toList → IsClearId site) := by
  refine ⟨?_, ⟨?_, ?_⟩, isClearId_of_plain⟩
  · intro w r hw hsite steps hsteps kept hkept
    obtain ⟨t, ht, hsound, -⟩ := Regions.exists_run w site r hw hsite hselected steps hsteps
    rw [ht] at hkept
    exact isAnchored_of_drops hsound.anchors hkept
  · intro h name hname
    rw [← Bool.not_eq_true]
    intro hoccurs
    have hvalid : Registry.standard.validate = .ok () := by decide
    obtain ⟨place, hplace⟩ := h {} { website := some site } hvalid rfl
    exact not_scopeStands hselected hname hoccurs place hplace
  · intro hclear w r hw hsite
    refine ⟨(Regions.ofReport w site r).opening.length + 1, fun steps hsteps => ?_⟩
    obtain ⟨t, ht, hsound, hfollows⟩ := Regions.exists_run w site r hw hsite hselected steps hsteps
    have hscope : t.scope = scopeText site := hfollows.scope fun name hname => by
      show Placeholder.occurs name.toList (scopeText site) = false
      rw [occurs_scopeText]
      exact hclear name hname
    rw [ht, ← hscope, ← hfollows.place]
    exact hsound.scopeStands

/-- A NUL keeps the braces of an id apart, and its quoted text does not. -/
theorem scopeStands_iff_nul :
    (¬['\x7b', '\x7b'] <:+: "\x7b\x00\x7ba\x7d\x7d".toList ∧
      ¬∀ (w : Warehouse) (r : Report), w.registry.validate = .ok () →
        r.website = some { id := "\x7b\x00\x7ba\x7d\x7d" } →
        ∃ place, ∀ steps : List Step, (∀ step ∈ steps, step.isAdmissible = true) →
          ScopeStands (scopeText { id := "\x7b\x00\x7ba\x7d\x7d" }) place
            (splitLines (run (w.compile r).sql steps).toList)) ∧
    ∃ place, ∀ steps : List Step, (∀ step ∈ steps, step.isAdmissible = true) →
      ScopeStands "  WHERE website_id = 'a'".toList place
        (splitLines (run (Warehouse.compile {} { website := some { id := "a" } }).sql steps).toList) := by
  have hvalid : Registry.standard.validate = .ok () := by decide
  have hoccurs : Placeholder.occurs "a".toList (quote "\x7b\x00\x7ba\x7d\x7d").toList = true := by
    decide_cbv
  have hnul := (scopeStands_iff { id := "\x7b\x00\x7ba\x7d\x7d" } (by decide)).2.1
  have hplain := (scopeStands_iff { id := "a" } (by decide)).2
  refine ⟨⟨by decide, fun h => ?_⟩, ?_⟩
  · have hclear := hnul.1 h "a" (by decide)
    rw [hoccurs] at hclear
    cases hclear
  · exact hplain.1.2 (hplain.2 (by decide) (by decide)) {} { website := some { id := "a" } } hvalid rfl

end EventReport.Dashboard
