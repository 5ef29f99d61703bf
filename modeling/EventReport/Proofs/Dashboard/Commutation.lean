/-
# Binding two variables

Two variables with distinct names and distinct target columns are bound in either
order.  Each of them takes a filter over, or has one added, or is known already.

## What is proved

`bind_bind_comm`: in the statement of a harmless report, the order in which the two
are bound does not matter, but where both have a filter added: then the two filters
stand in the order in which the variables came.

A filter that is taken over gives way to one that no variable takes over, and the
place of an added filter is found whether the other variable has been bound before
or not (`Document.bind_bind`).  And whether a variable is known is seen from its
placeholder: in orderly lines none is found or lost when another variable is bound
(`IsOrderly.occurs_bind`), and the statement is made of such lines
(`isOrderly_compile`).

## What is NOT proved, because it is false

That this is so for every report without two opening braces in a row.  A quoted text
leaves NULs out, so that two braces may come together in it, and these hide the
placeholders behind them up to the next two closing braces.  A variable that is bound
in between makes the one behind it seen (`bind_bind_nul`).
-/
import EventReport.Proofs.Dashboard.Place
import EventReport.Proofs.Plan.Clear
import EventReport.Proofs.Text.Closed

namespace EventReport.Dashboard

open Text
open Placeholder (occurs leavesOpen)

/-! ## Lines that are taken over -/

/-- A filter with a placeholder is taken over by no variable. -/
theorem Variable.not_mayTake {line : List Char} {c : Clause} (hc : TextLine.clause? line = some c)
    (hnone : c.predicate.literalColumn? = none) (v : Variable) : ¬v.MayTake line := by
  rintro ⟨d, column, h⟩
  obtain rfl := Option.some.inj (hc.symm.trans h.clause)
  rw [h.literal] at hnone
  cases hnone

theorem Variable.not_mayTake_alwaysLine (v : Variable) : ¬v.MayTake (alwaysLine []) := by
  rintro ⟨c, column, h⟩
  exact absurd (clause?_alwaysLine.symm.trans h.clause) (by simp)

theorem Variable.not_mayTake_addedLine {u : Variable} (hu : isIdentifier u.name = true)
    (v : Variable) : ¬v.MayTake u.addedLine :=
  v.not_mayTake (clause?_addedLine hu) (literalColumn?_predicate u _)

/-- One column is the target of both variables, if they may take over one filter. -/
theorem Variable.sameCaseless_of_mayTake {a b : Variable} {line : List Char} (ha : a.MayTake line)
    (hb : b.MayTake line) : sameCaseless a.targetColumn.toList b.targetColumn.toList = true := by
  obtain ⟨c, column, ha⟩ := ha
  obtain ⟨d, column', hb⟩ := hb
  obtain rfl := Option.some.inj (ha.clause.symm.trans hb.clause)
  obtain rfl := Option.some.inj (ha.literal.symm.trans hb.literal)
  have htarget := ha.target
  have htarget' := hb.target
  rw [ColumnName.isNamed, sameCaseless, beq_iff_eq] at htarget htarget'
  rw [sameCaseless, beq_iff_eq, ← htarget, htarget']

/-- The variable takes over the line, and the new one is a filter with its placeholder. -/
structure TakesOver (v : Variable) (line new : List Char) : Prop where
  bound : v.boundLine? line = some new
  passed : IsPassed line
  passed_new : IsPassed new
  settled : ∀ u : Variable, ¬u.MayTake new
  placeholder : HoldsOnly v.name.toList new

/-- A filter within a block, with no placeholder in it and no brace in its column. -/
structure IsPlainFilter (line : List Char) (column : ColumnName) : Prop extends
    IsNeatFilter line where
  occurs : ∀ name, occurs name line = false
  column : '\x7b' ∉ column.spelling

/-- The lines close the braces they open, and a filter that may be taken over is a plain one. -/
structure IsOrderly (lines : List (List Char)) : Prop where
  closed : ∀ line ∈ lines, leavesOpen line = false
  plain : ∀ line ∈ lines, ∀ (v : Variable) c column, v.Takes line c column →
    IsPlainFilter line column

theorem brace_not_mem_indent (line : List Char) : '\x7b' ∉ TextLine.indent line :=
  fun hmem => absurd (isBlank_of_mem_leadingBlanks _ hmem) (by decide)

/-- Where a placeholder stands in a line depends on the kind of the variable, and not on its name. No
brace is there but those of the placeholder, if the column has none. -/
theorem exists_place_of_kind (kind : VariableKind) (connective : Connective) (optional : Bool)
    (indent : List Char) (hindent : '\x7b' ∉ indent) {column : ColumnName}
    (hcolumn : (∀ target, kind ≠ .fieldFilter target) → '\x7b' ∉ column.spelling) :
    ∃ start finish, '\x7b' ∉ start ∧ '\x7b' ∉ finish ∧ ∀ v : Variable, v.kind = kind →
      indent ++ Clause.render ⟨connective, optional, v.predicate column⟩ =
        start ++ (Placeholder.write v.name.toList ++ finish) := by
  obtain ⟨start, finish, hrender, -, hfinish, hbrace⟩ :=
    exists_render_of_kind kind connective optional column
  refine ⟨indent ++ start, finish, fun hmem => ?_, hfinish, fun v hv => ?_⟩
  · rcases List.mem_append.1 hmem with hmem | hmem
    · exact hindent hmem
    · exact hcolumn (hbrace hmem).1 (hbrace hmem).2
  · rw [hrender v hv, List.append_assoc]

theorem IsOrderly.exists_takesOver {lines : List (List Char)} (h : IsOrderly lines) {v : Variable}
    (hv : isIdentifier v.name = true) {line : List Char} (hline : line ∈ lines)
    (hmay : v.MayTake line) : ∃ new, TakesOver v line new := by
  obtain ⟨c, column, htakes⟩ := hmay
  have hplain := h.plain line hline v c column htakes
  obtain ⟨new, hbound, -, hclause, -⟩ := htakes.boundLine hv (newline_not_mem_of_isNeat hplain.isNeat)
  have hfilter := isFilter_boundLine hv hplain.isInner hplain.isNeat hbound
  refine ⟨new, hbound, hplain.isInner.isPassed, hfilter.1.isPassed,
    Variable.not_mayTake hclause (literalColumn?_predicate v column), ?_⟩
  obtain ⟨d, column', htakes', rfl⟩ := Variable.boundLine?_eq_some_iff.1 hbound
  obtain ⟨start, finish, hstart, hfinish, hline⟩ := exists_place_of_kind v.kind d.connective
    d.optional _ (brace_not_mem_indent line) fun _ => (h.plain line hline v d column' htakes').column
  exact ⟨start, finish, hstart, hfinish, hline v rfl⟩

theorem holdsOnly_addedLine {v : Variable} (hv : isIdentifier v.name = true) :
    HoldsOnly v.name.toList v.addedLine := by
  obtain ⟨start, finish, hstart, hfinish, hline⟩ :=
    exists_place_of_kind v.kind .and_ true "  ".toList (by decide) (brace_not_mem_addedColumn hv)
  exact ⟨start, finish, hstart, hfinish, hline v rfl⟩

/-! ## Two variables in one document -/

namespace Document

variable {v : Variable}

theorem bind_of_takesOver {before after : List (List Char)} {line new : List Char}
    (hbefore : ∀ l ∈ before, ¬v.MayTake l) (h : TakesOver v line new) :
    Document.bind ⟨before ++ line :: after⟩ v = ⟨before ++ new :: after⟩ :=
  bind_of_boundLine (fun l hl => Variable.boundLine?_eq_none_iff.2 (hbefore l hl)) h.bound

theorem bind_of_endsFilters {front back : List (List Char)} (h : EndsFilters front back)
    (hfront : ∀ l ∈ front, ¬v.MayTake l) (hback : ∀ l ∈ back, ¬v.MayTake l) :
    Document.bind ⟨front ++ back⟩ v = ⟨front ++ openingAfter front ++ v.addedLine :: back⟩ := by
  have hnone : ∀ l ∈ front ++ back, v.boundLine? l = none := fun l hl =>
    Variable.boundLine?_eq_none_iff.2 ((List.mem_append.1 hl).elim (hfront l) (hback l))
  rw [bind_of_none hnone, ← h.lines_addFilter]

end Document

theorem Variable.not_mayTake_openingAfter (v : Variable) {front : List (List Char)} :
    ∀ l ∈ openingAfter front, ¬v.MayTake l := by
  intro l hl
  rw [mem_openingAfter hl]
  exact v.not_mayTake_alwaysLine

namespace Document

variable {a b : Variable} {la lb la' lb' : List Char} {x y : List (List Char)}

/-- Both variables take filters over, the second one behind the first. -/
theorem bind_bind_of_takesOver {m : List (List Char)} (ha : TakesOver a la la')
    (hb : TakesOver b lb lb') (hax : ∀ l ∈ x, ¬a.MayTake l) (hbx : ∀ l ∈ x, ¬b.MayTake l)
    (hbla : ¬b.MayTake la) (hbm : ∀ l ∈ m, ¬b.MayTake l) :
    ((Document.mk (x ++ la :: (m ++ lb :: y))).bind a).bind b =
      ((Document.mk (x ++ la :: (m ++ lb :: y))).bind b).bind a := by
  have hsplit : ∀ line (ls : List (List Char)), x ++ line :: (m ++ ls) = (x ++ line :: m) ++ ls := by
    simp
  have hbefore : ∀ line, ¬b.MayTake line → ∀ l ∈ x ++ line :: m, ¬b.MayTake l :=
    fun line hline => Regions.forall_append hbx (List.forall_mem_cons.2 ⟨hline, hbm⟩)
  calc ((Document.mk (x ++ la :: (m ++ lb :: y))).bind a).bind b
    _ = (Document.mk (x ++ la' :: (m ++ lb :: y))).bind b := by rw [bind_of_takesOver hax ha]
    _ = ⟨x ++ la' :: (m ++ lb' :: y)⟩ := by
      rw [hsplit, bind_of_takesOver (hbefore la' (ha.settled b)) hb, ← hsplit]
    _ = (Document.mk (x ++ la :: (m ++ lb' :: y))).bind a := (bind_of_takesOver hax ha).symm
    _ = ((Document.mk (x ++ la :: (m ++ lb :: y))).bind b).bind a := by
      rw [hsplit la (lb :: y), bind_of_takesOver (hbefore la hbla) hb, ← hsplit]

/-- One variable takes a filter over, and the other one has one added, before it or behind it. -/
theorem bind_bind_of_added (hb : isIdentifier b.name = true) (ha : TakesOver a la la')
    (hax : ∀ l ∈ x, ¬a.MayTake l) (hbnone : ∀ l ∈ x ++ la :: y, ¬b.MayTake l) :
    ((Document.mk (x ++ la :: y)).bind a).bind b =
      ((Document.mk (x ++ la :: y)).bind b).bind a := by
  obtain ⟨hbx, hbl⟩ := List.forall_mem_append.1 hbnone
  obtain ⟨hbla, hby⟩ := List.forall_mem_cons.1 hbl
  have hadded : ¬a.MayTake b.addedLine := Variable.not_mayTake_addedLine hb a
  obtain ⟨front, back, hends, ⟨m, rfl, rfl⟩ | ⟨m, rfl, rfl⟩⟩ := EndsFilters.exists_around x y la
  · have hsplit : ∀ line (ls : List (List Char)), x ++ line :: (m ++ ls) = (x ++ line :: m) ++ ls := by
      simp
    obtain ⟨hbm, hbback⟩ := List.forall_mem_append.1 hby
    have hfront : ∀ line, ¬b.MayTake line → ∀ l ∈ x ++ line :: m, ¬b.MayTake l :=
      fun line hline => Regions.forall_append hbx (List.forall_mem_cons.2 ⟨hline, hbm⟩)
    calc ((Document.mk (x ++ la :: (m ++ back))).bind a).bind b
      _ = (Document.mk ((x ++ la' :: m) ++ back)).bind b := by
        rw [bind_of_takesOver hax ha, hsplit]
      _ = ⟨(x ++ la' :: m) ++ openingAfter (x ++ la' :: m) ++ b.addedLine :: back⟩ :=
        bind_of_endsFilters (hends.replace_front ha.passed_new) (hfront la' (ha.settled b)) hbback
      _ = ⟨x ++ la' :: (m ++ openingAfter (x ++ la :: m) ++ b.addedLine :: back)⟩ := by
        rw [openingAfter_replace ha.passed ha.passed_new]
        simp
      _ = (Document.mk (x ++ la :: (m ++ openingAfter (x ++ la :: m) ++
            b.addedLine :: back))).bind a := (bind_of_takesOver hax ha).symm
      _ = ((Document.mk (x ++ la :: (m ++ back))).bind b).bind a := by
        rw [hsplit la back, bind_of_endsFilters hends (hfront la hbla) hbback]
        simp
  · obtain ⟨haf, ham⟩ := List.forall_mem_append.1 hax
    obtain ⟨hbf, hbm⟩ := List.forall_mem_append.1 hbx
    have hback : ∀ line, ¬b.MayTake line → ∀ l ∈ m ++ line :: y, ¬b.MayTake l :=
      fun line hline => Regions.forall_append hbm (List.forall_mem_cons.2 ⟨hline, hby⟩)
    have hbefore : ∀ l ∈ front ++ openingAfter front ++ b.addedLine :: m, ¬a.MayTake l :=
      Regions.forall_append (Regions.forall_append haf a.not_mayTake_openingAfter)
        (List.forall_mem_cons.2 ⟨hadded, ham⟩)
    calc ((Document.mk (front ++ m ++ la :: y)).bind a).bind b
      _ = (Document.mk (front ++ (m ++ la' :: y))).bind b := by
        rw [bind_of_takesOver hax ha, List.append_assoc]
      _ = ⟨front ++ openingAfter front ++ b.addedLine :: (m ++ la' :: y)⟩ :=
        bind_of_endsFilters (hends.replace_back ha.passed la') hbf (hback la' (ha.settled b))
      _ = ⟨(front ++ openingAfter front ++ b.addedLine :: m) ++ la' :: y⟩ := by simp
      _ = (Document.mk ((front ++ openingAfter front ++ b.addedLine :: m) ++ la :: y)).bind a :=
        (bind_of_takesOver hbefore ha).symm
      _ = ((Document.mk (front ++ m ++ la :: y)).bind b).bind a := by
        rw [List.append_assoc front m, bind_of_endsFilters hends hbf (hback la hbla)]
        simp

/-- Both variables have filters added, and the second one stands behind the first. -/
theorem bind_bind_of_endsFilters {front back : List (List Char)} (h : EndsFilters front back)
    (ha : isIdentifier a.name = true)
    (hnone : ∀ l ∈ front ++ back, ¬a.MayTake l ∧ ¬b.MayTake l) :
    (((Document.mk (front ++ back)).bind a).bind b).lines =
      front ++ openingAfter front ++ a.addedLine :: b.addedLine :: back := by
  have hpassed := (isFilter_addedLine ha).1.isPassed
  obtain ⟨hfront, hback⟩ := List.forall_mem_append.1 hnone
  have hbfront : ∀ l ∈ front ++ openingAfter front ++ [a.addedLine], ¬b.MayTake l :=
    Regions.forall_append (Regions.forall_append (fun l hl => (hfront l hl).2)
        b.not_mayTake_openingAfter) (by simpa using Variable.not_mayTake_addedLine ha b)
  rw [bind_of_endsFilters h (fun l hl => (hfront l hl).1) fun l hl => (hback l hl).1,
    List.append_cons, bind_of_endsFilters (h.add hpassed) hbfront fun l hl => (hback l hl).2,
    openingAfter_add front hpassed]
  simp

/-- The order does not matter where one of the variables takes a filter over, and else it is the order
of the filters that are added. -/
theorem bind_bind {lines : List (List Char)} (h : IsOrderly lines) (ha : isIdentifier a.name = true)
    (hb : isIdentifier b.name = true)
    (htarget : sameCaseless a.targetColumn.toList b.targetColumn.toList = false) :
    ((∃ l ∈ lines, a.MayTake l ∨ b.MayTake l) →
        ((Document.mk lines).bind a).bind b = ((Document.mk lines).bind b).bind a) ∧
      ((∀ l ∈ lines, ¬a.MayTake l ∧ ¬b.MayTake l) → ∃ before after,
        (((Document.mk lines).bind a).bind b).lines =
            before ++ a.addedLine :: b.addedLine :: after ∧
          (((Document.mk lines).bind b).bind a).lines =
            before ++ b.addedLine :: a.addedLine :: after) := by
  have hboth : ∀ l, a.MayTake l → ¬b.MayTake l := by
    intro l hal hbl
    rw [Variable.sameCaseless_of_mayTake hal hbl] at htarget
    cases htarget
  refine ⟨fun hsome => ?_, fun hnone => ?_⟩
  · rcases a.exists_first lines with ⟨x, la, y, rfl, hax, hla⟩ | hanone
    · obtain ⟨la', ha'⟩ := h.exists_takesOver ha (by simp) hla
      rcases b.exists_first x with ⟨x, lb, m, rfl, hbx, hlb⟩ | hbx
      · obtain ⟨lb', hb'⟩ := h.exists_takesOver hb (by simp) hlb
        obtain ⟨hax, halm⟩ := List.forall_mem_append.1 hax
        obtain ⟨halb, ham⟩ := List.forall_mem_cons.1 halm
        have hcomm := bind_bind_of_takesOver (y := y) hb' ha' hbx hax halb ham
        rw [List.append_assoc, List.cons_append]
        exact hcomm.symm
      · rcases b.exists_first y with ⟨m, lb, y, rfl, hbm, hlb⟩ | hby
        · obtain ⟨lb', hb'⟩ := h.exists_takesOver hb (by simp) hlb
          exact bind_bind_of_takesOver ha' hb' hax hbx (hboth la hla) hbm
        · exact bind_bind_of_added hb ha' hax
            (Regions.forall_append hbx (List.forall_mem_cons.2 ⟨hboth la hla, hby⟩))
    · rcases b.exists_first lines with ⟨x, lb, y, rfl, hbx, hlb⟩ | hbnone
      · obtain ⟨lb', hb'⟩ := h.exists_takesOver hb (by simp) hlb
        exact (bind_bind_of_added ha hb' hbx hanone).symm
      · obtain ⟨l, hl, hmay⟩ := hsome
        exact absurd hmay (not_or.2 ⟨hanone l hl, hbnone l hl⟩)
  · obtain ⟨front, back, rfl, hends⟩ := EndsFilters.exists_eq_append lines
    exact ⟨_, back, bind_bind_of_endsFilters hends ha hnone,
      bind_bind_of_endsFilters hends hb fun l hl => (hnone l hl).symm⟩

end Document

/-! ## Two variables in one text -/

section Occurs

variable {v : Variable} (hv : isIdentifier v.name = true)

include hv

/-- The line that is written holds the placeholder of its variable, and no other line comes or goes
that holds one. -/
theorem IsOrderly.any_occurs_bind {lines : List (List Char)} (h : IsOrderly lines) {name : List Char}
    (hname : name ≠ v.name.toList) :
    (∀ l ∈ (Document.bind ⟨lines⟩ v).lines, leavesOpen l = false) ∧
      (Document.bind ⟨lines⟩ v).lines.any (occurs name) = lines.any (occurs name) := by
  have hnew : ∀ {new : List Char}, HoldsOnly v.name.toList new →
      leavesOpen new = false ∧ occurs name new = false := by
    intro new hnew
    refine ⟨hnew.leavesOpen hv, ?_⟩
    rw [← Bool.not_eq_true, hnew.occurs_iff hv]
    exact hname
  rcases v.exists_first lines with ⟨before, line, after, rfl, hbefore, hline⟩ | hnone
  · have hmem : line ∈ before ++ line :: after := by simp
    obtain ⟨new, htakes⟩ := h.exists_takesOver hv hmem hline
    obtain ⟨c, column, hcolumn⟩ := hline
    have hplain := h.plain line hmem v c column hcolumn
    obtain ⟨hclosed, hoccurs⟩ := hnew htakes.placeholder
    obtain ⟨hcbefore, hcline⟩ := List.forall_mem_append.1 h.closed
    rw [Document.bind_of_takesOver hbefore htakes]
    refine ⟨Regions.forall_append hcbefore
      (List.forall_mem_cons.2 ⟨hclosed, (List.forall_mem_cons.1 hcline).2⟩), ?_⟩
    simp only [List.any_append, List.any_cons, hoccurs, hplain.occurs]
  · obtain ⟨front, back, rfl, hends⟩ := EndsFilters.exists_eq_append lines
    obtain ⟨hfront, hback⟩ := List.forall_mem_append.1 hnone
    obtain ⟨hclosed, hoccurs⟩ := hnew (holdsOnly_addedLine hv)
    obtain ⟨hcfront, hcback⟩ := List.forall_mem_append.1 h.closed
    have hbrace : ∀ l ∈ openingAfter front, '\x7b' ∉ l := by
      intro l hl
      rw [mem_openingAfter hl]
      decide
    have hopening : (openingAfter front).any (occurs name) = false := by
      rw [List.any_eq_false]
      intro l hl
      rw [Placeholder.occurs_of_not_mem (hbrace l hl)]
      exact Bool.false_ne_true
    rw [Document.bind_of_endsFilters hends hfront hback]
    refine ⟨Regions.forall_append (Regions.forall_append hcfront fun l hl =>
      Placeholder.leavesOpen_of_not_mem (hbrace l hl)) (List.forall_mem_cons.2 ⟨hclosed, hcback⟩), ?_⟩
    simp only [List.any_append, List.any_cons, hoccurs, hopening, Bool.or_false, Bool.false_or]

/-- To bind one variable makes no other one known, and none unknown. -/
theorem IsOrderly.occurs_bind {sql : String} (h : IsOrderly (splitLines sql.toList))
    {name : List Char} (hname : name ≠ v.name.toList) :
    occurs name (bind sql v).toList = occurs name sql.toList := by
  cases hnew : occurs v.name.toList sql.toList with
  | true =>
    have hkept : bind sql v = sql := (bind_eq_self_iff sql v).2 fun _ => hnew
    rw [hkept]
  | false =>
    obtain ⟨hclosed, hany⟩ := h.any_occurs_bind hv hname
    calc occurs name (bind sql v).toList
      _ = occurs name (joinLines (Document.bind ⟨splitLines sql.toList⟩ v).lines) := by
        rw [← splitLines_bind hv hnew, joinLines_splitLines]
      _ = (splitLines sql.toList).any (occurs name) := by
        rw [Placeholder.occurs_joinLines hclosed, hany]
      _ = occurs name sql.toList := by
        rw [← Placeholder.occurs_joinLines h.closed, joinLines_splitLines]

end Occurs

/-- Texts with the same lines are the same. -/
theorem eq_of_splitLines {s t : String} (h : splitLines s.toList = splitLines t.toList) : s = t := by
  rw [← String.toList_inj, ← joinLines_splitLines s.toList, h, joinLines_splitLines]

/-- A variable that is known stays so, and is left alone before and after the other one is bound. -/
theorem IsOrderly.bind_bind_of_occurs {a b : Variable} (hb : isIdentifier b.name = true)
    (hnames : a.name ≠ b.name) {sql : String} (h : IsOrderly (splitLines sql.toList))
    (hknown : occurs a.name.toList sql.toList = true) :
    bind (bind sql a) b = bind (bind sql b) a := by
  have hname : a.name.toList ≠ b.name.toList := fun heq => hnames (String.toList_inj.1 heq)
  have hkept : bind sql a = sql := (bind_eq_self_iff sql a).2 fun _ => hknown
  have hkept' : bind (bind sql b) a = bind sql b := by
    refine (bind_eq_self_iff _ a).2 fun _ => ?_
    rw [h.occurs_bind hb hname, hknown]
  rw [hkept, hkept']

section Variables

variable {a b : Variable} (ha : isIdentifier a.name = true) (hb : isIdentifier b.name = true)
  (hnames : a.name ≠ b.name)

include ha hb hnames

/-- Both variables are bound as in a document, the second one after the first. -/
theorem IsOrderly.splitLines_bind_bind {sql : String} (h : IsOrderly (splitLines sql.toList))
    (hnewa : occurs a.name.toList sql.toList = false)
    (hnewb : occurs b.name.toList sql.toList = false) :
    splitLines (bind (bind sql a) b).toList =
      (((Document.mk (splitLines sql.toList)).bind a).bind b).lines := by
  have hname : b.name.toList ≠ a.name.toList := fun heq => hnames (String.toList_inj.1 heq).symm
  have hnew : occurs b.name.toList (bind sql a).toList = false := by
    rw [h.occurs_bind ha hname, hnewb]
  rw [splitLines_bind hb hnew, splitLines_bind ha hnewa]

/-- In an orderly text the order does not matter, but for that of two filters that are added. -/
theorem IsOrderly.bind_bind {sql : String} (h : IsOrderly (splitLines sql.toList))
    (htarget : sameCaseless a.targetColumn.toList b.targetColumn.toList = false) :
    ((occurs a.name.toList sql.toList = true ∨ occurs b.name.toList sql.toList = true ∨
        ∃ l ∈ splitLines sql.toList, a.MayTake l ∨ b.MayTake l) →
        bind (bind sql a) b = bind (bind sql b) a) ∧
      (occurs a.name.toList sql.toList = false → occurs b.name.toList sql.toList = false →
        (∀ l ∈ splitLines sql.toList, ¬a.MayTake l ∧ ¬b.MayTake l) → ∃ before after,
          splitLines (bind (bind sql a) b).toList =
              before ++ a.addedLine :: b.addedLine :: after ∧
            splitLines (bind (bind sql b) a).toList =
              before ++ b.addedLine :: a.addedLine :: after) := by
  have hdocument := Document.bind_bind h ha hb htarget
  refine ⟨fun hmeets => ?_, fun hnewa hnewb hnone => ?_⟩
  · cases hnewa : occurs a.name.toList sql.toList with
    | true => exact h.bind_bind_of_occurs hb hnames hnewa
    | false =>
      cases hnewb : occurs b.name.toList sql.toList with
      | true => exact (h.bind_bind_of_occurs ha hnames.symm hnewb).symm
      | false =>
        rw [hnewa, hnewb] at hmeets
        have hsome := (hmeets.resolve_left Bool.false_ne_true).resolve_left Bool.false_ne_true
        apply eq_of_splitLines
        rw [h.splitLines_bind_bind ha hb hnames hnewa hnewb,
          h.splitLines_bind_bind hb ha hnames.symm hnewb hnewa, hdocument.1 hsome]
  · rw [h.splitLines_bind_bind ha hb hnames hnewa hnewb,
      h.splitLines_bind_bind hb ha hnames.symm hnewb hnewa]
    exact hdocument.2 hnone

end Variables

/-! ## The statement of a report -/

/-- An optional filter of a report is a placeholder. -/
theorem clause?_optional {name : String} (hname : isIdentifier name = true) :
    TextLine.clause? (' ' :: ' ' :: optionalChars name.toList) =
      some ⟨.and_, true, .placeholder name.toList⟩ := by
  have hrender : Clause.render ⟨.and_, true, .placeholder name.toList⟩ =
      "[[AND ".toList ++ (Placeholder.write name.toList ++ "]]".toList) := by
    simp [Clause.render, Connective.keyword, Predicate.render]
  have hline : ' ' :: ' ' :: optionalChars name.toList =
      "    ".toList ++ Clause.render ⟨.and_, true, .placeholder name.toList⟩ := by
    rw [hrender]
    rfl
  have hwritten : (Clause.mk .and_ true (.placeholder name.toList)).predicate.IsWritten _ :=
    Predicate.isWritten_placeholder hname
  rw [hline]
  exact clause?_render hwritten (isBlank_of_mem_replicate 4)

/-- And so no variable takes it over. -/
theorem not_mayTake_optional {name : String} (hname : isIdentifier name = true) (v : Variable) :
    ¬v.MayTake (' ' :: ' ' :: optionalChars name.toList) :=
  v.not_mayTake (clause?_optional hname) rfl

theorem holdsOnly_optional (name : List Char) :
    HoldsOnly name (' ' :: ' ' :: optionalChars name) :=
  ⟨"    [[AND ".toList, "]]".toList, by decide, by decide, rfl⟩

theorem splitLines_compile_none {w : Warehouse} {r : Report}
    (h : r.website.filter Website.isSelected = none) :
    splitLines (w.compile r).sql.toList = [[]] := by
  rw [Warehouse.sql_compile_none h]
  rfl

/-- The lines of the statement of a harmless report are clear, apart from its optional filters. -/
theorem isClear_or_optional_compile {w : Warehouse} {r : Report} (hw : w.registry.validate = .ok ())
    (hr : IsHarmless w r) : ∀ line ∈ splitLines (w.compile r).sql.toList, IsClear line ∨
      ∃ name, isIdentifier name = true ∧ line = ' ' :: ' ' :: optionalChars name.toList := by
  cases hselected : r.website.filter Website.isSelected with
  | none =>
    rw [splitLines_compile_none hselected]
    intro line hline
    rw [List.mem_singleton.1 hline]
    exact .inl (isClear_of_not_mem List.not_mem_nil)
  | some site =>
    obtain ⟨hsite, hselected⟩ := Option.filter_eq_some_iff.1 hselected
    have hsite : r.website = some site := hsite
    rw [splitLines_compile w site r hw hsite hselected, List.forall_mem_map]
    exact Plan.isClear_or_optional hw hr hsite

/-- The lines of the statement of a harmless report are orderly. -/
theorem isOrderly_compile {w : Warehouse} {r : Report} (hw : w.registry.validate = .ok ())
    (hr : IsHarmless w r) : IsOrderly (splitLines (w.compile r).sql.toList) := by
  have hkinds := isClear_or_optional_compile hw hr
  refine ⟨fun line hline => ?_, fun line hline v c column htakes => ?_⟩
  · rcases hkinds line hline with hclear | ⟨name, hname, rfl⟩
    · exact hclear.leavesOpen
    · exact (holdsOnly_optional _).leavesOpen hname
  cases hselected : r.website.filter Website.isSelected with
  | none =>
    have hclause : TextLine.clause? [] = none := by decide_cbv
    rw [splitLines_compile_none hselected] at hline
    rw [List.mem_singleton.1 hline] at htakes
    exact absurd (hclause.symm.trans htakes.clause) (by simp)
  | some site =>
    obtain ⟨hsite, hselected⟩ := Option.filter_eq_some_iff.1 hselected
    have hsite : r.website = some site := hsite
    have hregions := (Regions.sound_ofReport w site r hw hsite).forall_lines
    rw [Regions.lines_ofReport, ← splitLines_compile w site r hw hsite hselected] at hregions
    have hclear : IsClear line := by
      refine (hkinds line hline).resolve_right ?_
      rintro ⟨name, hname, rfl⟩
      exact not_mayTake_optional hname v ⟨c, column, htakes⟩
    obtain ⟨hneat, hregion⟩ := hregions line hline
    have hinner : IsInnerFilter line := by
      refine hregion.resolve_left fun hquiet => ?_
      exact Variable.boundLine?_eq_none_iff.1 (hquiet.boundLine? hneat v) ⟨c, column, htakes⟩
    exact {
      isNeat := hneat
      isInner := hinner
      occurs := hclear.occurs
      column := brace_not_mem_column w site r hw hsite hselected line hline c column
        htakes.clause htakes.literal }

/-- In the statement of a harmless report, two variables with distinct names and target columns may
be bound in either order. If one of them is known there, or may take a filter over, the text is the
same; else it is but for the two filters that are added, which stand in the order in which the
variables came. -/
theorem bind_bind_comm (w : Warehouse) (r : Report) (a b : Variable)
    (hw : w.registry.validate = .ok ()) (hr : IsHarmless w r) (ha : isIdentifier a.name = true)
    (hb : isIdentifier b.name = true) (hnames : a.name ≠ b.name)
    (htarget : sameCaseless a.targetColumn.toList b.targetColumn.toList = false) :
    ((occurs a.name.toList (w.compile r).sql.toList = true ∨
        occurs b.name.toList (w.compile r).sql.toList = true ∨
        ∃ line ∈ splitLines (w.compile r).sql.toList, a.MayTake line ∨ b.MayTake line) →
        bind (bind (w.compile r).sql a) b = bind (bind (w.compile r).sql b) a) ∧
      (occurs a.name.toList (w.compile r).sql.toList = false →
        occurs b.name.toList (w.compile r).sql.toList = false →
        (∀ line ∈ splitLines (w.compile r).sql.toList, ¬a.MayTake line ∧ ¬b.MayTake line) →
        ∃ before after,
          splitLines (bind (bind (w.compile r).sql a) b).toList =
              before ++ a.addedLine :: b.addedLine :: after ∧
            splitLines (bind (bind (w.compile r).sql b) a).toList =
              before ++ b.addedLine :: a.addedLine :: after) :=
  (isOrderly_compile hw hr).bind_bind ha hb hnames htarget

set_option maxRecDepth 16384 in
/-- Two variables in a report with a filter that one of them takes over, and without one. -/
theorem bind_bind_comm_small :
    bind (bind (smallWarehouse.compile {
            website := some { id := "a" }
            filters := [.equals "u" "b"] }).sql (.named "u" .text)) (.named "v" .date) =
        bind (bind (smallWarehouse.compile {
            website := some { id := "a" }
            filters := [.equals "u" "b"] }).sql (.named "v" .date)) (.named "u" .text) ∧
      ∃ before after,
        splitLines (bind (bind (smallWarehouse.compile { website := some { id := "a" } }).sql
            (.named "u" .text)) (.named "v" .date)).toList =
          before ++ "  [[AND base.u = \x7b\x7bu\x7d\x7d]]".toList ::
            "  [[AND DATE(base.created_at) = \x7b\x7bv\x7d\x7d]]".toList :: after := by
  have hvalid : smallWarehouse.registry.validate = .ok () := by decide
  have hlines : ∀ {r : Report}, r.website = some { id := "a" } →
      splitLines (smallWarehouse.compile r).sql.toList =
        ((smallWarehouse.plan { id := "a" } r).query smallWarehouse).lines.map Sql.Line.chars :=
    fun hr => splitLines_compile smallWarehouse _ _ hvalid hr (by decide)
  constructor
  · have hclause : TextLine.clause? "    AND u = 'b'".toList =
        some ⟨.and_, false, .equals ⟨"u".toList⟩ "'b'".toList⟩ := by decide_cbv
    have htakes : (Variable.named "u" .text).MayTake "    AND u = 'b'".toList :=
      ⟨_, _, hclause, rfl, by decide, by decide⟩
    refine (bind_bind_comm smallWarehouse _ (.named "u" .text) (.named "v" .date) hvalid
      (.of_plain (by decide) (by decide +kernel)) (by decide) (by decide) (by decide) (by decide)).1
      (.inr (.inr ⟨_, ?_, .inl htakes⟩))
    rw [hlines rfl]
    decide +kernel
  · have hnone : ∀ line ∈ splitLines (smallWarehouse.compile
        { website := some { id := "a" } }).sql.toList,
        (Variable.named "u" .text).boundLine? line = none ∧
          (Variable.named "v" .date).boundLine? line = none := by
      rw [hlines rfl]
      decide +kernel
    have hnew : occurs "u".toList (smallWarehouse.compile
          { website := some { id := "a" } }).sql.toList = false ∧
        occurs "v".toList (smallWarehouse.compile
          { website := some { id := "a" } }).sql.toList = false := by
      rw [← joinLines_splitLines (smallWarehouse.compile _).sql.toList, hlines rfl]
      decide +kernel
    obtain ⟨before, after, hboth, -⟩ := (bind_bind_comm smallWarehouse _ (.named "u" .text)
      (.named "v" .date) hvalid (.of_plain (by decide) (by decide +kernel)) (by decide) (by decide)
      (by decide) (by decide)).2 hnew.1 hnew.2 fun line hline =>
        ⟨Variable.boundLine?_eq_none_iff.1 (hnone line hline).1,
          Variable.boundLine?_eq_none_iff.1 (hnone line hline).2⟩
    exact ⟨before, after, hboth⟩

/-! ## Braces that come together -/

/-- A variable that is seen only when another one has been bound is left alone then. -/
theorem bind_bind_ne_of_hidden {a b : Variable} (ha : isIdentifier a.name = true)
    (hb : isIdentifier b.name = true) {sql : String} {lines : List (List Char)}
    (hlines : splitLines sql.toList = lines) (hnewa : occurs a.name.toList (joinLines lines) = false)
    (hnewb : occurs b.name.toList (joinLines lines) = false)
    (hhidden : occurs b.name.toList (joinLines (Document.bind ⟨lines⟩ a).lines) = false)
    (hseen : occurs a.name.toList (joinLines (Document.bind ⟨lines⟩ b).lines) = true)
    (hne : ((Document.mk lines).bind a).bind b ≠ (Document.mk lines).bind b) :
    bind (bind sql a) b ≠ bind (bind sql b) a := by
  subst hlines
  rw [joinLines_splitLines] at hnewa hnewb
  have hlinesa := splitLines_bind ha hnewa
  have hlinesb := splitLines_bind hb hnewb
  rw [← hlinesa, joinLines_splitLines] at hhidden
  rw [← hlinesb, joinLines_splitLines] at hseen
  have hkept : bind (bind sql b) a = bind sql b := (bind_eq_self_iff _ a).2 fun _ => hseen
  rw [hkept]
  intro heq
  have hboth := splitLines_bind hb hhidden
  rw [heq, hlinesa, hlinesb] at hboth
  exact hne (congrArg Document.mk hboth.symm)

/-- A report with a NUL between two opening braces. -/
def nulReport : Report where
  website := some { id := "a" }
  filters := [.equals "u" "\x7b\x00\x7b", .equals "t" "x", .interactive "u"]

set_option maxRecDepth 16384 in
/-- No two opening braces stand in a row in the report, but in its statement they do, and they hide
the placeholder of a variable until another one is bound. -/
theorem bind_bind_nul :
    (∀ s ∈ nulReport.quotedTexts smallWarehouse, ¬['\x7b', '\x7b'] <:+: s.toList) ∧
      bind (bind (smallWarehouse.compile nulReport).sql (.named "u" .text))
          (.named "c" (.fieldFilter "t")) ≠
        bind (bind (smallWarehouse.compile nulReport).sql (.named "c" (.fieldFilter "t")))
          (.named "u" .text) := by
  have hlines : splitLines (smallWarehouse.compile nulReport).sql.toList =
      ["WITH base AS (", "  SELECT *", "  FROM (", "    SELECT", "      e.*", "    FROM \x60e\x60 e",
        "  )", "  WHERE website_id = 'a'", "    AND u = '\x7b\x7b'", "    AND t = 'x'",
        "    [[AND \x7b\x7bu\x7d\x7d]]", ")", "SELECT", "  COUNT(*) AS metric_1", "FROM base",
        "LIMIT 1000"].map String.toList := by
    rw [splitLines_compile smallWarehouse { id := "a" } nulReport (by decide) rfl (by decide)]
    decide +kernel
  exact ⟨by decide, bind_bind_ne_of_hidden (by decide) (by decide) hlines (by decide +kernel)
    (by decide +kernel) (by decide +kernel) (by decide +kernel) (by decide +kernel)⟩

end EventReport.Dashboard
