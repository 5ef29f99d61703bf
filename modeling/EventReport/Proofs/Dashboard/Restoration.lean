/-
# Taking out a variable that has been bound

Taking a variable out leaves the filter out that binding wrote, and then replaces the
placeholders that are left.  So it restores the text as far as binding lost nothing:
a filter with literals that was taken over is gone, and the WHERE that was put in
before an added filter stays.

## What is proved

`unbind_bind`: for a variable that the text does not know, taking it out again gives
the text back; or the text and a WHERE, where the outermost statement had none; or
the text without the filter that was taken over, if that goes on with others.

The lines must close the braces they open.  Then every placeholder is found on its
own line (`Placeholder.occurs_joinLines`), and lines that come together where one is
left out hold no placeholder that they did not hold before.
-/
import EventReport.Proofs.Dashboard.Edit
import EventReport.Proofs.Text.Closed

namespace EventReport.Dashboard

open Text
open Placeholder (occurs leavesOpen ClosesBraces)

/-- The text does not know the variable, and its lines close the braces they open. -/
structure IsFresh (v : Variable) (lines : List (List Char)) : Prop where
  closed : ∀ line ∈ lines, leavesOpen line = false
  occurs : ∀ line ∈ lines, occurs v.name.toList line = false
  refers : ∀ line ∈ lines, TextLine.refersTo v.name.toList line = false

namespace IsFresh

variable {v : Variable} {lines : List (List Char)}

theorem subset {ls : List (List Char)} (h : IsFresh v lines) (hls : ls ⊆ lines) : IsFresh v ls :=
  ⟨fun l hl => h.closed l (hls hl), fun l hl => h.occurs l (hls hl),
    fun l hl => h.refers l (hls hl)⟩

theorem append {ls : List (List Char)} (h : IsFresh v lines) (hls : IsFresh v ls) :
    IsFresh v (lines ++ ls) := by
  refine ⟨fun l hl => ?_, fun l hl => ?_, fun l hl => ?_⟩
  · exact (List.mem_append.1 hl).elim (h.closed l) (hls.closed l)
  · exact (List.mem_append.1 hl).elim (h.occurs l) (hls.occurs l)
  · exact (List.mem_append.1 hl).elim (h.refers l) (hls.refers l)

/-- A condition that always holds has no braces. -/
theorem always (v : Variable) : IsFresh v [alwaysLine []] := by
  have hbrace : '\x7b' ∉ alwaysLine [] := by decide
  have hrefers : TextLine.refersTo v.name.toList (alwaysLine []) = false := by
    rw [TextLine.refersTo, clause?_alwaysLine]
  refine ⟨fun l hl => ?_, fun l hl => ?_, fun l hl => ?_⟩
  · rw [List.mem_singleton.1 hl]
    exact Placeholder.leavesOpen_of_not_mem hbrace
  · rw [List.mem_singleton.1 hl]
    exact Placeholder.occurs_of_not_mem hbrace
  · rw [List.mem_singleton.1 hl]
    exact hrefers

/-- What is put in before a filter holds no braces. -/
theorem opening (v : Variable) (d : Document) : IsFresh v d.opening :=
  (always v).subset fun _ hl => List.mem_singleton.2 (Document.mem_opening hl)

/-- In closed lines a placeholder occurs only where it occurs in the text. -/
theorem of_text {sql : String} (hclosed : ∀ line ∈ splitLines sql.toList, ClosesBraces line)
    (hnew : Placeholder.occurs v.name.toList sql.toList = false)
    (hrefers : ∀ line ∈ splitLines sql.toList, TextLine.refersTo v.name.toList line = false) :
    IsFresh v (splitLines sql.toList) := by
  have hopen : ∀ line ∈ splitLines sql.toList, leavesOpen line = false :=
    fun line hline => (hclosed line hline).leavesOpen_eq_false
  have hlines : Placeholder.occurs v.name.toList (joinLines (splitLines sql.toList)) = _ :=
    Placeholder.occurs_joinLines hopen
  rw [joinLines_splitLines, hnew] at hlines
  refine ⟨hopen, fun line hline => ?_, hrefers⟩
  have hnone := List.any_eq_false.1 hlines.symm line hline
  simpa using hnone

/-- The one line with the variable is left out, and there is nothing to replace. -/
theorem unbind {before after : List (List Char)} {new : List Char} {optional : Bool}
    {column : ColumnName} (h : IsFresh v (before ++ after))
    (hnew : TextLine.clause? new = some ⟨.and_, optional, v.predicate column⟩) {sql : String}
    (hsql : splitLines sql.toList = before ++ new :: after) :
    (Dashboard.unbind sql v).toList = joinLines (before ++ after) := by
  have hrefers : ∀ line ∈ before ++ new :: after,
      TextLine.refersTo v.name.toList line = true → TextLine.where? line = none := by
    intro line hline hline'
    rcases List.mem_append.1 hline with hline | hline
    · rw [h.refers line (List.mem_append_left _ hline)] at hline'
      cases hline'
    rcases List.mem_cons.1 hline with rfl | hline
    · rw [TextLine.where?, hnew]
      rfl
    · rw [h.refers line (List.mem_append_right _ hline)] at hline'
      cases hline'
  have hkept : ∀ {ls : List (List Char)}, ls ⊆ before ++ after →
      ls.filter (fun line => !TextLine.refersTo v.name.toList line) = ls := by
    intro ls hls
    refine List.filter_eq_self.2 fun line hline => ?_
    rw [h.refers line (hls hline)]
    rfl
  have hlines : TextLine.unbind v.name.toList none (before ++ new :: after) = before ++ after := by
    rw [unbind_eq_filter hrefers, List.filter_append, hkept (List.subset_append_left _ _),
      List.filter_cons_of_neg (by simp [refersTo_of_predicate hnew]),
      hkept (List.subset_append_right _ _)]
  have hnone : Placeholder.occurs v.name.toList (joinLines (before ++ after)) = false := by
    rw [Placeholder.occurs_joinLines h.closed, List.any_eq_false]
    intro line hline
    rw [h.occurs line hline]
    exact Bool.false_ne_true
  rw [Dashboard.unbind, String.toList_ofList, hsql, hlines, Placeholder.replace_eq_self hnone]

end IsFresh

/-- A variable that the text does not know is bound and taken out again. Nothing is left of it but a
WHERE, if one was put in; and of the filter that it took over, which goes on with others, nothing is
left at all. -/
theorem unbind_bind (sql : String) (v : Variable) (hv : isIdentifier v.name = true)
    (hclosed : ∀ line ∈ splitLines sql.toList, ClosesBraces line)
    (hnew : occurs v.name.toList sql.toList = false)
    (hrefers : ∀ line ∈ splitLines sql.toList, TextLine.refersTo v.name.toList line = false) :
    ((∀ line ∈ splitLines sql.toList, ¬v.MayTake line) →
      ∃ place, place = (Document.ofText sql.toList).tailStart ∧
        ((Document.ofText sql.toList).hasTopLevelWhere place = true →
          unbind (bind sql v) v = sql) ∧
        ((Document.ofText sql.toList).hasTopLevelWhere place = false →
          unbind (bind sql v) v = String.ofList (joinLines ((splitLines sql.toList).take place ++
            "WHERE 1 = 1".toList :: (splitLines sql.toList).drop place)))) ∧
      ∀ before line after c column, splitLines sql.toList = before ++ line :: after →
        (∀ l ∈ before, ¬v.MayTake l) → v.Takes line c column → c.connective = .and_ →
        unbind (bind sql v) v = String.ofList (joinLines (before ++ after)) := by
  have hlines := splitLines_bind hv hnew
  have hfresh := IsFresh.of_text hclosed hnew hrefers
  refine ⟨fun hnone => ⟨_, rfl, ?_⟩, fun before line after c column hsplit hbefore htakes hand => ?_⟩
  · rw [Document.bind_of_none fun l hl => Variable.boundLine?_eq_none_iff.2 (hnone l hl),
      Document.lines_addFilter] at hlines
    have hothers : IsFresh v ((splitLines sql.toList).take
          (Document.tailStart ⟨splitLines sql.toList⟩) ++
        Document.opening ⟨splitLines sql.toList⟩ ++
        (splitLines sql.toList).drop (Document.tailStart ⟨splitLines sql.toList⟩)) :=
      .append (.append (hfresh.subset (List.take_subset _ _)) (.opening v _))
        (hfresh.subset (List.drop_subset _ _))
    have htext := congrArg String.ofList (hothers.unbind (clause?_addedLine hv) hlines)
    rw [String.ofList_toList] at htext
    refine ⟨fun hwhere => ?_, fun hwhere => ?_⟩
    · have hopening : Document.opening ⟨splitLines sql.toList⟩ = [] := if_pos hwhere
      rw [htext, hopening, List.append_nil, List.take_append_drop, joinLines_splitLines,
        String.ofList_toList]
    · have hopening : Document.opening ⟨splitLines sql.toList⟩ = [alwaysLine []] :=
        if_neg (Bool.eq_false_iff.1 hwhere)
      rw [htext, hopening, List.append_assoc]
      rfl
  · have hmem : line ∈ splitLines sql.toList := by simp [hsplit]
    obtain ⟨new, hbound, -, hclause, -⟩ := htakes.boundLine hv (not_mem_of_mem_splitLines hmem)
    rw [hsplit] at hlines hfresh
    rw [Document.bind_of_boundLine
      (fun l hl => Variable.boundLine?_eq_none_iff.2 (hbefore l hl)) hbound] at hlines
    rw [hand] at hclause
    have hothers : IsFresh v (before ++ after) :=
      .append (hfresh.subset (List.subset_append_left _ _))
        (hfresh.subset fun l hl => List.mem_append_right _ (List.mem_cons_of_mem _ hl))
    have htext := congrArg String.ofList (hothers.unbind hclause hlines)
    rwa [String.ofList_toList] at htext

/-- A statement without a WHERE, and a block whose second filter the variable takes over. -/
theorem unbind_bind_small :
    unbind (bind "SELECT x\nFROM base\nLIMIT 5" (.named "y" .text)) (.named "y" .text) =
        "SELECT x\nFROM base\nWHERE 1 = 1\nLIMIT 5" ∧
      unbind (bind "WHERE x = 'b'\nAND y = 1" (.named "y" .text)) (.named "y" .text) =
        "WHERE x = 'b'" := by
  have hplain : ∀ {lines : List (List Char)}, (∀ line ∈ lines, '\x7b' ∉ line) →
      ∀ line ∈ lines, ClosesBraces line :=
    fun h line hline => Placeholder.closesBraces_of_not_mem (h line hline)
  have hblock : splitLines "WHERE x = 'b'\nAND y = 1".toList =
      ["WHERE x = 'b'".toList] ++ "AND y = 1".toList :: [] := by decide
  have htakes : (Variable.named "y" .text).Takes "AND y = 1".toList
      ⟨.and_, false, .equals ⟨"y".toList⟩ "1".toList⟩ ⟨"y".toList⟩ :=
    ⟨by decide +kernel, rfl, by decide, by decide⟩
  have hbefore : ∀ line ∈ ["WHERE x = 'b'".toList], ¬(Variable.named "y" .text).MayTake line := by
    have hclause : TextLine.clause? "WHERE x = 'b'".toList =
        some ⟨.where_, false, .equals ⟨"x".toList⟩ "'b'".toList⟩ := by decide +kernel
    rintro line hline ⟨c, column, h⟩
    obtain rfl := List.mem_singleton.1 hline
    obtain rfl := Option.some.inj (h.clause.symm.trans hclause)
    obtain rfl := Option.some.inj h.literal
    exact absurd h.target (by decide)
  constructor
  · have hlines : splitLines "SELECT x\nFROM base\nLIMIT 5".toList =
        ["SELECT x".toList, "FROM base".toList, "LIMIT 5".toList] := by decide
    have hclauses : ∀ line ∈ splitLines "SELECT x\nFROM base\nLIMIT 5".toList,
        TextLine.clause? line = none := by
      rw [hlines]
      decide +kernel
    have hnone : ∀ line ∈ splitLines "SELECT x\nFROM base\nLIMIT 5".toList,
        ¬(Variable.named "y" .text).MayTake line := by
      rintro line hline ⟨c, column, h⟩
      exact absurd (h.clause.symm.trans (hclauses line hline)) (by simp)
    have hclosed : ∀ line ∈ splitLines "SELECT x\nFROM base\nLIMIT 5".toList,
        ClosesBraces line := hplain (by rw [hlines]; decide)
    have hplace : (Document.ofText "SELECT x\nFROM base\nLIMIT 5".toList).tailStart = 2 := by
      decide +kernel
    have hwhere : (Document.ofText "SELECT x\nFROM base\nLIMIT 5".toList).hasTopLevelWhere 2 =
        false := by decide +kernel
    obtain ⟨place, hat, -, hadded⟩ := (unbind_bind "SELECT x\nFROM base\nLIMIT 5"
      (.named "y" .text) (by decide) hclosed (by decide +kernel) (by decide +kernel)).1 hnone
    rw [hplace] at hat
    subst hat
    rw [hadded hwhere, hlines]
    rfl
  · have hclosed : ∀ line ∈ splitLines "WHERE x = 'b'\nAND y = 1".toList,
        ClosesBraces line := hplain (by rw [hblock]; decide)
    exact (unbind_bind "WHERE x = 'b'\nAND y = 1" (.named "y" .text) (by decide) hclosed
      (by decide +kernel) (by decide +kernel)).2 _ _ _ _ _ hblock hbefore htakes rfl

end EventReport.Dashboard
