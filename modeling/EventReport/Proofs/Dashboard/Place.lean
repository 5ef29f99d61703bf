/-
# The place of a filter that is added

The search for the place reads the lines from above: the place is before the first
clause that comes after filters, or else before the void lines at the end; and a WHERE
is wanted if the statement that the lines before the place end in has none.

## What is proved

The search finds the same place again after it has put a filter there: the next one
comes right behind, and no second WHERE before it (`EndsFilters.add`, `hasWhere_add`).
And it does not see the difference when a line that it passes over gives way to
another such line (`EndsFilters.replace_front`, `EndsFilters.replace_back`,
`hasWhere_replace`).
-/
import EventReport.Proofs.Dashboard.Edit

namespace EventReport.Dashboard

open Text

/-! ## The statement that the lines end in -/

/-- Whether a WHERE has been found, after one more line: a SELECT begins a statement anew. -/
def findsWhere (found : Bool) (line : List Char) : Bool :=
  !TextLine.startsTopLevel ["SELECT"] line && (found || TextLine.startsTopLevel ["WHERE"] line)

/-- Whether the statement that the lines end in has a WHERE. -/
def hasWhere (lines : List (List Char)) : Bool := lines.foldl findsWhere false

theorem startsWhere_of_startsSelect {line : List Char}
    (h : TextLine.startsTopLevel ["SELECT"] line = true) :
    TextLine.startsTopLevel ["WHERE"] line = false := by
  have hword : ∀ word, sameCaseless word "SELECT".toList = true →
      sameCaseless word "WHERE".toList = false := by
    intro word hselect
    rw [sameCaseless, beq_iff_eq] at hselect
    rw [sameCaseless, hselect]
    decide
  unfold TextLine.startsTopLevel at h ⊢
  cases hwords : words line with
  | nil => simp [TextLine.beginWith]
  | cons word ws =>
    rw [hwords] at h
    simp only [TextLine.beginWith, Bool.and_true, Bool.and_eq_true] at h ⊢
    rw [hword word h.2, Bool.and_false]

namespace Document

theorem fromLastSelect_concat (lines : List (List Char)) (line : List Char) :
    fromLastSelect (lines ++ [line]) =
      if TextLine.startsTopLevel ["SELECT"] line then [line] else fromLastSelect lines ++ [line] := by
  split
  · next hselect => exact fromLastSelect_append hselect (by simp)
  · next hselect =>
    have hlength := (List.takeWhile_sublist
      (fun l => !TextLine.startsTopLevel ["SELECT"] l) (l := lines.reverse)).length_le
    rw [List.length_reverse] at hlength
    have htake : (lines ++ [line]).reverse.takeWhile
        (fun l => !TextLine.startsTopLevel ["SELECT"] l) =
        line :: lines.reverse.takeWhile fun l => !TextLine.startsTopLevel ["SELECT"] l := by
      rw [List.reverse_append, List.reverse_singleton, List.singleton_append,
        List.takeWhile_cons_of_pos (by simpa using hselect)]
    rw [fromLastSelect, htake, fromLastSelect, List.length_cons, List.length_append,
      List.length_singleton, Nat.add_sub_add_right, List.drop_append_of_le_length (by omega)]

/-- The search for a WHERE, as a search from above. -/
theorem hasTopLevelWhere_eq (d : Document) (stop : Nat) :
    d.hasTopLevelWhere stop = hasWhere (d.lines.take stop) := by
  have hlines : ∀ lines, (fromLastSelect lines).any (TextLine.startsTopLevel ["WHERE"]) =
      hasWhere lines := by
    intro lines
    induction lines using List.reverseRecOn with
    | nil => rfl
    | append_singleton lines line ih =>
      rw [fromLastSelect_concat, hasWhere, List.foldl_append, List.foldl_cons, List.foldl_nil]
      show _ = findsWhere (hasWhere lines) line
      rw [← ih, findsWhere]
      split
      · next hselect => simp [hselect, startsWhere_of_startsSelect hselect]
      · next hselect => simp [hselect]
  exact hlines _

end Document

/-! ## Lines that are passed over -/

/-- The line is not void, and it begins no clause that the search looks for. -/
structure IsPassed (line : List Char) : Prop where
  startsTail : TextLine.startsTail line = false
  startsSelect : TextLine.startsTopLevel ["SELECT"] line = false
  startsWhere : TextLine.startsTopLevel ["WHERE"] line = false
  isVoid : TextLine.isVoid line = false

theorem mem_trimChars {c : Char} {cs : List Char} (hc : isBlank c = false) (h : c ∈ cs) :
    c ∈ trimChars cs := by
  have hdrop : ∀ {ds : List Char}, c ∈ ds → c ∈ ds.dropWhile isBlank := by
    intro ds hds
    rw [← List.takeWhile_append_dropWhile (p := isBlank) (l := ds)] at hds
    refine (List.mem_append.1 hds).resolve_left fun htake => ?_
    rw [List.mem_takeWhile_imp htake] at hc
    cases hc
  exact List.mem_reverse.2 (hdrop (List.mem_reverse.2 (hdrop h)))

theorem IsInnerFilter.isPassed {line : List Char} (h : IsInnerFilter line) : IsPassed line where
  startsTail := startsTail_of_isIndented h.isIndented
  startsSelect := startsTopLevel_of_isIndented h.isIndented _
  startsWhere := startsTopLevel_of_isIndented h.isIndented _
  isVoid := by
    obtain ⟨optional, rest, hline⟩ := h.exists_eq
    have hmem : 'A' ∈ line := by
      rw [hline]
      cases optional <;> simp [opener]
    have htrim : 'A' ∈ trimChars line := mem_trimChars (by decide) hmem
    rw [TextLine.isVoid, Bool.or_eq_false_iff, beq_eq_false_iff_ne, beq_eq_false_iff_ne]
    refine ⟨fun hvoid => ?_, fun hvoid => ?_⟩
    · rw [hvoid] at htrim
      cases htrim
    · rw [hvoid] at htrim
      exact absurd htrim (by decide)

theorem findsWhere_of_isPassed {line : List Char} (h : IsPassed line) (found : Bool) :
    findsWhere found line = found := by
  rw [findsWhere, h.startsSelect, h.startsWhere, Bool.or_false]
  rfl

theorem hasWhere_replace {line new : List Char} (hline : IsPassed line) (hnew : IsPassed new)
    (before after : List (List Char)) :
    hasWhere (before ++ new :: after) = hasWhere (before ++ line :: after) := by
  simp only [hasWhere, List.foldl_append, List.foldl_cons, findsWhere_of_isPassed hline,
    findsWhere_of_isPassed hnew]

/-! ## The place -/

/-- The filters of the outermost statement end between the two runs of lines: the second begins with
a clause that comes after filters, or it is what is left of the text but void lines. -/
structure EndsFilters (front back : List (List Char)) : Prop where
  notTail : ∀ line ∈ front, TextLine.startsTail line = false
  ends : (∃ line rest, back = line :: rest ∧ TextLine.startsTail line = true) ∨
    (∀ line ∈ back, TextLine.startsTail line = false ∧ TextLine.isVoid line = true) ∧
      ∀ line ∈ front.getLast?, TextLine.isVoid line = false

/-- The condition that always holds, where the lines before the place need one. -/
def openingAfter (front : List (List Char)) : List (List Char) :=
  if hasWhere front then [] else [alwaysLine []]

theorem mem_openingAfter {front : List (List Char)} {line : List Char}
    (h : line ∈ openingAfter front) : line = alwaysLine [] := by
  rw [openingAfter] at h
  split at h
  · cases h
  · exact List.mem_singleton.1 h

/-- Every text has such a place. -/
theorem EndsFilters.exists_eq_append (lines : List (List Char)) :
    ∃ front back, lines = front ++ back ∧ EndsFilters front back := by
  cases htail : lines.dropWhile (!TextLine.startsTail ·) with
  | cons line rest =>
    refine ⟨lines.takeWhile (!TextLine.startsTail ·), line :: rest, ?_, fun l hl => ?_,
      .inl ⟨line, rest, rfl, ?_⟩⟩
    · rw [← htail, List.takeWhile_append_dropWhile]
    · simpa using List.mem_takeWhile_imp hl
    · have hhead := List.head?_dropWhile_not (!TextLine.startsTail ·) lines
      rw [htail] at hhead
      simpa using hhead
  | nil =>
    have hlines : ∀ line ∈ lines, TextLine.startsTail line = false := by
      intro line hline
      simpa using List.dropWhile_eq_nil_iff.1 htail line hline
    refine ⟨(lines.reverse.dropWhile TextLine.isVoid).reverse,
      (lines.reverse.takeWhile TextLine.isVoid).reverse, ?_, fun l hl => ?_,
      .inr ⟨fun l hl => ⟨?_, ?_⟩, fun l hl => ?_⟩⟩
    · rw [← List.reverse_append, List.takeWhile_append_dropWhile, List.reverse_reverse]
    · exact hlines l (List.mem_reverse.1 ((List.dropWhile_sublist _).subset (List.mem_reverse.1 hl)))
    · exact hlines l (List.mem_reverse.1 ((List.takeWhile_sublist _).subset (List.mem_reverse.1 hl)))
    · exact List.mem_takeWhile_imp (List.mem_reverse.1 hl)
    · rw [List.getLast?_reverse] at hl
      have hhead := List.head?_dropWhile_not TextLine.isVoid lines.reverse
      rw [hl] at hhead
      simpa using hhead

namespace EndsFilters

variable {front back : List (List Char)}

/-- The search ends at such a place. -/
theorem tailStart (h : EndsFilters front back) :
    Document.tailStart ⟨front ++ back⟩ = front.length := by
  rw [Document.tailStart]
  rcases h.ends with ⟨line, rest, rfl, hline⟩ | ⟨hback, hlast⟩
  · rw [findIdx?_of_append rest h.notTail hline]
  · have hnone : (front ++ back).findIdx? TextLine.startsTail = none :=
      List.findIdx?_eq_none_iff.2
        (Regions.forall_append h.notTail fun line hline => (hback line hline).1)
    have hfront : front.reverse.takeWhile TextLine.isVoid = [] := by
      rw [← List.head?_reverse] at hlast
      cases hrev : front.reverse with
      | nil => rfl
      | cons line rest =>
        rw [hrev] at hlast
        exact List.takeWhile_cons_of_neg (by simp [hlast line rfl])
    have hvoid : (front ++ back).reverse.takeWhile TextLine.isVoid = back.reverse := by
      rw [List.reverse_append, List.takeWhile_append_of_pos fun line hline =>
        (hback line (List.mem_reverse.1 hline)).2, hfront, List.append_nil]
    rw [hnone]
    dsimp only
    rw [hvoid, List.length_append, List.length_reverse, Nat.add_sub_cancel]

/-- The place is behind a given line, or before it. -/
theorem exists_around (before after : List (List Char)) (line : List Char) :
    ∃ front back, EndsFilters front back ∧
      ((∃ ls, front = before ++ line :: ls ∧ after = ls ++ back) ∨
        ∃ ls, before = front ++ ls ∧ back = ls ++ line :: after) := by
  obtain ⟨front, back, heq, hends⟩ := exists_eq_append (before ++ line :: after)
  refine ⟨front, back, hends, ?_⟩
  rcases List.append_eq_append_iff.1 heq with ⟨ls, rfl, hls⟩ | ⟨ls, hbefore, hback⟩
  · cases ls with
    | nil => exact .inr ⟨[], by simp, by simpa using hls.symm⟩
    | cons l ls =>
      obtain ⟨rfl, hafter⟩ := List.cons.inj hls
      exact .inl ⟨ls, rfl, hafter⟩
  · exact .inr ⟨ls, hbefore, hback⟩

/-- The filter is put in at the place, behind a WHERE. -/
theorem lines_addFilter (h : EndsFilters front back) (v : Variable) :
    (Document.addFilter ⟨front ++ back⟩ v).lines =
      front ++ openingAfter front ++ v.addedLine :: back := by
  rw [Document.lines_addFilter, Document.opening, Document.hasTopLevelWhere_eq, h.tailStart]
  dsimp only
  rw [List.take_left, List.drop_left, openingAfter]

/-- Lines that begin no such clause and do not end in a void line may come before the place. -/
theorem append {ls : List (List Char)} (h : EndsFilters front back)
    (hls : ∀ line ∈ ls, TextLine.startsTail line = false)
    (hlast : ∀ line ∈ ls.getLast?, TextLine.isVoid line = false) : EndsFilters (front ++ ls) back := by
  refine ⟨Regions.forall_append h.notTail hls, h.ends.imp id fun ⟨hback, hfront⟩ => ⟨hback, ?_⟩⟩
  intro line hline
  rw [List.getLast?_append] at hline
  rcases Option.or_eq_some_iff.1 hline with hline | ⟨-, hline⟩
  · exact hlast line hline
  · exact hfront line hline

/-- After a filter has been put in, the place is right behind it. -/
theorem add (h : EndsFilters front back) {line : List Char} (hline : IsPassed line) :
    EndsFilters (front ++ openingAfter front ++ [line]) back := by
  rw [List.append_assoc]
  refine h.append (Regions.forall_append (fun l hl => ?_) fun l hl => ?_) fun l hl => ?_
  · rw [mem_openingAfter hl]
    rfl
  · rw [List.mem_singleton.1 hl]
    exact hline.startsTail
  · rw [List.getLast?_concat] at hl
    rw [← Option.some.inj hl]
    exact hline.isVoid

theorem replace_front {before after : List (List Char)} {line new : List Char}
    (h : EndsFilters (before ++ line :: after) back) (hnew : IsPassed new) :
    EndsFilters (before ++ new :: after) back := by
  have hbefore : ∀ l ∈ before, TextLine.startsTail l = false :=
    fun l hl => h.notTail l (List.mem_append_left _ hl)
  have hafter : ∀ l ∈ after, TextLine.startsTail l = false :=
    fun l hl => h.notTail l (List.mem_append_right _ (List.mem_cons_of_mem _ hl))
  refine ⟨Regions.forall_append hbefore (List.forall_mem_cons.2 ⟨hnew.startsTail, hafter⟩),
    h.ends.imp id fun ⟨hback, hlast⟩ => ⟨hback, fun l hl => ?_⟩⟩
  rw [List.getLast?_append, List.getLast?_cons, Option.some_or] at hl hlast
  cases hend : after.getLast? with
  | none =>
    rw [hend] at hl
    obtain rfl : new = l := Option.some.inj hl
    exact hnew.isVoid
  | some m =>
    rw [hend] at hl hlast
    exact hlast l hl

theorem replace_back {before after : List (List Char)} {line : List Char}
    (h : EndsFilters front (before ++ line :: after)) (hline : IsPassed line) (new : List Char) :
    EndsFilters front (before ++ new :: after) := by
  refine ⟨h.notTail, ?_⟩
  rcases h.ends with ⟨first, rest, heq, hfirst⟩ | ⟨hback, -⟩
  · cases before with
    | nil =>
      obtain rfl := (List.cons.inj heq).1
      rw [hline.startsTail] at hfirst
      cases hfirst
    | cons l before =>
      obtain rfl := (List.cons.inj heq).1
      exact .inl ⟨l, _, rfl, hfirst⟩
  · have hvoid := (hback line (List.mem_append_right _ List.mem_cons_self)).2
    rw [hline.isVoid] at hvoid
    cases hvoid

end EndsFilters

theorem openingAfter_replace {line new : List Char} (hline : IsPassed line) (hnew : IsPassed new)
    (before after : List (List Char)) :
    openingAfter (before ++ new :: after) = openingAfter (before ++ line :: after) := by
  rw [openingAfter, openingAfter, hasWhere_replace hline hnew]

/-- After a filter has been put in, the statement has a WHERE. -/
theorem hasWhere_add (front : List (List Char)) {line : List Char} (hline : IsPassed line) :
    hasWhere (front ++ openingAfter front ++ [line]) = true := by
  have hopening : (openingAfter front).foldl findsWhere (hasWhere front) = true := by
    rw [openingAfter]
    split
    · next hfound => exact hfound
    · next hnone =>
      rw [Bool.eq_false_of_not_eq_true hnone]
      decide
  rw [hasWhere, List.foldl_append, List.foldl_append, List.foldl_cons, List.foldl_nil,
    findsWhere_of_isPassed hline]
  exact hopening

theorem openingAfter_add (front : List (List Char)) {line : List Char} (hline : IsPassed line) :
    openingAfter (front ++ openingAfter front ++ [line]) = [] :=
  if_pos (hasWhere_add front hline)

end EventReport.Dashboard
