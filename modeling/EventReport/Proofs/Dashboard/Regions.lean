/-
# The regions of a statement under binding and unbinding

A statement of a report has a line with the condition on the website, and around it
five regions: the opening of the base statement; the filters after the condition;
the outer select list with its joins; the filters of the outer statement; and the
clauses after these, of which there is at least one.

## What is proved

The regions are an invariant of all that a dashboard does to a statement (`Sound`).
What a line must satisfy depends on its region, and it is stated so that replacing a
placeholder in the line cannot change it: the filters are known by their first
word, and every other property is firm.  Two steps change lines one by one, which
is one lemma (`Sound.of_forall₂`); taking out a variable leaves out filters
(`Sound.filter`); and a filter is added where the fourth region ends
(`Sound.addFilter`), which the search for its place must find again.
-/
import EventReport.Proofs.Dashboard.Block

namespace EventReport.Dashboard

open Text

/-! ## The kinds of lines -/

/-- The line that the base statement begins with. -/
def openingLine : List Char := "WITH base AS (".toList

/-- A line of the base statement before its filters. -/
structure IsOpening (line : List Char) : Prop where
  isInert : isInert line = true
  isIndented : isIndented line = true

/-- A line between the two blocks of filters. -/
structure IsSelect (line : List Char) : Prop where
  isQuiet : IsQuiet line
  startsTail : TextLine.startsTail line = false
  startsWhere : TextLine.startsTopLevel ["WHERE"] line = false

/-- The line that the outermost statement begins with. -/
structure OpensSelect (line : List Char) : Prop where
  isQuiet : IsQuiet line
  startsSelect : TextLine.startsTopLevel ["SELECT"] line = true

/-- The line that the filters of the outermost statement begin with. -/
structure OpensOuter (line : List Char) : Prop where
  isQuiet : IsQuiet line
  isWhere : isWhere line = true
  startsTail : TextLine.startsTail line = false
  startsSelect : TextLine.startsTopLevel ["SELECT"] line = false
  startsWhere : TextLine.startsTopLevel ["WHERE"] line = true

/-- The line that the clauses after the filters begin with. -/
structure OpensTail (line : List Char) : Prop where
  isInert : isInert line = true
  startsTail : TextLine.startsTail line = true

/-- The line with the condition on the website. -/
structure IsScope (line : List Char) : Prop where
  isQuiet : IsQuiet line
  isWhere : isWhere line = true
  isIndented : isIndented line = true

/-- A neat line with a property that replacing placeholders in it does not change. -/
structure Settled (Q : List Char → Prop) (line : List Char) : Prop where
  isNeat : isNeat line = true
  firm : Firm Q line

/-- A neat filter. -/
structure IsNeatFilter (line : List Char) : Prop where
  isNeat : isNeat line = true
  isInner : IsInnerFilter line

theorem startsTopLevel_of_isIndented {line : List Char} (h : isIndented line = true)
    (keywords : List String) : TextLine.startsTopLevel keywords line = false := by
  rw [TextLine.startsTopLevel, isIndented] at *
  rw [h]
  rfl

theorem startsTail_of_isIndented {line : List Char} (h : isIndented line = true) :
    TextLine.startsTail line = false := by
  rw [TextLine.startsTail, startsTopLevel_of_isIndented h, startsTopLevel_of_isIndented h,
    startsTopLevel_of_isIndented h]
  rfl

theorem IsOpening.isQuiet {line : List Char} (h : IsOpening line) : IsQuiet line :=
  .of_isInert h.isInert

theorem OpensTail.isQuiet {line : List Char} (h : OpensTail line) : IsQuiet line :=
  .of_isInert h.isInert

/-! ## The regions -/

structure Regions where
  opening : List (List Char)
  scope : List Char
  filters : List (List Char)
  select : List (List Char)
  outer : List (List Char)
  tail : List (List Char)

/-- The filters of the outermost statement, if there are any. -/
inductive IsOuterBlock : List (List Char) → Prop
  | nil : IsOuterBlock []
  | block {opening : List Char} {ls : List (List Char)} :
      Settled OpensOuter opening → (∀ line ∈ ls, IsNeatFilter line) → IsOuterBlock (opening :: ls)

/-- The clauses after the filters. -/
inductive IsTail : List (List Char) → Prop
  | intro {opening : List Char} {ls : List (List Char)} :
      Settled OpensTail opening → (∀ line ∈ ls, Settled (isInert · = true) line) →
      IsTail (opening :: ls)

namespace Regions

/-- The lines before the clauses that stand after the filters. -/
def front (s : Regions) : List (List Char) :=
  openingLine :: (s.opening ++ s.scope :: (s.filters ++ (s.select ++ s.outer)))

def lines (s : Regions) : List (List Char) := s.front ++ s.tail

/-- Each line is as its region has it. -/
structure Sound (s : Regions) : Prop where
  opening : ∀ line ∈ s.opening, Settled IsOpening line
  scope : Settled IsScope s.scope
  filters : ∀ line ∈ s.filters, IsNeatFilter line
  select : ∀ line ∈ s.select, Settled IsSelect line
  select_opens : ∃ line ∈ s.select, Settled OpensSelect line
  outer : IsOuterBlock s.outer
  tail : IsTail s.tail

/-- No placeholder of a variable occurs in the condition on the website. -/
def IsClear (s : Regions) : Prop :=
  ∀ name : String, isIdentifier name = true → Placeholder.occurs name.toList s.scope = false

/-- The condition on the website stands where it stood, and it is the same one if no placeholder
occurs in it. -/
structure Follows (s t : Regions) : Prop where
  place : t.opening.length = s.opening.length
  scope : s.IsClear → t.scope = s.scope

namespace Follows

variable {s t u : Regions}

theorem refl (s : Regions) : s.Follows s := ⟨rfl, fun _ => rfl⟩

theorem trans (h : s.Follows t) (h' : t.Follows u) : s.Follows u := by
  refine ⟨h'.place.trans h.place, fun hclear => ?_⟩
  have hscope := h.scope hclear
  rw [h'.scope, hscope]
  rw [IsClear, hscope]
  exact hclear

end Follows

end Regions

theorem settled_openingLine : Settled (· = openingLine) openingLine :=
  ⟨by decide, .of_not_mem (by decide) rfl⟩

theorem isInert_openingLine : isInert openingLine = true := by decide

/-! ## What a step must keep -/

/-- Replaces lines by lines of the same kind. -/
structure Keeps (R : List Char → List Char → Prop) : Prop where
  settled : ∀ {Q : List Char → Prop} {line new : List Char}, (∀ l, Q l → IsQuiet l) →
    Settled Q line → R line new → Settled Q new
  filter : ∀ {line new : List Char}, IsNeatFilter line → R line new → IsNeatFilter new

theorem keeps_revised {name r : List Char} (hr : isNeat r = true) (hcloser : r.any isCloser = true) :
    Keeps (Revised name r) where
  settled := by
    intro Q line new _ h hrevised
    exact ⟨isNeat_of_patched hr hcloser hrevised.patched h.isNeat, h.firm.patched hrevised.patched⟩
  filter := by
    intro line new h hrevised
    exact ⟨isNeat_of_patched hr hcloser hrevised.patched h.isNeat,
      h.isInner.patched hrevised.patched⟩

/-- The line is bound, or nothing happens to it. -/
def MayBind (v : Variable) (line new : List Char) : Prop :=
  new = line ∨ v.boundLine? line = some new

theorem eq_of_mayBind {v : Variable} {line new : List Char} (hneat : isNeat line = true)
    (hquiet : IsQuiet line) (h : MayBind v line new) : new = line := by
  rcases h with rfl | h
  · rfl
  · rw [hquiet.boundLine? hneat] at h
    cases h

theorem keeps_mayBind {v : Variable} (hv : isIdentifier v.name = true) : Keeps (MayBind v) where
  settled := by
    intro Q line new hQ h hbind
    obtain rfl := eq_of_mayBind h.isNeat (hQ line h.firm.holds) hbind
    exact h
  filter := by
    rintro line new h (rfl | hbind)
    · exact h
    · have hbound := isFilter_boundLine hv h.isInner h.isNeat hbind
      exact ⟨hbound.2, hbound.1⟩

theorem forall₂_append_left {α β : Type} {R : α → β → Prop} {xs ys : List α} {zs : List β}
    (h : List.Forall₂ R (xs ++ ys) zs) :
    ∃ xs' ys', zs = xs' ++ ys' ∧ List.Forall₂ R xs xs' ∧ List.Forall₂ R ys ys' := by
  induction xs generalizing zs with
  | nil => exact ⟨[], zs, rfl, .nil, h⟩
  | cons x xs ih =>
    cases h with
    | cons hx hrest =>
      obtain ⟨xs', ys', rfl, hxs, hys⟩ := ih hrest
      exact ⟨_ :: xs', ys', rfl, .cons hx hxs, hys⟩

theorem forall_of_forall₂ {α : Type} {R : α → α → Prop} {P : α → Prop}
    (hP : ∀ x y, P x → R x y → P y) {xs ys : List α} (h : List.Forall₂ R xs ys)
    (hxs : ∀ x ∈ xs, P x) : ∀ y ∈ ys, P y := by
  induction h with
  | nil => exact hxs
  | @cons x y xs ys hxy _ ih =>
    intro z hz
    rcases List.mem_cons.1 hz with rfl | hz
    · exact hP _ _ (hxs x List.mem_cons_self) hxy
    · exact ih (fun w hw => hxs w (List.mem_cons_of_mem x hw)) z hz

theorem exists_of_forall₂ {α : Type} {R : α → α → Prop} {P : α → Prop}
    (hP : ∀ x y, P x → R x y → P y) {xs ys : List α} (h : List.Forall₂ R xs ys)
    (hxs : ∃ x ∈ xs, P x) : ∃ y ∈ ys, P y := by
  induction h with
  | nil => exact hxs
  | @cons x y xs ys hxy _ ih =>
    obtain ⟨z, hz, hPz⟩ := hxs
    rcases List.mem_cons.1 hz with rfl | hz
    · exact ⟨y, List.mem_cons_self, hP _ _ hPz hxy⟩
    · obtain ⟨w, hw, hPw⟩ := ih ⟨z, hz, hPz⟩
      exact ⟨w, List.mem_cons_of_mem y hw, hPw⟩

namespace Keeps

variable {R : List Char → List Char → Prop} {ls ms : List (List Char)}

theorem outer (hR : Keeps R) (h : IsOuterBlock ls) (hrel : List.Forall₂ R ls ms) :
    IsOuterBlock ms := by
  cases h with
  | nil =>
    cases hrel
    exact .nil
  | block hopening hls =>
    cases hrel with
    | cons hnew hrest =>
      exact .block (hR.settled (fun _ => OpensOuter.isQuiet) hopening hnew)
        (forall_of_forall₂ (P := IsNeatFilter) (fun _ _ => hR.filter) hrest hls)

theorem tail (hR : Keeps R) (h : IsTail ls) (hrel : List.Forall₂ R ls ms) : IsTail ms := by
  cases h with
  | intro hopening hls =>
    cases hrel with
    | cons hnew hrest =>
      exact .intro (hR.settled (fun _ => OpensTail.isQuiet) hopening hnew)
        (forall_of_forall₂ (P := Settled (isInert · = true))
          (fun _ _ => hR.settled fun _ => IsQuiet.of_isInert) hrest hls)

end Keeps

namespace Regions

variable {s : Regions}

theorem forall_append {α : Type} {P : α → Prop} {xs ys : List α} (hx : ∀ x ∈ xs, P x)
    (hy : ∀ y ∈ ys, P y) : ∀ z ∈ xs ++ ys, P z := by
  intro z hz
  rcases List.mem_append.1 hz with hz | hz
  · exact hx z hz
  · exact hy z hz

namespace Sound

/-- Lines that are replaced by lines of their kind leave the regions sound, and the condition on the
website at its place. -/
theorem of_forall₂ (h : s.Sound) {R : List Char → List Char → Prop} (hR : Keeps R)
    (hscope : s.IsClear → ∀ new, R s.scope new → new = s.scope) {ls : List (List Char)}
    (hrel : List.Forall₂ R s.lines ls) :
    ∃ t : Regions, ls = t.lines ∧ t.Sound ∧ s.Follows t := by
  have hopeningLine : ∀ {new}, R openingLine new → new = openingLine := by
    intro new hnew
    refine (hR.settled (fun l hl => ?_) settled_openingLine hnew).firm.holds
    rw [hl]
    exact .of_isInert isInert_openingLine
  obtain ⟨fs, tail, rfl, hfront, htail⟩ := forall₂_append_left hrel
  obtain ⟨first, _, hfirst, hbase, rfl⟩ := List.forall₂_cons_left_iff.1 hfront
  obtain ⟨opening, _, rfl, hopening, hscoped⟩ := forall₂_append_left hbase
  obtain ⟨new, _, hnew, hrest, rfl⟩ := List.forall₂_cons_left_iff.1 hscoped
  obtain ⟨filters, _, rfl, hfilters, hstatement⟩ := forall₂_append_left hrest
  obtain ⟨select, outer, rfl, hselect, houter⟩ := forall₂_append_left hstatement
  obtain rfl := hopeningLine hfirst
  refine ⟨⟨opening, new, filters, select, outer, tail⟩, rfl, ?_,
    hopening.length_eq.symm, fun hclear => hscope hclear new hnew⟩
  exact {
    opening := forall_of_forall₂ (P := Settled IsOpening)
      (fun _ _ => hR.settled fun _ => IsOpening.isQuiet) hopening h.opening
    scope := hR.settled (fun _ => IsScope.isQuiet) h.scope hnew
    filters := forall_of_forall₂ (P := IsNeatFilter) (fun _ _ => hR.filter) hfilters h.filters
    select := forall_of_forall₂ (P := Settled IsSelect)
      (fun _ _ => hR.settled fun _ => IsSelect.isQuiet) hselect h.select
    select_opens := exists_of_forall₂ (P := Settled OpensSelect)
      (fun _ _ => hR.settled fun _ => OpensSelect.isQuiet) hselect h.select_opens
    outer := hR.outer h.outer houter
    tail := hR.tail h.tail htail }

/-! ## What holds of all lines -/

/-- Every line is quiet or a filter. -/
theorem forall_lines (h : s.Sound) :
    ∀ line ∈ s.lines, isNeat line = true ∧ (IsQuiet line ∨ IsInnerFilter line) := by
  have hquiet : ∀ {Q : List Char → Prop} {ls : List (List Char)}, (∀ l, Q l → IsQuiet l) →
      (∀ l ∈ ls, Settled Q l) → ∀ l ∈ ls, isNeat l = true ∧ (IsQuiet l ∨ IsInnerFilter l) :=
    fun hQ hls l hl => ⟨(hls l hl).isNeat, .inl (hQ l (hls l hl).firm.holds)⟩
  have hfilter : ∀ {ls : List (List Char)}, (∀ l ∈ ls, IsNeatFilter l) →
      ∀ l ∈ ls, isNeat l = true ∧ (IsQuiet l ∨ IsInnerFilter l) :=
    fun hls l hl => ⟨(hls l hl).isNeat, .inr (hls l hl).isInner⟩
  have hone : ∀ {l : List Char} {ls : List (List Char)}, isNeat l = true → IsQuiet l →
      (∀ m ∈ ls, isNeat m = true ∧ (IsQuiet m ∨ IsInnerFilter m)) →
      ∀ m ∈ l :: ls, isNeat m = true ∧ (IsQuiet m ∨ IsInnerFilter m) := by
    intro l ls hl hq hls m hm
    rcases List.mem_cons.1 hm with rfl | hm
    · exact ⟨hl, .inl hq⟩
    · exact hls m hm
  have houter : ∀ l ∈ s.outer, isNeat l = true ∧ (IsQuiet l ∨ IsInnerFilter l) := by
    have hblock := h.outer
    generalize s.outer = ls at hblock
    cases hblock with
    | nil => exact fun l hl => absurd hl (List.not_mem_nil)
    | block hopening hls =>
      exact hone hopening.isNeat hopening.firm.holds.isQuiet (hfilter hls)
  have htail : ∀ l ∈ s.tail, isNeat l = true ∧ (IsQuiet l ∨ IsInnerFilter l) := by
    have hclauses := h.tail
    generalize s.tail = ls at hclauses
    cases hclauses with
    | intro hopening hls =>
      exact hone hopening.isNeat hopening.firm.holds.isQuiet
        (hquiet (fun _ => IsQuiet.of_isInert) hls)
  refine forall_append (hone (by decide) (.of_isInert isInert_openingLine) ?_) htail
  refine forall_append (hquiet (fun _ => IsOpening.isQuiet) h.opening) ?_
  refine hone h.scope.isNeat h.scope.firm.holds.isQuiet ?_
  refine forall_append (hfilter h.filters) ?_
  exact forall_append (hquiet (fun _ => IsSelect.isQuiet) h.select) houter

end Sound

end Regions

end EventReport.Dashboard
