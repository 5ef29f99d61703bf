/-
# Blocks of filters

Filters stand in blocks, one on each line, and each block begins with a WHERE.  A
filter that the dashboard tool may drop stands in brackets; the WHERE never does.

## What is proved

`isAnchored_of_drops`: if every filter of a statement is reached from a WHERE
through filters, the same is so after the tool has dropped optional lines, whichever
they are.  The proof reads the lines from above and carries along whether a filter
may stand next (`Anchors`).
-/
import EventReport.Proofs.Dashboard.Filter

namespace EventReport.Dashboard

open Text

/-- Whether the dashboard tool may drop the line. -/
def isOptional (line : List Char) : Bool :=
  beginsWith "[[" line && "]]".toList.isSuffixOf (trimChars line)

/-- Optional lines are left out, any of them or none. -/
inductive Drops : List (List Char) → List (List Char) → Prop
  | nil : Drops [] []
  | keep (line : List Char) {ls ms : List (List Char)} : Drops ls ms → Drops (line :: ls) (line :: ms)
  | drop {line : List Char} {ls ms : List (List Char)} :
      isOptional line = true → Drops ls ms → Drops (line :: ls) ms

/-- The lines end with a block that a filter may be added to. -/
def IsOpen (ls : List (List Char)) : Prop :=
  ∃ front opening chain, ls = front ++ opening :: chain ∧ isWhere opening = true ∧
    ∀ line ∈ chain, isFilter line = true

/-- Every filter that goes on with others is reached from a WHERE through such filters. -/
def IsAnchored (ls : List (List Char)) : Prop :=
  ∀ before line after, ls = before ++ line :: after → isFilter line = true → IsOpen before

/-- Every filter is reached from a WHERE; `opened` says whether one may stand first. -/
def Anchors : (opened : Bool) → List (List Char) → Prop
  | _, [] => True
  | opened, line :: ls =>
    if isFilter line = true then opened = true ∧ Anchors true ls else Anchors (isWhere line) ls

namespace Anchors

variable {ls ms : List (List Char)}

theorem open_of_anchors {opened : Bool} {above : List (List Char)} (h : Anchors opened ls)
    (habove : opened = true → IsOpen above) {before after : List (List Char)} {line : List Char}
    (hls : ls = before ++ line :: after) (hline : isFilter line = true) :
    IsOpen (above ++ before) := by
  induction ls generalizing opened above before with
  | nil => simp at hls
  | cons first ls ih =>
    rw [Anchors] at h
    cases before with
    | nil =>
      obtain ⟨rfl, -⟩ := List.cons.inj hls
      rw [if_pos hline] at h
      rw [List.append_nil]
      exact habove h.1
    | cons second before =>
      obtain ⟨rfl, hrest⟩ := List.cons.inj hls
      rw [List.append_cons]
      split at h
      · next hfilter =>
        refine ih h.2 (fun _ => ?_) hrest
        obtain ⟨front, opening, chain, rfl, hopening, hchain⟩ := habove h.1
        refine ⟨front, opening, chain ++ [first], by simp, hopening, ?_⟩
        intro l hl
        rcases List.mem_append.1 hl with hl | hl
        · exact hchain l hl
        · obtain rfl := List.mem_singleton.1 hl
          exact hfilter
      · exact ih h (fun hwhere => ⟨above, first, [], rfl, hwhere, by simp⟩) hrest

theorem isAnchored (h : Anchors false ls) : IsAnchored ls := by
  intro before line after hls hline
  have hopen : IsOpen ([] ++ before) :=
    open_of_anchors h (fun hfalse => absurd hfalse (by decide)) hls hline
  exact hopen

theorem mono {opened : Bool} (h : Anchors false ls) : Anchors opened ls := by
  cases ls with
  | nil => trivial
  | cons line ls =>
    rw [Anchors] at h ⊢
    split at h
    · exact absurd h.1 (by decide)
    · next hfilter =>
      rw [if_neg hfilter]
      exact h

theorem drops {opened : Bool} (h : Anchors opened ls) (hdrops : Drops ls ms) :
    Anchors opened ms := by
  induction hdrops generalizing opened with
  | nil => exact h
  | keep line _ ih =>
    rw [Anchors] at h ⊢
    split at h
    · next hfilter =>
      rw [if_pos hfilter]
      exact ⟨h.1, ih h.2⟩
    · next hfilter =>
      rw [if_neg hfilter]
      exact ih h
  | @drop line ls ms hoptional _ ih =>
    -- what stands in brackets is not a WHERE
    have hwhere : isWhere line = false := by
      rw [isOptional, Bool.and_eq_true] at hoptional
      obtain ⟨rest, hrest⟩ := beginsWith_iff.1 hoptional.1
      rw [isWhere, beginsWith, hrest]
      rfl
    rw [Anchors] at h
    split at h
    · obtain ⟨rfl, h⟩ := h
      exact ih h
    · rw [hwhere] at h
      exact (ih h).mono

/-- Lines that are no filters may stand before any lines. -/
theorem append (h : ∀ line ∈ ls, isFilter line = false) (hms : Anchors false ms) {opened : Bool} :
    Anchors opened (ls ++ ms) := by
  induction ls generalizing opened with
  | nil => exact hms.mono
  | cons line ls ih =>
    have hline := h line List.mem_cons_self
    rw [List.cons_append, Anchors, if_neg (by simp [hline])]
    exact ih fun l hl => h l (List.mem_cons_of_mem line hl)

/-- A block: a WHERE and the filters that go on with it. -/
theorem block {opening : List Char} (hopening : isWhere opening = true)
    (hnone : isFilter opening = false) (h : ∀ line ∈ ls, isFilter line = true)
    (hms : Anchors false ms) {opened : Bool} : Anchors opened (opening :: (ls ++ ms)) := by
  have hfilters : Anchors true (ls ++ ms) := by
    induction ls with
    | nil => exact hms.mono
    | cons line ls ih =>
      rw [List.cons_append, Anchors, if_pos (h line List.mem_cons_self)]
      exact ⟨rfl, ih fun l hl => h l (List.mem_cons_of_mem line hl)⟩
  rw [Anchors, if_neg (by simp [hnone]), hopening]
  exact hfilters

end Anchors

/-- Dropping optional lines leaves every filter anchored. -/
theorem isAnchored_of_drops {ls ms : List (List Char)} (h : Anchors false ls)
    (hdrops : Drops ls ms) : IsAnchored ms := (h.drops hdrops).isAnchored

end EventReport.Dashboard
