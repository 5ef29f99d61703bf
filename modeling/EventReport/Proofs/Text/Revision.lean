/-
# Placeholders replaced, line by line

A placeholder may begin on one line and end on a later one; what is between its
braces then holds a mark that stands in no name, provided that the line where it
begins is neat.  So such a placeholder is never replaced, and all it does is to
hide the beginning of the line where it ends.

## What is proved

`replaceFrom_joinLines`: in a text of neat lines, to replace a placeholder is to revise
each line by itself.  A revised line is the old one with some of its placeholders
replaced, and it is the old one if the placeholder does not occur in it.

`Firm` is how the rest of the library speaks of what revising cannot change: a
property that the text before the first opening brace settles.
-/
import EventReport.Proofs.Text.Resumption

namespace EventReport.Text

open Placeholder

/-! ## One line -/

theorem isMark_of_isCloser {c : Char} (h : isCloser c = true) : isMark c = true := by
  simp only [isCloser, Bool.or_eq_true, beq_iff_eq] at h
  rcases h with (rfl | rfl) | rfl <;> decide

theorem isShut_of_append {as bs : List Char} (h : isShut (as ++ bs) = true) : isShut bs = true := by
  induction as with
  | nil => exact h
  | cons a as ih =>
    rw [List.cons_append, isShut, Bool.and_eq_true] at h
    exact ih h.2

namespace Placeholder

/-- From a neat line no placeholder reaches into the text after it. -/
theorem noneAcross_of_isShut {name line : List Char} (hname : isIdentifierChars name = true)
    (h : isShut line = true) (rest : List Char) : NoneAcross name line rest := by
  intro before inner inner' after hline _ htrim
  have hshut : isShut ((before ++ ['\x7b']) ++ '\x7b' :: inner) = true := by
    rw [hline] at h
    simpa using h
  have hinner := isShut_of_append hshut
  simp only [isShut, Bool.and_eq_true] at hinner
  obtain ⟨c, hc, hcloser⟩ := List.any_eq_true.1 (show inner.any isCloser = true by
    simpa using hinner.1)
  exact not_isPadded_of_mem (isMark_of_isCloser hcloser) (List.mem_append_left inner' hc)
    (isPadded_of_trimChars hname htrim)

/-- Up to the end of a neat line, replacing goes on as if the line were the whole text. -/
theorem replaceFrom_line {name line : List Char} (hname : isIdentifierChars name = true)
    (h : isShut line = true) (r rest : List Char) (inside : Bool) :
    replaceFrom inside name r (line ++ '\n' :: rest) =
      replaceFrom inside name r line ++
        '\n' :: replaceFrom (endsInside inside line) name r rest := by
  rw [replaceFrom_append (separate_cons (by decide) (by decide) line rest)
    (noneAcross_of_isShut hname h _), replaceFrom_cons (by decide) (by decide)]

end Placeholder

/-! ## All lines -/

/-- What replacing makes of one line of a text. -/
structure Revised (name r line revised : List Char) : Prop where
  patched : Patched r line revised
  eq_of_not_occurs : occurs name line = false → revised = line

section Lines

variable {name r : List Char}

theorem revised_replaceFrom (inside : Bool) (line : List Char) :
    Revised name r line (replaceFrom inside name r line) := by
  refine ⟨?_, fun hnone => replaceFrom_eq_self hnone inside⟩
  cases inside with
  | false => exact patched_replace name r line
  | true =>
    show Patched r line (replaceAfterClose name r line)
    cases hs : splitAtClose? line with
    | none =>
      rw [replaceAfterClose_none hs]
      exact .refl line
    | some ia =>
      obtain ⟨inner, after⟩ := ia
      have hpatched := (patched_replace name r after).append (inner ++ ['\x7d', '\x7d'])
      rw [replaceAfterClose_some hs, eq_of_splitAtClose? hs]
      simpa using hpatched

/-- In a text of neat lines, to replace a placeholder is to revise each line. The same holds if the
text begins inside a placeholder. -/
theorem replaceFrom_joinLines (hname : isIdentifierChars name = true) {lines : List (List Char)}
    (h : ∀ line ∈ lines, isShut line = true) (inside : Bool) :
    ∃ revised, replaceFrom inside name r (joinLines lines) = joinLines revised ∧
      List.Forall₂ (Revised name r) lines revised := by
  induction lines generalizing inside with
  | nil =>
    refine ⟨[], ?_, .nil⟩
    cases inside with
    | false => exact replace_nil
    | true => rfl
  | cons line lines ih =>
    have hline := h line List.mem_cons_self
    have ih := ih fun l hl => h l (List.mem_cons_of_mem line hl)
    cases lines with
    | nil => exact ⟨[_], rfl, .cons (revised_replaceFrom inside line) .nil⟩
    | cons m lines =>
      obtain ⟨revised, hrest, hrevised⟩ := ih (endsInside inside line)
      refine ⟨replaceFrom inside name r line :: revised, ?_,
        .cons (revised_replaceFrom inside line) hrevised⟩
      rw [joinLines_cons (List.cons_ne_nil m lines), replaceFrom_line hname hline, hrest]
      -- replacing leaves as many lines as there were, so the revised rest is not empty
      cases hrevised with
      | cons _ _ => exact (joinLines_cons (List.cons_ne_nil _ _)).symm

/-- Lines without an opening brace hide nothing from the line after them. -/
theorem replace_joinLines_of_not_mem (hname : isIdentifierChars name = true)
    {before after : List (List Char)} {line : List Char}
    (hbefore : ∀ l ∈ before, '\x7b' ∉ l) (h : ∀ l ∈ line :: after, isShut l = true) :
    ∃ revised, replace name r (joinLines (before ++ line :: after)) =
        joinLines (before ++ replace name r line :: revised) ∧
      List.Forall₂ (Revised name r) after revised := by
  induction before with
  | nil =>
    have hline := h line List.mem_cons_self
    obtain ⟨revised, hrest, hrevised⟩ := replaceFrom_joinLines (r := r) hname
      (fun l hl => h l (List.mem_cons_of_mem line hl)) (endsInside false line)
    refine ⟨revised, ?_, hrevised⟩
    cases hrevised with
    | nil => rfl
    | @cons m _ ms _ _ _ =>
      have hreplace := replaceFrom_line hname hline r (joinLines (m :: ms)) false
      rw [hrest] at hreplace
      rw [List.nil_append, List.nil_append, joinLines_cons (List.cons_ne_nil m ms),
        joinLines_cons (List.cons_ne_nil _ _)]
      exact hreplace
  | cons b before ih =>
    have hb := hbefore b List.mem_cons_self
    obtain ⟨revised, hrest, hrevised⟩ := ih fun l hl => hbefore l (List.mem_cons_of_mem b hl)
    refine ⟨revised, ?_, hrevised⟩
    have hpass : ∀ cs, replace name r (b ++ '\n' :: cs) = b ++ '\n' :: replace name r cs := by
      intro cs
      have hopen : endsInside false b = false := leavesOpen_of_not_mem hb
      have hself : replaceFrom false name r b = b := replace_eq_self (occurs_of_not_mem hb)
      have hline := replaceFrom_line hname (isShut_of_not_mem hb) r cs false
      rwa [hopen, hself] at hline
    rw [List.cons_append, List.cons_append, joinLines_cons (by simp), joinLines_cons (by simp),
      hpass, hrest]

end Lines

/-! ## What revising leaves -/

/-- A text may be patched with a neat text and stays neat. -/
theorem isNeat_of_patched {r line revised : List Char} (hr : isNeat r = true)
    (hcloser : r.any isCloser = true) (h : Patched r line revised) (hline : isNeat line = true) :
    isNeat revised = true := by
  have hany : ∀ {cs ds : List Char}, Patched r cs ds → cs.any isCloser = true →
      ds.any isCloser = true := by
    intro cs ds hp
    induction hp with
    | nil => exact id
    | keep c _ ih =>
      intro hc
      rw [List.any_cons, Bool.or_eq_true] at hc ⊢
      exact hc.imp_right ih
    | hole inner _ _ =>
      intro _
      rw [List.any_append, hcloser, Bool.true_or]
  induction h with
  | nil => exact hline
  | @keep c cs ds hp ih =>
    simp only [isNeat, List.all_cons, isShut, Bool.and_eq_true, Bool.or_eq_true] at hline ih ⊢
    obtain ⟨⟨hc, hcs⟩, hopen, hshut⟩ := hline
    have ih := ih ⟨hcs, hshut⟩
    exact ⟨⟨hc, ih.1⟩, hopen.imp_right (hany hp), ih.2⟩
  | @hole inner cs ds _ ih =>
    have hcs : isNeat cs = true := by
      simp only [isNeat, List.all_append, Bool.and_eq_true] at hline ⊢
      exact ⟨hline.1.2, isShut_of_append hline.2⟩
    exact isNeat_append hr (ih hcs)

/-- The text before its first opening brace gives the line the property. -/
def Firm (Q : List Char → Prop) (line : List Char) : Prop :=
  ∃ p rest, line = p ++ rest ∧ '\x7b' ∉ p ∧ ∀ other, (rest = [] → other = []) → Q (p ++ other)

namespace Firm

variable {Q R : List Char → Prop} {line : List Char}

theorem holds (h : Firm Q line) : Q line := by
  obtain ⟨p, rest, rfl, -, hQ⟩ := h
  exact hQ rest id

theorem imp (h : Firm Q line) (hQR : ∀ l, Q l → R l) : Firm R line := by
  obtain ⟨p, rest, hline, hp, hQ⟩ := h
  exact ⟨p, rest, hline, hp, fun other hother => hQR _ (hQ other hother)⟩

/-- A line that is never revised keeps all its properties. -/
theorem of_not_mem (h : '\x7b' ∉ line) (hQ : Q line) : Firm Q line := by
  refine ⟨line, [], by simp, h, ?_⟩
  intro other hother
  rw [hother rfl, List.append_nil]
  exact hQ

theorem of_append {p : List Char} (rest : List Char) (hp : '\x7b' ∉ p)
    (hQ : ∀ other, Q (p ++ other)) : Firm Q (p ++ rest) :=
  ⟨p, rest, rfl, hp, fun other _ => hQ other⟩

theorem patched {r revised : List Char} (h : Firm Q line) (hpatched : Patched r line revised) :
    Firm Q revised := by
  obtain ⟨p, rest, rfl, hp, hQ⟩ := h
  obtain ⟨rest', rfl, hrest⟩ := Patched.of_append hp hpatched
  refine ⟨p, rest', rfl, hp, fun other hother => hQ other fun hnil => hother ?_⟩
  subst hnil
  exact hrest.of_nil

/-- Of two texts that begin the line, the longer one gives both properties. -/
theorem and (hQ : Firm Q line) (hR : Firm R line) : Firm (fun l => Q l ∧ R l) line := by
  obtain ⟨p, rest, rfl, hp, hQ⟩ := hQ
  obtain ⟨q, rest', hline, hq, hR⟩ := hR
  rcases List.append_eq_append_iff.1 hline with ⟨more, rfl, rfl⟩ | ⟨more, rfl, rfl⟩
  · refine ⟨p ++ more, rest', by simp, hq, fun other hother => ⟨?_, hR other hother⟩⟩
    rw [List.append_assoc]
    refine hQ _ fun hnil => ?_
    obtain ⟨rfl, hrest⟩ := List.append_eq_nil_iff.1 hnil
    exact hother hrest
  · refine ⟨q ++ more, rest, rfl, hp, fun other hother => ⟨hQ other hother, ?_⟩⟩
    rw [List.append_assoc]
    refine hR _ fun hnil => ?_
    obtain ⟨rfl, hrest⟩ := List.append_eq_nil_iff.1 hnil
    exact hother hrest

/-- A property that does not depend on what stands in front is firm behind a text too. -/
theorem prepend (h : Firm Q line) {p : List Char} (hp : '\x7b' ∉ p)
    (hQR : ∀ l, Q l → R (p ++ l)) : Firm R (p ++ line) := by
  obtain ⟨q, rest, rfl, hq, hQ⟩ := h
  refine ⟨p ++ q, rest, by simp, ?_, fun other hother => ?_⟩
  · rw [List.mem_append, not_or]
    exact ⟨hp, hq⟩
  · rw [List.append_assoc]
    exact hQR _ (hQ other hother)

end Firm

end EventReport.Text
