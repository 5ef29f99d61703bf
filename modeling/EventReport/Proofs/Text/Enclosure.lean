/-
# Texts that keep their braces to themselves

Between the braces of a placeholder stand a name and blanks.  So where every brace
of a text has some other mark between itself and the rest of what it could pair with,
no placeholder reaches into the text or out of it (`IsEnclosed`).  A text between
quotes is like that.

## What is proved

`exists_sublist_replace`: a line that keeps its braces to itself and is more than a part
of a name is still there when a placeholder has been replaced, whatever the lines around
it are.  They may run into each other: a placeholder may reach over lines, and with it
the line feeds in it are replaced.

`IsBraced.replaceFrom_iff`: only the pieces with braces decide whether a placeholder is
found.
-/
import EventReport.Proofs.Text.Revision

namespace EventReport.Text

open Placeholder

/-! ## Enclosed texts -/

/-- No placeholder begins in the text and ends behind it, or begins before it and ends in it. -/
structure IsEnclosed (cs : List Char) : Prop where
  opens : ∀ before inner, cs = before ++ '\x7b' :: inner → ¬IsPadded inner
  closes : ∀ inner after, cs = inner ++ '\x7d' :: after → ¬IsPadded inner

theorem isPadded_nil : IsPadded [] := ⟨[], [], [], rfl, by simp, by simp, by simp⟩

theorem isEnclosed_of_not_mem {cs : List Char} (hopen : '\x7b' ∉ cs) (hclose : '\x7d' ∉ cs) :
    IsEnclosed cs := by
  refine ⟨?_, ?_⟩
  · rintro before inner rfl
    simp at hopen
  · rintro inner after rfl
    simp at hclose

/-- A text that begins and ends with the same mark. -/
theorem isEnclosed_of_marks {c : Char} {body : List Char} (hmark : isMark c = true)
    (hopen : c ≠ '\x7b') (hclose : c ≠ '\x7d') (hlast : body.getLast? = some c) :
    IsEnclosed (c :: body) := by
  refine ⟨fun before inner heq => ?_, fun inner after heq => ?_⟩
  · have hend : ('\x7b' :: inner).getLast? = some c := by
      have hwhole : (before ++ '\x7b' :: inner).getLast? = some c := by
        rw [← heq, List.getLast?_cons, hlast]
        rfl
      rw [List.getLast?_append, List.getLast?_cons] at hwhole
      rw [List.getLast?_cons]
      simpa using hwhole
    have hmem : c ∈ inner := by
      rcases List.mem_cons.1 (List.mem_of_getLast? hend) with heq | hmem
      · exact absurd heq hopen
      · exact hmem
    exact not_isPadded_of_mem hmark hmem
  · cases inner with
    | nil => exact absurd (List.cons.inj heq).1 hclose
    | cons d inner =>
      obtain ⟨rfl, -⟩ := List.cons.inj heq
      exact not_isPadded_of_mem hmark List.mem_cons_self

namespace IsEnclosed

variable {cs ds : List Char}

theorem append (hcs : IsEnclosed cs) (hds : IsEnclosed ds) : IsEnclosed (cs ++ ds) := by
  refine ⟨fun before inner heq hpadded => ?_, fun inner after heq hpadded => ?_⟩
  · rcases List.append_eq_append_iff.1 heq with ⟨p, -, hds'⟩ | ⟨p, hcs', hinner⟩
    · exact hds.opens p inner hds' hpadded
    · cases p with
      | nil => exact hds.opens [] inner hinner.symm hpadded
      | cons d p =>
        obtain ⟨rfl, rfl⟩ := List.cons.inj hinner
        exact hcs.opens before p hcs' hpadded.prefix_
  · rcases List.append_eq_append_iff.1 heq with ⟨p, rfl, hds'⟩ | ⟨p, hcs', hafter⟩
    · exact hds.closes p after hds' hpadded.suffix
    · cases p with
      | nil =>
        rw [List.append_nil] at hcs'
        subst hcs'
        exact hds.closes [] after hafter.symm isPadded_nil
      | cons d p =>
        obtain ⟨rfl, rfl⟩ := List.cons.inj hafter
        exact hcs.closes inner p hcs' hpadded

theorem noneAcross {name : List Char} (h : IsEnclosed cs) (hname : isIdentifierChars name = true)
    (ds : List Char) : NoneAcross name cs ds := by
  intro before inner inner' after hcs _ htrim
  refine h.opens (before ++ ['\x7b']) inner (by simpa using hcs) ?_
  exact (isPadded_of_trimChars hname htrim).prefix_

theorem separate (hcs : IsEnclosed cs) (hds : IsEnclosed ds) : Separate cs ds := by
  intro c hc d hd
  refine ⟨?_, ?_⟩
  · rintro ⟨rfl, -⟩
    obtain ⟨before, rfl⟩ := List.getLast?_eq_some_iff.1 hc
    exact hcs.opens before [] rfl isPadded_nil
  · rintro ⟨-, rfl⟩
    obtain ⟨after, rfl⟩ := List.head?_eq_some_iff.1 hd
    exact hds.closes [] after rfl isPadded_nil

end IsEnclosed

/-! ## Pieces with braces -/

/-- The text is made of enclosed pieces and of characters that are no braces. -/
inductive IsBraced : List Char → List (List Char) → Prop where
  | nil : IsBraced [] []
  | char {c : Char} {cs : List Char} {pieces : List (List Char)} :
      c ≠ '\x7b' → c ≠ '\x7d' → IsBraced cs pieces → IsBraced (c :: cs) pieces
  | piece {p cs : List Char} {pieces : List (List Char)} :
      IsEnclosed p → IsBraced cs pieces → IsBraced (p ++ cs) (p :: pieces)

namespace IsBraced

variable {cs : List Char} {pieces : List (List Char)}

theorem isEnclosed (h : IsBraced cs pieces) : IsEnclosed cs := by
  induction h with
  | nil => exact isEnclosed_of_not_mem (by simp) (by simp)
  | @char c cs pieces hopen hclose _ ih =>
    have hc : IsEnclosed [c] :=
      isEnclosed_of_not_mem (by simpa using hopen.symm) (by simpa using hclose.symm)
    exact hc.append ih
  | piece hp _ ih => exact hp.append ih

theorem flatten (h : IsBraced cs pieces) : IsBraced pieces.flatten pieces := by
  induction h with
  | nil => exact .nil
  | char _ _ _ ih => exact ih
  | piece hp _ ih => exact .piece hp ih

theorem of_not_mem (hopen : '\x7b' ∉ cs) (hclose : '\x7d' ∉ cs) {ds : List Char}
    (h : IsBraced ds pieces) : IsBraced (cs ++ ds) pieces := by
  induction cs with
  | nil => exact h
  | cons c cs ih =>
    rw [List.mem_cons, not_or] at hopen hclose
    exact .char (Ne.symm hopen.1) (Ne.symm hclose.1) (ih hopen.2 hclose.2)

theorem length_replaceFrom_le (inside : Bool) (name cs : List Char) :
    (replaceFrom inside name [] cs).length ≤ cs.length := by
  cases inside with
  | false => exact length_replace_le name cs
  | true =>
    show (replaceAfterClose name [] cs).length ≤ cs.length
    cases hs : splitAtClose? cs with
    | none => rw [replaceAfterClose_none hs]
    | some ia =>
      have hle := length_replace_le name ia.2
      rw [replaceAfterClose_some hs, eq_of_splitAtClose? hs]
      simp only [List.length_append, List.length_cons]
      omega

variable {name : List Char} (hname : isIdentifierChars name = true)

include hname

/-- What stands between the pieces does not matter to the search for a placeholder. -/
theorem replaceFrom_iff (h : IsBraced cs pieces) (inside : Bool) :
    replaceFrom inside name [] cs = cs ↔
      replaceFrom inside name [] pieces.flatten = pieces.flatten := by
  induction h generalizing inside with
  | nil => rfl
  | char hopen hclose _ ih =>
    rw [replaceFrom_cons hopen hclose, List.cons.injEq, ← ih inside]
    simp
  | @piece p cs pieces hp hcs ih =>
    have hsplit : ∀ {ds : List Char}, IsBraced ds pieces →
        (replaceFrom inside name [] (p ++ ds) = p ++ ds ↔ replaceFrom inside name [] p = p ∧
          replaceFrom (endsInside inside p) name [] ds = ds) := by
      intro ds hds
      rw [replaceFrom_append (hp.separate hds.isEnclosed) (hp.noneAcross hname ds)]
      refine ⟨fun heq => ?_, fun ⟨hleft, hright⟩ => by rw [hleft, hright]⟩
      have hlength := congrArg List.length heq
      have hle := length_replaceFrom_le inside name p
      have hle' := length_replaceFrom_le (endsInside inside p) name ds
      simp only [List.length_append] at hlength
      exact List.append_inj heq (by omega)
    rw [List.flatten_cons, hsplit hcs, hsplit hcs.flatten, ih]

theorem occurs_iff (h : IsBraced cs pieces) :
    occurs name cs = false ↔ occurs name pieces.flatten = false := by
  have hsame : ∀ cs, occurs name cs = false ↔ replaceFrom false name [] cs = cs := by
    intro cs
    refine ⟨fun hnone => replaceFrom_eq_self hnone false, fun hsame => ?_⟩
    rw [← Bool.not_eq_true, occurs_iff_length]
    intro hlt
    have hlength : (replace name [] cs).length = cs.length := congrArg List.length hsame
    omega
  rw [hsame, hsame, h.replaceFrom_iff hname]

end IsBraced

/-! ## Lines that last -/

/-- The line is still there when placeholders have been replaced, if need be also in it. -/
structure Lasting (line : List Char) : Prop where
  newline : '\n' ∉ line
  isEnclosed : IsEnclosed line
  not_isPadded : ¬IsPadded line

theorem splitLines_append (cs ds : List Char) :
    splitLines (cs ++ '\n' :: ds) = splitLines cs ++ splitLines ds := by
  induction cs with
  | nil => simp [splitLines]
  | cons c cs ih =>
    rw [List.cons_append, splitLines, splitLines, ih]
    split
    · rfl
    · cases hs : splitLines cs with
      | nil => exact absurd hs (splitLines_ne_nil cs)
      | cons line lines => rfl

/-- The last line of a text and the line feed or the end behind it. -/
theorem splitLines_append_of_head {line ds : List Char} (hline : '\n' ∉ line)
    (hds : ds = [] ∨ ds.head? = some '\n') :
    splitLines (line ++ ds) = line :: (splitLines ds).tail := by
  rcases hds with rfl | hds
  · rw [List.append_nil, splitLines_of_not_mem hline]
    rfl
  · obtain ⟨rest, rfl⟩ := List.head?_eq_some_iff.1 hds
    rw [splitLines_append, splitLines_of_not_mem hline]
    rfl

/-- A placeholder that begins before a line reaches neither over it nor into it. -/
theorem Lasting.noneAcross {name line : List Char} (h : Lasting line)
    (hname : isIdentifierChars name = true) (cs ds : List Char) :
    NoneAcross name cs ('\n' :: (line ++ ds)) := by
  intro before inner inner' after _ heq htrim
  have hpadded : IsPadded inner' := (isPadded_of_trimChars hname htrim).suffix
  cases inner' with
  | nil => simp at heq
  | cons d inner' =>
    have heq := (List.cons.inj heq).2
    have hpadded := hpadded.of_cons
    rcases List.append_eq_append_iff.1 heq with ⟨p, rfl, -⟩ | ⟨p, hline, hafter⟩
    · exact h.not_isPadded hpadded.prefix_
    · cases p with
      | nil =>
        rw [List.append_nil] at hline
        subst hline
        exact h.not_isPadded hpadded
      | cons e p =>
        obtain ⟨rfl, -⟩ := List.cons.inj hafter
        exact h.isEnclosed.closes inner' p hline hpadded

section Replace

variable {name r : List Char} (hname : isIdentifierChars name = true)

include hname

theorem Lasting.replaceFrom_append {line : List Char} (h : Lasting line) (inside : Bool)
    (cs : List Char) {ds : List Char} (hds : ds = [] ∨ ds.head? = some '\n') :
    ∃ here later, replaceFrom inside name r (cs ++ '\n' :: (line ++ ds)) =
      replaceFrom inside name r cs ++
        '\n' :: (replaceFrom here name r line ++ replaceFrom later name r ds) := by
  have hfeed : Separate line ds := by
    rcases hds with rfl | hds
    · intro c _ d hd
      cases hd
    · obtain ⟨rest, rfl⟩ := List.head?_eq_some_iff.1 hds
      exact separate_cons (by decide) (by decide) line rest
  refine ⟨endsInside inside cs, endsInside (endsInside inside cs) line, ?_⟩
  rw [Placeholder.replaceFrom_append (separate_cons (by decide) (by decide) cs _)
      (h.noneAcross hname cs ds), replaceFrom_cons (by decide) (by decide),
    Placeholder.replaceFrom_append hfeed (h.isEnclosed.noneAcross hname ds)]

variable (hr : '\n' ∉ r)

include hr

/-- The induction is on the lines; `cs` is the text since the last line that lasts, over which
placeholders may reach from line to line. -/
theorem exists_sublist_replaceFrom {kept lines : List (List Char)} (h : kept.Sublist lines)
    (hkept : ∀ line ∈ kept, Lasting line) (inside : Bool) (cs : List Char) :
    ∃ revised, List.Sublist revised
        (splitLines (replaceFrom inside name r (cs ++ lines.flatMap ('\n' :: ·)))).tail ∧
      List.Forall₂ (fun line line' => ∃ here, line' = replaceFrom here name r line) kept
        revised := by
  induction h generalizing inside cs with
  | slnil => exact ⟨[], List.nil_sublist _, .nil⟩
  | @cons kept lines line _ ih =>
    have ih := ih hkept inside (cs ++ '\n' :: line)
    simpa using ih
  | @cons_cons kept lines line _ ih =>
    obtain ⟨hlasting, hkept⟩ := List.forall_mem_cons.1 hkept
    have hfeed : lines.flatMap ('\n' :: ·) = [] ∨
        (lines.flatMap ('\n' :: ·)).head? = some '\n' := by
      cases lines with
      | nil => exact .inl rfl
      | cons m lines => exact .inr rfl
    obtain ⟨here, later, heq⟩ := hlasting.replaceFrom_append (r := r) hname inside cs hfeed
    have hfeed' : replaceFrom later name r (lines.flatMap ('\n' :: ·)) = [] ∨
        (replaceFrom later name r (lines.flatMap ('\n' :: ·))).head? = some '\n' := by
      cases lines with
      | nil =>
        refine .inl ?_
        cases later with
        | false => exact replace_nil
        | true => rfl
      | cons m lines =>
        refine .inr ?_
        rw [List.flatMap_cons, List.cons_append, replaceFrom_cons (by decide) (by decide)]
        rfl
    have hnewline : '\n' ∉ replaceFrom here name r line :=
      (revised_replaceFrom here line).patched.not_mem hr hlasting.newline
    obtain ⟨revised, hrevised, hlines⟩ := ih hkept later []
    refine ⟨replaceFrom here name r line :: revised, ?_, .cons ⟨here, rfl⟩ hlines⟩
    rw [List.flatMap_cons, List.cons_append, heq, splitLines_append,
      List.tail_append_of_ne_nil (splitLines_ne_nil _), splitLines_append_of_head hnewline hfeed']
    exact List.Sublist.trans (hrevised.cons_cons _) (List.sublist_append_right _ _)

/-- Lines that last are lines of the text in which a placeholder has been replaced, but for
placeholders in themselves. -/
theorem exists_sublist_replace {kept lines : List (List Char)} (h : kept.Sublist lines)
    (hkept : ∀ line ∈ kept, Lasting line) :
    ∃ revised, List.Sublist revised (splitLines (replace name r (joinLines lines))) ∧
      List.Forall₂ (fun line line' => ∃ here, line' = replaceFrom here name r line) kept
        revised := by
  cases lines with
  | nil =>
    rw [List.sublist_nil.1 h]
    exact ⟨[], List.nil_sublist _, .nil⟩
  | cons line lines =>
    have hfeed : (line :: lines).flatMap ('\n' :: ·) = '\n' :: joinLines (line :: lines) := by
      have hjoin := joinLines_append_cons [] lines line
      rw [List.nil_append] at hjoin
      rw [hjoin]
      rfl
    have hsublist := exists_sublist_replaceFrom hname hr h hkept false []
    rw [List.nil_append, hfeed, replaceFrom_cons (by decide) (by decide)] at hsublist
    exact hsublist

end Replace

end EventReport.Text
