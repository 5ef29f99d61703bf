/-
# Placeholders in a text, and in a part of it

A placeholder is found from the left, so what is found depends on what came before.
Two facts keep this in hand.  Characters that are no opening brace are passed over,
and the text after them is scanned as it would be alone (`scan_append`).  And the
text after the first two closing braces is scanned as it would be alone too
(`scan_of_splitAtClose?`), whether a placeholder ended there or not.

The last part is about what replacing leaves of a text.  It is said loosely, as
`Patched`: some of the text's placeholders, no matter which, are replaced.  That is
all that most lines of a statement need.
-/
import EventReport.Text.Placeholder
import Mathlib.Data.List.Chain

namespace EventReport.Text.Placeholder

theorem splitAtClose?_append {cs inner after : List Char} (rest : List Char)
    (h : splitAtClose? cs = some (inner, after)) :
    splitAtClose? (cs ++ rest) = some (inner, after ++ rest) := by
  fun_induction splitAtClose? cs generalizing inner with
  | case1 => simp at h
  | case2 => simp at h
  | case3 c d cs hc =>
    obtain ⟨rfl, rfl⟩ := by simpa using h
    simp [splitAtClose?, hc]
  | case4 c d cs hc ih =>
    obtain ⟨⟨i, a⟩, hi, he⟩ := Option.map_eq_some_iff.1 h
    obtain ⟨rfl, rfl⟩ := by simpa using he
    have hcs := ih hi
    rw [List.cons_append] at hcs
    simp [splitAtClose?, hc, hcs]

theorem splitAtClose?_cons {c : Char} (hc : c ≠ '\x7d') (cs : List Char) :
    splitAtClose? (c :: cs) =
      (splitAtClose? cs).map fun (inner, after) => (c :: inner, after) := by
  cases cs with
  | nil => rfl
  | cons d cs => rw [splitAtClose?, if_neg fun h => hc h.1]

/-- A name without braces is split off whole. -/
theorem splitAtClose?_plain {inner : List Char} (h : '\x7d' ∉ inner) (rest : List Char) :
    splitAtClose? (inner ++ '\x7d' :: '\x7d' :: rest) = some (inner, rest) := by
  induction inner with
  | nil => simp [splitAtClose?]
  | cons c cs ih =>
    simp only [List.mem_cons, not_or] at h
    have hc : ¬(c = '\x7d') := Ne.symm h.1
    cases cs with
    | nil => simp [splitAtClose?, hc]
    | cons d ds =>
      have ih := ih h.2
      simp only [List.cons_append] at ih ⊢
      rw [splitAtClose?, if_neg (by simp [hc]), ih]
      rfl

/-! ## Scanning -/

theorem scan_nil : scan [] = [] := by simp [scan]

theorem scan_cons {c : Char} {cs : List Char}
    (h : c = '\x7b' → cs.head? ≠ some '\x7b') : scan (c :: cs) = .char c :: scan cs := by
  cases cs with
  | nil => simp [scan]
  | cons d cs =>
    have hopen : ¬(c = '\x7b' ∧ d = '\x7b') := by
      rintro ⟨hc, rfl⟩
      exact h hc rfl
    rw [scan, if_neg hopen]

theorem scan_hole {cs inner after : List Char} (h : splitAtClose? cs = some (inner, after)) :
    scan ('\x7b' :: '\x7b' :: cs) = .hole inner :: scan after := by
  rw [scan, if_pos ⟨rfl, rfl⟩]
  split
  · next hs =>
    rw [h] at hs
    obtain ⟨rfl, rfl⟩ := by simpa using hs
    rfl
  · next hs =>
    rw [h] at hs
    cases hs

theorem scan_open {cs : List Char} (h : splitAtClose? cs = none) :
    scan ('\x7b' :: '\x7b' :: cs) = ('\x7b' :: '\x7b' :: cs).map .char := by
  rw [scan, if_pos ⟨rfl, rfl⟩]
  split
  · next hs =>
    rw [h] at hs
    cases hs
  · rfl

/-- Without opening braces there is nothing to find. -/
theorem scan_append {p : List Char} (hp : '\x7b' ∉ p) (cs : List Char) :
    scan (p ++ cs) = p.map .char ++ scan cs := by
  induction p with
  | nil => rfl
  | cons c p ih =>
    have hc : c ≠ '\x7b' := fun he => hp (he ▸ List.mem_cons_self)
    have ih := ih fun h => hp (List.mem_cons_of_mem c h)
    rw [List.cons_append, scan_cons fun he => absurd he hc, ih]
    rfl

/-- What follows the first two closing braces is scanned as it would be alone: a placeholder that
opened before them ends there, and without one they are passed over. -/
theorem scan_of_splitAtClose? {cs inner after : List Char}
    (h : splitAtClose? cs = some (inner, after)) : ∃ before, scan cs = before ++ scan after := by
  fun_induction splitAtClose? cs generalizing inner with
  | case1 => simp at h
  | case2 => simp at h
  | case3 c d rest hc =>
    obtain ⟨rfl, rfl⟩ := hc
    obtain ⟨rfl, rfl⟩ := by simpa using h
    exact ⟨[.char '\x7d', .char '\x7d'], scan_append (p := ['\x7d', '\x7d']) (by decide) _⟩
  | case4 c d rest hc ih =>
    obtain ⟨⟨i, a⟩, hi, he⟩ := Option.map_eq_some_iff.1 h
    obtain ⟨rfl, rfl⟩ := by simpa using he
    by_cases hopen : c = '\x7b' ∧ d = '\x7b'
    · obtain ⟨rfl, rfl⟩ := hopen
      rw [splitAtClose?_cons (by decide)] at hi
      obtain ⟨⟨j, b⟩, hj, he⟩ := Option.map_eq_some_iff.1 hi
      obtain ⟨rfl, rfl⟩ := by simpa using he
      exact ⟨[.hole j], scan_hole hj⟩
    · obtain ⟨before, hbefore⟩ := ih hi
      refine ⟨.char c :: before, ?_⟩
      rw [scan_cons fun hc he => hopen ⟨hc, by simpa using he⟩, hbefore]
      rfl

/-! ## Occurrences -/

section Occurs

variable {name : List Char}

theorem occurs_iff {cs : List Char} :
    occurs name cs = true ↔ ∃ s ∈ scan cs, s.name? = some name := by
  simp [occurs, names, List.mem_filterMap]

theorem occurs_append {p : List Char} (hp : '\x7b' ∉ p) (cs : List Char) :
    occurs name (p ++ cs) = occurs name cs := by
  rw [Bool.eq_iff_iff, occurs_iff, occurs_iff, scan_append hp]
  constructor
  · rintro ⟨s, hs, hname⟩
    rcases List.mem_append.1 hs with hs | hs
    · obtain ⟨c, -, rfl⟩ := List.mem_map.1 hs
      cases hname
    · exact ⟨s, hs, hname⟩
  · rintro ⟨s, hs, hname⟩
    exact ⟨s, List.mem_append_right _ hs, hname⟩

/-- Two characters that do not open a placeholder, one after the other. -/
def Apart (c d : Char) : Prop := c = '\x7b' → d ≠ '\x7b'

theorem isChain_apart {cs : List Char} (h : ¬['\x7b', '\x7b'] <:+: cs) :
    cs.IsChain Apart := by
  induction cs with
  | nil => exact .nil
  | cons c cs ih =>
    have ih := ih fun hbraces => h (List.infix_cons hbraces)
    cases cs with
    | nil => exact .singleton c
    | cons d cs =>
      refine .cons_cons ?_ ih
      rintro rfl rfl
      exact h ⟨[], cs, rfl⟩

theorem occurs_of_isChain {cs : List Char} (h : cs.IsChain Apart) : occurs name cs = false := by
  have hscan : scan cs = cs.map .char := by
    fun_induction scan cs with
    | case1 => rfl
    | case2 => rfl
    | case3 c d rest hopen => exact absurd hopen.2 ((List.isChain_cons_cons.1 h).1 hopen.1)
    | case4 => rfl
    | case5 c d rest _ ih =>
      rw [ih (List.isChain_cons_cons.1 h).2]
      rfl
  rw [← Bool.not_eq_true, occurs_iff, hscan]
  rintro ⟨s, hs, hname⟩
  obtain ⟨c, -, rfl⟩ := List.mem_map.1 hs
  cases hname

theorem occurs_of_splitAtClose? {cs inner after : List Char}
    (h : splitAtClose? cs = some (inner, after)) (hoccurs : occurs name after = true) :
    occurs name cs = true := by
  obtain ⟨before, hbefore⟩ := scan_of_splitAtClose? h
  obtain ⟨s, hs, hname⟩ := occurs_iff.1 hoccurs
  exact occurs_iff.2 ⟨s, hbefore ▸ List.mem_append_right before hs, hname⟩

end Occurs

/-! ## Replacing -/

section Replace

variable {name r : List Char}

theorem replace_nil : replace name r [] = [] := by simp [replace, scan_nil]

theorem replace_cons {c : Char} {cs : List Char} (h : c = '\x7b' → cs.head? ≠ some '\x7b') :
    replace name r (c :: cs) = c :: replace name r cs := by
  rw [replace, scan_cons h]
  simp [replace, Segment.name?, Segment.source]

theorem replace_hole {cs inner after : List Char} (h : splitAtClose? cs = some (inner, after)) :
    replace name r ('\x7b' :: '\x7b' :: cs) =
      (if trimChars inner = name then r else write inner) ++ replace name r after := by
  rw [replace, scan_hole h]
  simp [replace, Segment.name?, Segment.source]

theorem replace_open {cs : List Char} (h : splitAtClose? cs = none) :
    replace name r ('\x7b' :: '\x7b' :: cs) = '\x7b' :: '\x7b' :: cs := by
  rw [replace, scan_open h]
  simp [Segment.name?, Segment.source, List.flatMap_map]

theorem replace_eq_self {cs : List Char} (h : occurs name cs = false) : replace name r cs = cs := by
  have hsource : ∀ s ∈ scan cs,
      (if s.name? = some name then r else s.source) = s.source := by
    intro s hs
    refine if_neg fun hname => ?_
    rw [occurs_iff.2 ⟨s, hs, hname⟩] at h
    cases h
  rw [replace, List.flatMap_def, List.map_congr_left hsource, ← List.flatMap_def]
  exact source_scan cs

theorem length_trimChars_le (cs : List Char) : (trimChars cs).length ≤ cs.length := by
  have hend := (List.dropWhile_sublist isBlank (l := (trimStart cs).reverse)).length_le
  have hstart := (List.dropWhile_sublist isBlank (l := cs)).length_le
  rw [List.length_reverse] at hend
  rw [trimChars, trimEnd, List.length_reverse]
  exact Nat.le_trans hend hstart

/-- A placeholder takes the braces and its name. -/
theorem Segment.length_source {s : Segment} (h : s.name? = some name) :
    name.length + 4 ≤ s.source.length := by
  cases s with
  | char c => cases h
  | hole inner =>
    have htrim := length_trimChars_le inner
    obtain rfl : trimChars inner = name := by simpa [Segment.name?] using h
    simp only [Segment.source, write, List.length_append, List.length_cons, List.length_nil]
    omega

theorem length_replaced_le (hr : r.length < name.length + 4) (segments : List Segment) :
    (segments.flatMap fun s => if s.name? = some name then r else s.source).length ≤
      (segments.flatMap Segment.source).length := by
  induction segments with
  | nil => exact Nat.le_refl 0
  | cons s segments ih =>
    simp only [List.flatMap_cons, List.length_append]
    split
    · next hs =>
      have := Segment.length_source hs
      omega
    · omega

theorem length_replaced_lt (hr : r.length < name.length + 4) {segments : List Segment}
    (h : ∃ s ∈ segments, s.name? = some name) :
    (segments.flatMap fun s => if s.name? = some name then r else s.source).length <
      (segments.flatMap Segment.source).length := by
  induction segments with
  | nil =>
    obtain ⟨s, hs, -⟩ := h
    cases hs
  | cons s segments ih =>
    have hrest := length_replaced_le hr segments
    simp only [List.flatMap_cons, List.length_append]
    split
    · next hs =>
      have := Segment.length_source hs
      omega
    · next hs =>
      obtain ⟨t, ht, hname⟩ := h
      rcases List.mem_cons.1 ht with rfl | ht
      · exact absurd hname hs
      · have := ih ⟨t, ht, hname⟩
        omega

/-- The text is shorter if a placeholder has been replaced by less than the braces and the name. -/
theorem length_replace_lt {cs : List Char} (h : occurs name cs = true)
    (hr : r.length < name.length + 4) : (replace name r cs).length < cs.length := by
  have hscan := length_replaced_lt hr (occurs_iff.1 h)
  rw [source_scan] at hscan
  exact hscan

end Replace

/-! ## Texts with placeholders replaced -/

/-- The second text is the first one with some of its placeholders replaced. -/
inductive Patched (r : List Char) : List Char → List Char → Prop
  | nil : Patched r [] []
  | keep (c : Char) {cs ds : List Char} : Patched r cs ds → Patched r (c :: cs) (c :: ds)
  | hole (inner : List Char) {cs ds : List Char} :
      Patched r cs ds → Patched r (write inner ++ cs) (r ++ ds)

namespace Patched

variable {r cs ds : List Char}

theorem append (h : Patched r cs ds) (p : List Char) : Patched r (p ++ cs) (p ++ ds) := by
  induction p with
  | nil => exact h
  | cons c p ih => exact ih.keep c

theorem refl (cs : List Char) : Patched r cs cs := by
  have h := append (r := r) .nil cs
  rwa [List.append_nil] at h

/-- What stands before the first opening brace stays. -/
theorem of_append {p : List Char} (hp : '\x7b' ∉ p) (h : Patched r (p ++ cs) ds) :
    ∃ es, ds = p ++ es ∧ Patched r cs es := by
  induction p generalizing ds with
  | nil => exact ⟨ds, rfl, h⟩
  | cons c p ih =>
    have hc : c ≠ '\x7b' := fun he => hp (he ▸ List.mem_cons_self)
    generalize hcs : c :: p ++ cs = as at h
    cases h with
    | nil => cases hcs
    | keep d h =>
      obtain ⟨rfl, rfl⟩ := List.cons.inj hcs
      obtain ⟨es, rfl, hes⟩ := ih (fun h => hp (List.mem_cons_of_mem c h)) h
      exact ⟨es, rfl, hes⟩
    | hole inner h => exact absurd (List.cons.inj hcs).1 hc

theorem of_nil (h : Patched r [] ds) : ds = [] := by
  generalize hcs : ([] : List Char) = as at h
  cases h with
  | nil => rfl
  | keep d h => cases hcs
  | hole inner h => cases hcs

/-- A character of the second text is one of the first or of what has been put in. -/
theorem not_mem {c : Char} (h : Patched r cs ds) (hr : c ∉ r) (hcs : c ∉ cs) : c ∉ ds := by
  induction h with
  | nil => exact hcs
  | keep d _ ih =>
    rw [List.mem_cons, not_or] at hcs ⊢
    exact ⟨hcs.1, ih hcs.2⟩
  | hole inner _ ih =>
    rw [List.mem_append, not_or] at hcs ⊢
    exact ⟨hr, ih hcs.2⟩

end Patched

theorem patched_replace (name r cs : List Char) : Patched r cs (replace name r cs) := by
  fun_induction scan cs with
  | case1 =>
    rw [replace_nil]
    exact .nil
  | case2 c =>
    rw [replace_cons (by simp), replace_nil]
    exact .refl [c]
  | case3 c d rest hopen inner after hs ih =>
    obtain ⟨rfl, rfl⟩ := hopen
    rw [replace_hole hs, eq_of_splitAtClose? hs]
    have hwrite : '\x7b' :: '\x7b' :: (inner ++ '\x7d' :: '\x7d' :: after) = write inner ++ after := by
      simp [write]
    rw [hwrite]
    split
    · exact .hole inner ih
    · exact ih.append _
  | case4 c d rest hopen hs =>
    obtain ⟨rfl, rfl⟩ := hopen
    rw [replace_open hs]
    exact .refl _
  | case5 c d rest hopen ih =>
    rw [replace_cons fun hc he => hopen ⟨hc, by simpa using he⟩]
    exact ih.keep c

end EventReport.Text.Placeholder
