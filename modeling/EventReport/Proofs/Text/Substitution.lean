/-
# What the scan finds after a replacement

Where a placeholder gives way to another text, the braces around it could come together
anew, or those of the new text could pair with them, and every placeholder behind would
be lost.  That does not happen.  The scan takes the first two opening braces there are,
so none stands directly before a placeholder; and it has closed all braces before it
comes to the next one.

## What is proved

`scan_replace`: if the scan passes over what is put in as over a text of its own, then it
finds in the new text what it found in the old one, segment by segment, with what is put
in for each placeholder of the name.  A text without opening braces is passed over, and
so is a placeholder with an identifier for its name.

The rest follows from the segments: which placeholders are left (`names_replace_plain`,
`names_replace_write`), that none of the name is (`occurs_replace`), and that a name which
is exchanged for a new one can be exchanged back (`replace_replace`).
-/
import EventReport.Proofs.Text.Resumption

namespace EventReport.Text.Placeholder

/-- What stands between the braces of a placeholder is the same whatever comes after it. -/
theorem splitAtClose?_self {cs inner after : List Char}
    (h : splitAtClose? cs = some (inner, after)) (rest : List Char) :
    splitAtClose? (inner ++ '\x7d' :: '\x7d' :: rest) = some (inner, rest) := by
  fun_induction splitAtClose? cs generalizing inner with
  | case1 => cases h
  | case2 => cases h
  | case3 c d cs hclose =>
    obtain ⟨rfl, -⟩ := by simpa using h
    simp [splitAtClose?]
  | case4 c d cs hclose ih =>
    obtain ⟨⟨inner', after'⟩, hinner, heq⟩ := Option.map_eq_some_iff.1 h
    obtain ⟨rfl, rfl⟩ := by simpa using heq
    have ih := ih hinner
    -- the text between the braces goes on as the text did, or the braces follow at once
    obtain ⟨ds, hds⟩ : ∃ ds, inner' ++ '\x7d' :: '\x7d' :: rest = d :: ds := by
      have hsplit := eq_of_splitAtClose? hinner
      cases inner' with
      | nil =>
        obtain ⟨rfl, -⟩ := by simpa using hsplit
        exact ⟨_, rfl⟩
      | cons e inner' =>
        obtain ⟨rfl, -⟩ := by simpa using hsplit
        exact ⟨_, rfl⟩
    rw [hds] at ih
    rw [List.cons_append, hds, splitAtClose?, if_neg hclose, ih]
    rfl

/-- No closing braces stand between the braces of a placeholder. -/
theorem not_infix_of_splitAtClose? {cs inner after : List Char}
    (h : splitAtClose? cs = some (inner, after)) : ¬['\x7d', '\x7d'] <:+: inner := by
  fun_induction splitAtClose? cs generalizing inner with
  | case1 => cases h
  | case2 => cases h
  | case3 =>
    obtain ⟨rfl, -⟩ := by simpa using h
    simp
  | case4 c d cs hclose ih =>
    obtain ⟨⟨inner', after'⟩, hinner, heq⟩ := Option.map_eq_some_iff.1 h
    obtain ⟨rfl, rfl⟩ := by simpa using heq
    rw [List.infix_cons_iff, not_or]
    refine ⟨fun hprefix => ?_, ih hinner⟩
    obtain ⟨hc, hrest⟩ := List.cons_prefix_cons.1 hprefix
    cases inner' with
    | nil => simp at hrest
    | cons e inner' =>
      obtain ⟨he, -⟩ := List.cons_prefix_cons.1 hrest
      have hsplit := eq_of_splitAtClose? hinner
      exact hclose ⟨hc.symm, by rw [(List.cons.inj hsplit).1, he]⟩

/-- Such a text is split off whole, if the braces behind it are the first. -/
theorem splitAtClose?_of_not_infix {inner : List Char} (h : ¬['\x7d', '\x7d'] <:+: inner)
    (hlast : inner.getLast? ≠ some '\x7d') (rest : List Char) :
    splitAtClose? (inner ++ '\x7d' :: '\x7d' :: rest) = some (inner, rest) := by
  induction inner with
  | nil => simp [splitAtClose?]
  | cons c cs ih =>
    rw [List.infix_cons_iff, not_or] at h
    cases cs with
    | nil =>
      have hc : c ≠ '\x7d' := by simpa using hlast
      rw [List.cons_append, splitAtClose?_cons hc]
      simp [splitAtClose?]
    | cons d ds =>
      have ih := ih h.2 (by simpa using hlast)
      have hclose : ¬(c = '\x7d' ∧ d = '\x7d') := by
        rintro ⟨rfl, rfl⟩
        exact h.1 ⟨ds, rfl⟩
      rw [List.cons_append] at ih
      rw [List.cons_append, List.cons_append, splitAtClose?, if_neg hclose, ih]
      rfl

theorem scan_write {inner : List Char} (h : '\x7d' ∉ inner) (rest : List Char) :
    scan (write inner ++ rest) = .hole inner :: scan rest := by
  have hwrite : write inner ++ rest = '\x7b' :: '\x7b' :: (inner ++ '\x7d' :: '\x7d' :: rest) := by
    simp [write]
  rw [hwrite, scan_hole (splitAtClose?_plain h rest)]

section Replace

variable {name r : List Char} {segments : List Segment}

/-- The segments of a text in which a placeholder has been replaced. -/
theorem scan_replace (hr : ∀ rest, scan (r ++ rest) = segments ++ scan rest) (cs : List Char) :
    scan (replace name r cs) =
      (scan cs).flatMap fun s => if s.name? = some name then segments else [s] := by
  fun_induction scan cs with
  | case1 =>
    rw [replace_nil, scan_nil]
    rfl
  | case2 c =>
    rw [replace_cons (by simp), replace_nil, scan_cons (by simp), scan_nil]
    rfl
  | case3 c d cs hopen inner after hs ih =>
    obtain ⟨rfl, rfl⟩ := hopen
    rw [replace_hole hs, List.flatMap_cons, ← ih]
    by_cases hname : trimChars inner = name
    · have hhole : (Segment.hole inner).name? = some name := congrArg some hname
      rw [if_pos hname, hr, if_pos hhole]
    · have hhole : (Segment.hole inner).name? ≠ some name := fun h => hname (Option.some.inj h)
      have hwrite : write inner ++ replace name r after =
          '\x7b' :: '\x7b' :: (inner ++ '\x7d' :: '\x7d' :: replace name r after) := by
        simp [write]
      rw [if_neg hname, hwrite, scan_hole (splitAtClose?_self hs _), if_neg hhole]
      rfl
  | case4 c d cs hopen hs =>
    obtain ⟨rfl, rfl⟩ := hopen
    have hchars : ∀ ds : List Char, (ds.map Segment.char).flatMap
        (fun s => if s.name? = some name then segments else [s]) = ds.map .char := by
      intro ds
      rw [List.flatMap_map, List.map_eq_flatMap]
      exact List.flatMap_congr fun c _ => if_neg (by simp [Segment.name?])
    rw [replace_open hs, scan_open hs, hchars]
  | case5 c d cs hopen ih =>
    -- the character after an opening brace is none, so it is no beginning of a placeholder
    have hkept : c = '\x7b' → (replace name r (d :: cs)).head? ≠ some '\x7b' := by
      rintro rfl
      have hd : d ≠ '\x7b' := fun hd => hopen ⟨rfl, hd⟩
      rw [replace_cons fun h => absurd h hd]
      simpa using hd
    rw [replace_cons fun hc he => hopen ⟨hc, by simpa using he⟩, scan_cons hkept, ih]
    rfl

/-- The names that are found then, in order. -/
theorem names_replace (hr : ∀ rest, scan (r ++ rest) = segments ++ scan rest) (cs : List Char) :
    names (replace name r cs) =
      (names cs).flatMap fun n => if n = name then segments.filterMap Segment.name? else [n] := by
  rw [names, scan_replace hr, names]
  induction scan cs with
  | nil => rfl
  | cons s rest ih =>
    rw [List.flatMap_cons, List.filterMap_append, ih]
    cases s with
    | char c => rfl
    | hole inner =>
      have hhole : (Segment.hole inner).name? = some (trimChars inner) := rfl
      rw [List.filterMap_cons_some hhole, List.flatMap_cons, hhole]
      by_cases hname : trimChars inner = name
      · rw [if_pos hname, if_pos (congrArg some hname)]
      · rw [if_neg hname, if_neg fun h => hname (Option.some.inj h)]
        rfl

/-! ## A text without braces, and a placeholder -/

variable (cs : List Char)

theorem scan_replace_plain (hr : '\x7b' ∉ r) :
    scan (replace name r cs) =
      (scan cs).flatMap fun s => if s.name? = some name then r.map .char else [s] :=
  scan_replace (scan_append hr) cs

theorem names_replace_plain (hr : '\x7b' ∉ r) :
    names (replace name r cs) = (names cs).filter (· ≠ name) := by
  have hnone : (r.map Segment.char).filterMap Segment.name? = [] := by
    simp [List.filterMap_map, Segment.name?]
  rw [names_replace (scan_append hr), hnone]
  induction names cs with
  | nil => rfl
  | cons n ns ih =>
    rw [List.flatMap_cons, ih]
    by_cases hname : n = name
    · simp [hname]
    · simp [hname]

section Write

variable {new : List Char} (hnew : isIdentifierChars new = true)

include hnew

theorem scan_identifier (rest : List Char) :
    scan (write new ++ rest) = [.hole new] ++ scan rest :=
  scan_write (fun hmem => absurd (isIdentifierChar_of_mem hnew hmem) (by decide)) rest

theorem scan_replace_write :
    scan (replace name (write new) cs) =
      (scan cs).map fun s => if s.name? = some name then .hole new else s := by
  rw [scan_replace (scan_identifier hnew), List.map_eq_flatMap]
  refine List.flatMap_congr fun s _ => ?_
  split <;> rfl

theorem names_replace_write :
    names (replace name (write new) cs) =
      (names cs).map fun n => if n = name then new else n := by
  have hone : [Segment.hole new].filterMap Segment.name? = [new] := by
    simp [Segment.name?, trimChars_identifier hnew]
  rw [names_replace (scan_identifier hnew), hone, List.map_eq_flatMap]
  refine List.flatMap_congr fun n _ => ?_
  split <;> rfl

end Write

/-! ## The placeholders that are left -/

theorem occurs_iff_mem_names : occurs name cs = true ↔ name ∈ names cs := by
  rw [occurs, List.contains_iff_mem]

/-- No placeholder of the name is left, and none comes up. -/
theorem occurs_replace_plain (hr : '\x7b' ∉ r) : occurs name (replace name r cs) = false := by
  rw [← Bool.not_eq_true, occurs_iff_mem_names, names_replace_plain cs hr, List.mem_filter]
  simp

theorem occurs_replace_write {new : List Char} (hnew : isIdentifierChars new = true)
    (hne : name ≠ new) : occurs name (replace name (write new) cs) = false := by
  rw [← Bool.not_eq_true, occurs_iff_mem_names, names_replace_write cs hnew, List.mem_map]
  rintro ⟨n, -, hn⟩
  split at hn
  · exact hne hn.symm
  · next hother => exact hother hn

/-- A name that has been exchanged for a new one is found under the new one. -/
theorem replace_replace {new : List Char} (hnew : isIdentifierChars new = true)
    (hfresh : occurs new cs = false) :
    replace new r (replace name (write new) cs) = replace name r cs := by
  rw [replace, scan_replace_write cs hnew, replace, List.flatMap_map]
  refine List.flatMap_congr fun s hs => ?_
  by_cases hname : s.name? = some name
  · have hhole : (Segment.hole new).name? = some new := congrArg some (trimChars_identifier hnew)
    rw [if_pos hname, if_pos hname, if_pos hhole]
  · have hother : s.name? ≠ some new := by
      intro heq
      rw [occurs_iff.2 ⟨s, hs, heq⟩] at hfresh
      cases hfresh
    rw [if_neg hname, if_neg hname, if_neg hother]

end Replace

end EventReport.Text.Placeholder
