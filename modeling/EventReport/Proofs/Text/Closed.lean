/-
# Texts that close the braces they open

What a text means after another depends on whether the other one leaves braces open.
If it does not, the two are scanned each by itself (`scan_append_of_closed`); so lines
that close their braces are scanned line by line, and placeholders are found and
replaced in each line as if it stood alone (`occurs_joinLines`, `replace_joinLines`).

That a text closes its braces can be said without scanning it: each two opening
braces in it have two closing ones behind them (`ClosesBraces`).
-/
import EventReport.Proofs.Text.Resumption

namespace EventReport.Text.Placeholder

/-- Each two opening braces have two closing braces behind them. -/
def ClosesBraces (cs : List Char) : Prop :=
  ∀ before rest, cs = before ++ '\x7b' :: '\x7b' :: rest → ['\x7d', '\x7d'] <:+: rest

theorem splitAtClose?_isSome_iff {cs : List Char} :
    (splitAtClose? cs).isSome = true ↔ ['\x7d', '\x7d'] <:+: cs := by
  constructor
  · intro h
    obtain ⟨⟨inner, after⟩, hs⟩ := Option.isSome_iff_exists.1 h
    exact ⟨inner, after, by simp [eq_of_splitAtClose? hs]⟩
  · rintro ⟨inner, after, rfl⟩
    induction inner with
    | nil => simp [splitAtClose?]
    | cons c inner ih =>
      rw [List.cons_append, List.cons_append]
      generalize inner ++ ['\x7d', '\x7d'] ++ after = cs at ih
      cases cs with
      | nil => cases ih
      | cons d cs =>
        rw [splitAtClose?]
        split
        · rfl
        · rw [Option.isSome_map]
          exact ih

namespace ClosesBraces

variable {cs : List Char}

theorem of_append (ds : List Char) (h : ClosesBraces (ds ++ cs)) : ClosesBraces cs := by
  intro before rest heq
  exact h (ds ++ before) rest (by rw [heq, List.append_assoc])

theorem leavesOpen_eq_false (h : ClosesBraces cs) : leavesOpen cs = false := by
  fun_induction leavesOpen cs with
  | case1 => rfl
  | case2 => rfl
  | case3 c d rest hopen inner after hs ih =>
    refine ih (of_append (c :: d :: (inner ++ ['\x7d', '\x7d'])) ?_)
    rw [eq_of_splitAtClose? hs] at h
    simpa using h
  | case4 c d rest hopen hs =>
    obtain ⟨rfl, rfl⟩ := hopen
    have hclosed := splitAtClose?_isSome_iff.2 (h [] rest rfl)
    rw [hs] at hclosed
    cases hclosed
  | case5 c d rest _ ih => exact ih (of_append [c] h)

end ClosesBraces

theorem closesBraces_of_not_mem {cs : List Char} (h : '\x7b' ∉ cs) : ClosesBraces cs := by
  rintro before rest rfl
  exact absurd (List.mem_append_right before List.mem_cons_self) h

/-! ## One closed text after another -/

theorem scan_append_of_closed {cs ds : List Char} (hsep : Separate cs ds)
    (hclosed : leavesOpen cs = false) : scan (cs ++ ds) = scan cs ++ scan ds := by
  fun_induction scan cs with
  | case1 => rfl
  | case2 c =>
    rw [List.singleton_append, scan_cons ?_]
    · rfl
    · rintro rfl hhead
      exact (hsep '\x7b' rfl '\x7b' hhead).1 ⟨rfl, rfl⟩
  | case3 c d rest hopen inner after hs ih =>
    obtain ⟨rfl, rfl⟩ := hopen
    have hcs : '\x7b' :: '\x7b' :: rest =
        ('\x7b' :: '\x7b' :: inner ++ ['\x7d', '\x7d']) ++ after := by
      simp [eq_of_splitAtClose? hs]
    rw [leavesOpen_hole hs] at hclosed
    rw [List.cons_append, List.cons_append, scan_hole (splitAtClose?_append ds hs),
      ih (Separate.of_append (hcs ▸ hsep)) hclosed]
    rfl
  | case4 c d rest hopen hs =>
    obtain ⟨rfl, rfl⟩ := hopen
    rw [leavesOpen_open hs] at hclosed
    cases hclosed
  | case5 c d rest hopen ih =>
    have hc : c = '\x7b' → (d :: rest).head? ≠ some '\x7b' :=
      fun hc he => hopen ⟨hc, by simpa using he⟩
    rw [leavesOpen_cons hc] at hclosed
    rw [List.cons_append, scan_cons (by simpa using hc), ih hsep.of_cons hclosed]
    rfl

section Lines

variable {name : List Char} {lines : List (List Char)}

/-- A line feed is a character like any other, so the lines are scanned one by one. -/
theorem scan_line {line rest : List Char} (hclosed : leavesOpen line = false) :
    scan (line ++ '\n' :: rest) = scan line ++ .char '\n' :: scan rest := by
  rw [scan_append_of_closed (separate_cons (by decide) (by decide) line rest) hclosed,
    scan_cons fun hc => absurd hc (by decide)]

theorem replace_append_of_not_mem {r front : List Char} (h : '\x7b' ∉ front) (cs : List Char) :
    replace name r (front ++ cs) = front ++ replace name r cs := by
  rw [replace, scan_append h, List.flatMap_append, List.flatMap_map]
  simp [replace, Segment.name?, Segment.source]

theorem occurs_joinLines (hclosed : ∀ line ∈ lines, leavesOpen line = false) :
    occurs name (joinLines lines) = lines.any (occurs name) := by
  induction lines with
  | nil => simp [joinLines, occurs, names, scan_nil]
  | cons line lines ih =>
    obtain ⟨hline, hlines⟩ := List.forall_mem_cons.1 hclosed
    cases lines with
    | nil => simp [joinLines]
    | cons m lines =>
      have ih := ih hlines
      rw [joinLines_cons (List.cons_ne_nil m lines), List.any_cons, ← ih]
      simp [occurs, names, scan_line hline, Segment.name?]

theorem replace_joinLines {r : List Char} (hclosed : ∀ line ∈ lines, leavesOpen line = false) :
    replace name r (joinLines lines) = joinLines (lines.map (replace name r)) := by
  induction lines with
  | nil => exact replace_nil
  | cons line lines ih =>
    obtain ⟨hline, hlines⟩ := List.forall_mem_cons.1 hclosed
    cases lines with
    | nil => rfl
    | cons m lines =>
      have hmap : (m :: lines).map (replace name r) ≠ [] := by simp
      rw [joinLines_cons (List.cons_ne_nil m lines), List.map_cons, joinLines_cons hmap, ← ih hlines]
      simp [replace, scan_line hline, Segment.name?, Segment.source]

end Lines

end EventReport.Text.Placeholder
