/-
# Lines that keep to themselves

A text is cut into lines at line feeds, so the lines of a statement come back out
of it only if none of them holds a line feed (`splitLines_joinLines`).  Two braces
that open a placeholder must not reach across lines either: a line is *neat* if it
holds no control character and each opening brace in it is followed, on the same
line, by a mark that no name holds.  Neat parts make neat lines.
-/
import EventReport.Proofs.Text.Character
import EventReport.Text.Lines
import EventReport.Text.Quoted

namespace EventReport.Text

/-! ## Cutting -/

theorem splitLines_of_not_mem {line : List Char} (h : '\n' ∉ line) : splitLines line = [line] := by
  induction line with
  | nil => rfl
  | cons c cs ih =>
    simp only [List.mem_cons, not_or] at h
    rw [splitLines, if_neg (Ne.symm h.1), ih h.2]

theorem splitLines_append_newline {line : List Char} (h : '\n' ∉ line) (rest : List Char) :
    splitLines (line ++ '\n' :: rest) = line :: splitLines rest := by
  induction line with
  | nil => simp [splitLines]
  | cons c cs ih =>
    simp only [List.mem_cons, not_or] at h
    rw [List.cons_append, splitLines, if_neg (Ne.symm h.1), ih h.2]

theorem joinLines_cons {line : List Char} {ls : List (List Char)} (h : ls ≠ []) :
    joinLines (line :: ls) = line ++ '\n' :: joinLines ls := by
  cases ls with
  | nil => exact absurd rfl h
  | cons m ms => rfl

theorem joinLines_append_cons (before after : List (List Char)) (line : List Char) :
    joinLines (before ++ line :: after) =
      before.flatMap (· ++ ['\n']) ++ (line ++ after.flatMap ('\n' :: ·)) := by
  have hafter : ∀ line, joinLines (line :: after) = line ++ after.flatMap ('\n' :: ·) := by
    induction after with
    | nil => intro line; simp [joinLines]
    | cons m after ih =>
      intro line
      rw [joinLines_cons (List.cons_ne_nil m after), ih]
      simp
  induction before with
  | nil => exact hafter line
  | cons b before ih =>
    rw [List.cons_append, joinLines_cons (by simp), ih]
    simp

/-- Lines without line feeds are the lines of their text. -/
theorem splitLines_joinLines {ls : List (List Char)} (hne : ls ≠ [])
    (h : ∀ line ∈ ls, '\n' ∉ line) : splitLines (joinLines ls) = ls := by
  induction ls with
  | nil => exact absurd rfl hne
  | cons line ls ih =>
    have hline : '\n' ∉ line := h line (by simp)
    by_cases hls : ls = []
    · subst hls
      exact splitLines_of_not_mem hline
    · rw [joinLines_cons hls, splitLines_append_newline hline,
        ih hls fun m hm => h m (by simp [hm])]

theorem not_mem_of_mem_splitLines {cs line : List Char} (h : line ∈ splitLines cs) :
    '\n' ∉ line := by
  induction cs generalizing line with
  | nil =>
    obtain rfl : line = [] := by simpa [splitLines] using h
    simp
  | cons c cs ih =>
    simp only [splitLines] at h
    split at h
    · rcases List.mem_cons.1 h with rfl | h
      · simp
      · exact ih h
    · next hc =>
      cases hs : splitLines cs with
      | nil => exact absurd hs (splitLines_ne_nil cs)
      | cons first rest =>
        rw [hs] at h ih
        rcases List.mem_cons.1 h with rfl | h
        · have hfirst : '\n' ∉ first := ih List.mem_cons_self
          simp [hfirst, Ne.symm hc]
        · exact ih (by simp [h])

/-! ## Neat lines -/

/-- A mark that stands in no name and, in a statement, after every opening brace. -/
def isCloser (c : Char) : Bool := c == '\'' || c == '\x60' || c == '\x7d'

/-- Whether every opening brace is followed by a closing mark. -/
def isShut : List Char → Bool
  | [] => true
  | c :: cs => (c != '\x7b' || cs.any isCloser) && isShut cs

/-- Whether a line neither breaks nor leaves an opening brace to the lines after it. -/
def isNeat (line : List Char) : Bool := line.all (!isControl ·) && isShut line

theorem isShut_append {as bs : List Char} (ha : isShut as = true) (hb : isShut bs = true) :
    isShut (as ++ bs) = true := by
  induction as with
  | nil => exact hb
  | cons a as ih =>
    simp only [isShut, Bool.and_eq_true, Bool.or_eq_true] at ha
    simp only [List.cons_append, isShut, List.any_append, Bool.and_eq_true, Bool.or_eq_true]
    exact ⟨ha.1.imp_right Or.inl, ih ha.2⟩

theorem isShut_of_not_mem {cs : List Char} (h : '\x7b' ∉ cs) : isShut cs = true := by
  induction cs with
  | nil => rfl
  | cons c cs ih =>
    simp only [List.mem_cons, not_or] at h
    simp [isShut, Ne.symm h.1, ih h.2]

/-- A closing mark at the end closes every brace before it. -/
theorem isShut_concat (cs : List Char) {c : Char} (hc : isCloser c = true) :
    isShut (cs ++ [c]) = true := by
  induction cs with
  | nil => cases h : c != '\x7b' <;> simp_all [isShut, isCloser]
  | cons d cs ih => simp [isShut, ih, hc]

theorem isNeat_append {s t : List Char} (ha : isNeat s = true) (hb : isNeat t = true) :
    isNeat (s ++ t) = true := by
  simp only [isNeat, Bool.and_eq_true] at ha hb ⊢
  exact ⟨by simp [List.all_append, ha.1, hb.1], isShut_append ha.2 hb.2⟩

theorem isControl_of_isNeat {line : List Char} (h : isNeat line = true) {c : Char} (hc : c ∈ line) :
    isControl c = false := by
  simp only [isNeat, Bool.and_eq_true, List.all_eq_true, Bool.not_eq_true'] at h
  exact h.1 c hc

theorem isShut_of_isNeat {line : List Char} (h : isNeat line = true) : isShut line = true := by
  rw [isNeat, Bool.and_eq_true] at h
  exact h.2

theorem newline_not_mem_of_isNeat {line : List Char} (h : isNeat line = true) : '\n' ∉ line :=
  fun hc => absurd (isControl_of_isNeat h hc) (by decide)

theorem isNeat_of_forall {cs : List Char} (h : ∀ c ∈ cs, isControl c = false ∧ c ≠ '\x7b') :
    isNeat cs = true := by
  have hbrace : '\x7b' ∉ cs := fun hc => (h _ hc).2 rfl
  simp only [isNeat, Bool.and_eq_true, List.all_eq_true, Bool.not_eq_true']
  exact ⟨fun c hc => (h c hc).1, isShut_of_not_mem hbrace⟩

theorem isNeat_identifier {w : List Char} (hw : isIdentifierChars w = true) : isNeat w = true :=
  isNeat_of_forall fun c hc =>
    have hchar := isIdentifierChar_of_mem hw hc
    ⟨isControl_of_isIdentifierChar hchar, ne_of_isIdentifierChar hchar (by decide)⟩

/-- A placeholder closes its own braces. -/
theorem isNeat_write {w : List Char} (hw : isIdentifierChars w = true) :
    isNeat (Placeholder.write w) = true := by
  have hneat := isNeat_identifier hw
  have hopen : isControl '\x7b' = false := by decide
  have hclose : isControl '\x7d' = false := by decide
  have hshut : isShut (('\x7b' :: '\x7b' :: w ++ ['\x7d']) ++ ['\x7d']) = true :=
    isShut_concat _ (by decide)
  simp only [isNeat, Placeholder.write, Bool.and_eq_true, List.all_eq_true, Bool.not_eq_true']
  refine ⟨?_, by simpa using hshut⟩
  intro c hc
  simp only [List.cons_append, List.mem_cons, List.mem_append, List.not_mem_nil, or_false] at hc
  rcases hc with rfl | rfl | hc | rfl | rfl
  · exact hopen
  · exact hopen
  · exact isControl_of_isNeat hneat hc
  · exact hclose
  · exact hclose

/-! ## Quoted texts and tables -/

theorem isControl_hexDigit {n : Nat} (h : n < 16) : isControl (hexDigit n) = false := by
  have : ∀ m : Fin 16, isControl (hexDigit m) = false := by decide
  exact this ⟨n, h⟩

theorem hexDigit_ne {n : Nat} (h : n < 16) :
    hexDigit n ≠ '\\' ∧ hexDigit n ≠ '\'' ∧ hexDigit n ≠ '\x7b' := by
  have : ∀ m : Fin 16, hexDigit m ≠ '\\' ∧ hexDigit m ≠ '\'' ∧ hexDigit m ≠ '\x7b' := by decide
  exact this ⟨n, h⟩

/-- NUL is left out, most characters stand for themselves, and the others are written as a backslash
with a mark, perhaps with hexadecimal digits after it. -/
theorem Quoted.escape_cases (c : Char) :
    (c = '\x00' ∧ escape c = []) ∨
      (escape c = [c] ∧ isControl c = false ∧ c ≠ '\\' ∧ c ≠ '\'') ∨
      ∃ mark digits, escape c = '\\' :: mark :: digits ∧ isControl mark = false ∧ mark ≠ '\x7b' ∧
        ∀ d ∈ digits, ∃ n < 16, d = hexDigit n := by
  have hmark : ∀ mark, isControl mark = false → mark ≠ '\x7b' → ∃ mark' digits,
      ['\\', mark] = '\\' :: mark' :: digits ∧ isControl mark' = false ∧ mark' ≠ '\x7b' ∧
        ∀ d ∈ digits, ∃ n < 16, d = hexDigit n :=
    fun mark hcontrol hbrace => ⟨mark, [], rfl, hcontrol, hbrace, by simp⟩
  have hdigits : ∀ d ∈ hex4 c.toNat, ∃ n < 16, d = hexDigit n := by
    intro d hd
    simp only [hex4, List.mem_cons, List.not_mem_nil, or_false] at hd
    rcases hd with rfl | rfl | rfl | rfl <;> exact ⟨_, Nat.mod_lt _ (by decide), rfl⟩
  unfold escape
  split
  · next h => exact .inl ⟨Char.toNat_inj.1 h, rfl⟩
  split
  · exact .inr (.inr (hmark '\\' (by decide) (by decide)))
  split
  · exact .inr (.inr (hmark '\'' (by decide) (by decide)))
  split
  · exact .inr (.inr (hmark 'n' (by decide) (by decide)))
  split
  · exact .inr (.inr (hmark 'r' (by decide) (by decide)))
  split
  · exact .inr (.inr (hmark 't' (by decide) (by decide)))
  split
  · exact .inr (.inr ⟨'u', hex4 c.toNat, rfl, by decide, by decide, hdigits⟩)
  · exact .inr (.inl ⟨rfl, by simpa using ‹¬isControl c = true›, ‹_›, ‹_›⟩)

theorem isControl_of_mem_escape {c d : Char} (h : d ∈ Quoted.escape c) : isControl d = false := by
  rcases Quoted.escape_cases c with ⟨-, hc⟩ | ⟨hc, hcontrol, -, -⟩ |
    ⟨mark, digits, hc, hmark, -, hdigits⟩
  · rw [hc] at h
    cases h
  · rw [hc, List.mem_singleton] at h
    rwa [h]
  · rw [hc] at h
    rcases List.mem_cons.1 h with rfl | h
    · decide
    rcases List.mem_cons.1 h with rfl | h
    · exact hmark
    · obtain ⟨n, hn, rfl⟩ := hdigits d h
      exact isControl_hexDigit hn

/-- An opening brace stands for itself, and it is part of no escape. -/
theorem eq_of_brace_mem_escape {c : Char} (h : '\x7b' ∈ Quoted.escape c) :
    c = '\x7b' ∧ Quoted.escape c = ['\x7b'] := by
  rcases Quoted.escape_cases c with ⟨-, hc⟩ | ⟨hc, -⟩ | ⟨mark, digits, hc, -, hmark, hdigits⟩
  · rw [hc] at h
    cases h
  · rw [hc, List.mem_singleton] at h
    subst h
    exact ⟨rfl, hc⟩
  · rw [hc] at h
    rcases List.mem_cons.1 h with h | h
    · exact absurd h (by decide)
    rcases List.mem_cons.1 h with h | h
    · exact absurd h.symm hmark
    · obtain ⟨n, hn, hbrace⟩ := hdigits _ h
      exact absurd hbrace.symm (hexDigit_ne hn).2.2

theorem isNeat_quoted (s : List Char) : isNeat (Quoted.chars s) = true := by
  have hbody : ∀ c ∈ Quoted.body s, isControl c = false := by
    intro c hc
    obtain ⟨d, -, hd⟩ := List.mem_flatMap.1 hc
    exact isControl_of_mem_escape hd
  have hshut : isShut ('\'' :: Quoted.body s ++ ['\'']) = true := isShut_concat _ (by decide)
  have hquote : isControl '\'' = false := by decide
  simp only [isNeat, Quoted.chars, Bool.and_eq_true, List.all_eq_true, Bool.not_eq_true']
  refine ⟨?_, hshut⟩
  intro c hc
  simp only [List.cons_append, List.mem_cons, List.mem_append, List.not_mem_nil, or_false] at hc
  rcases hc with rfl | hc | rfl
  · exact hquote
  · exact hbody c hc
  · exact hquote

theorem isNeat_quoteTable (name : String) : isNeat (quoteTable name).toList = true := by
  have hback : isControl '\x60' = false := by decide
  simp only [isNeat, quoteTable, String.toList_ofList, Bool.and_eq_true, List.all_eq_true,
    Bool.not_eq_true']
  refine ⟨?_, isShut_concat _ (by decide)⟩
  intro c hc
  simp only [List.cons_append, List.mem_cons, List.mem_append, List.mem_filter, List.not_mem_nil,
    or_false, Bool.and_eq_true, Bool.not_eq_true'] at hc
  rcases hc with rfl | ⟨-, -, hc⟩ | rfl
  · exact hback
  · exact hc
  · exact hback

end EventReport.Text
