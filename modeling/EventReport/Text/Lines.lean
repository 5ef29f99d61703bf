/-
A text as its lines.

Only the line feed separates lines, and the two functions are inverse on every
text; a text always has at least one line.
-/

namespace EventReport.Text

/-- The pieces between line feeds. -/
def splitLines : List Char → List (List Char)
  | [] => [[]]
  | c :: cs =>
    if c = '\n' then [] :: splitLines cs
    else match splitLines cs with
      | [] => [[c]]
      | line :: rest => (c :: line) :: rest

/-- The lines with a line feed between each two. -/
def joinLines : List (List Char) → List Char
  | [] => []
  | [line] => line
  | line :: rest => line ++ '\n' :: joinLines rest

theorem splitLines_ne_nil (cs : List Char) : splitLines cs ≠ [] := by
  cases cs with
  | nil => simp [splitLines]
  | cons c cs =>
    simp only [splitLines]
    split
    · simp
    · split <;> simp

theorem joinLines_splitLines (cs : List Char) : joinLines (splitLines cs) = cs := by
  induction cs with
  | nil => rfl
  | cons c cs ih =>
    simp only [splitLines]
    have ne := splitLines_ne_nil cs
    split
    · subst_vars
      cases h : splitLines cs with
      | nil => exact absurd h ne
      | cons l ls => rw [h] at ih; simp [joinLines, ih]
    · cases h : splitLines cs with
      | nil => exact absurd h ne
      | cons l ls =>
        rw [h] at ih
        cases ls with
        | nil => simp only [joinLines] at ih ⊢; rw [ih]
        | cons m ms => simp only [joinLines] at ih ⊢; rw [List.cons_append, ih]

end EventReport.Text
