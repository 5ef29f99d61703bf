/-
Placeholders in a text.

A placeholder is a name in double braces; the dashboard tool puts the value of
the variable of that name in its place.  A text is scanned from the left: the
first two opening braces begin a placeholder, the first two closing braces after
them end it, and where none follow, the rest of the text holds no placeholder.
-/
import EventReport.Text.Blank

namespace EventReport.Text.Placeholder

/-- The placeholder with the given text between its braces. -/
def write (inner : List Char) : List Char := '\x7b' :: '\x7b' :: inner ++ ['\x7d', '\x7d']

/-- Splits a text at its first two closing braces, which belong to neither part. -/
def splitAtClose? : List Char → Option (List Char × List Char)
  | [] => none
  | [_] => none
  | c :: d :: rest =>
    if c = '\x7d' ∧ d = '\x7d' then some ([], rest)
    else (splitAtClose? (d :: rest)).map fun (inner, after) => (c :: inner, after)

theorem eq_of_splitAtClose? {cs inner after : List Char}
    (h : splitAtClose? cs = some (inner, after)) :
    cs = inner ++ '\x7d' :: '\x7d' :: after := by
  fun_induction splitAtClose? cs generalizing inner with
  | case1 => simp at h
  | case2 => simp at h
  | case3 c d rest hc => simp at h; obtain ⟨rfl, rfl⟩ := hc; simp [h]
  | case4 c d rest hc ih =>
    obtain ⟨⟨i, a⟩, hi, he⟩ := Option.map_eq_some_iff.1 h
    simp at he
    obtain ⟨rfl, rfl⟩ := he
    simp [← ih hi]

/-- A text is made of characters outside placeholders and of holes, each with the text between its
braces. -/
inductive Segment where
  | char (c : Char)
  | hole (inner : List Char)
deriving DecidableEq, Repr

namespace Segment

/-- The segment as it stands in the text. -/
def source : Segment → List Char
  | char c => [c]
  | hole inner => write inner

/-- The name of a hole. -/
def name? : Segment → Option (List Char)
  | char _ => none
  | hole inner => some (trimChars inner)

end Segment

/-- The segments of a text. -/
def scan : List Char → List Segment
  | [] => []
  | [c] => [.char c]
  | c :: d :: rest =>
    if c = '\x7b' ∧ d = '\x7b' then
      match _h : splitAtClose? rest with
      | some (inner, after) => .hole inner :: scan after
      | none => (c :: d :: rest).map .char
    else .char c :: scan (d :: rest)
termination_by cs => cs.length
decreasing_by
  · have := congrArg List.length (eq_of_splitAtClose? _h)
    simp at this ⊢
    omega
  · simp

/-- No character is lost. -/
theorem source_scan (cs : List Char) : (scan cs).flatMap Segment.source = cs := by
  have chars (xs : List Char) : (xs.map Segment.char).flatMap Segment.source = xs := by
    induction xs with
    | nil => rfl
    | cons x xs ih => simp only [List.map_cons, List.flatMap_cons, ih]; rfl
  fun_induction scan cs with
  | case1 => rfl
  | case2 => rfl
  | case3 c d rest hc inner after hs ih =>
    obtain ⟨rfl, rfl⟩ := hc
    simp [Segment.source, write, ih, eq_of_splitAtClose? hs]
  | case4 c d rest hc hs => exact chars _
  | case5 c d rest hc ih => simp [Segment.source, ih]

/-- The names of the placeholders in a text, in order. -/
def names (cs : List Char) : List (List Char) := (scan cs).filterMap Segment.name?

/-- Whether a placeholder of the name occurs. -/
def occurs (name cs : List Char) : Bool := (names cs).contains name

/-- The text with every placeholder of the name replaced. -/
def replace (name replacement cs : List Char) : List Char :=
  (scan cs).flatMap fun s => if s.name? = some name then replacement else s.source

end EventReport.Text.Placeholder
