/-
Tokens of one line of SQL.

A line is read only as far as filters need: words, quoted literals, numbers,
placeholders, the brackets of optional conditions and single symbols.  A line
with an unclosed literal or placeholder, or with a comment, has no tokens.  A
token keeps its spelling, so that a filter can be written back as it was.
-/
import EventReport.Text.Letter
import EventReport.Text.Placeholder

namespace EventReport

open Text

inductive Token where
  /-- A word or keyword; between backticks, with them. -/
  | word (spelling : List Char)
  /-- A quoted literal, with its quotes. -/
  | quoted (spelling : List Char)
  | number (spelling : List Char)
  /-- A placeholder, by its name. -/
  | placeholder (name : List Char)
  /-- The brackets that open an optional condition. -/
  | openOptional
  | closeOptional
  | symbol (spelling : List Char)
deriving DecidableEq, Repr

namespace Token

/-- A character that may begin a word. -/
def isWordStart (c : Char) : Bool := isLetter c || c == '_'

/-- A character that may continue a word. -/
def isWordChar (c : Char) : Bool := isLetter c || isNumeral c || c == '_'

def isNumberChar (c : Char) : Bool := c.isDigit || c == '.'

/-- The symbols of two characters. -/
def pairs : List (Char × Char) := [('!', '='), ('<', '>'), ('<', '='), ('>', '=')]

/-- Splits a text after the closing quote. A backslash takes the next character with it. -/
def splitAfterQuote? (quote : Char) : List Char → Option (List Char × List Char)
  | [] => none
  | '\\' :: [] => none
  | '\\' :: c :: rest =>
    (splitAfterQuote? quote rest).map fun (body, after) => ('\\' :: c :: body, after)
  | c :: rest =>
    if c = quote then some ([c], rest)
    else (splitAfterQuote? quote rest).map fun (body, after) => (c :: body, after)

/-- Splits a text after its first backtick. -/
def splitAfterBacktick? : List Char → Option (List Char × List Char)
  | [] => none
  | c :: rest =>
    if c = '\x60' then some ([c], rest)
    else (splitAfterBacktick? rest).map fun (body, after) => (c :: body, after)

/-- The token that begins with `c`, which is not blank, and the text after it. -/
def next? (c : Char) (rest : List Char) : Option (Token × List Char) :=
  if c = '\'' ∨ c = '"' then
    (splitAfterQuote? c rest).map fun (body, after) => (quoted (c :: body), after)
  else if c = '\x60' then
    (splitAfterBacktick? rest).map fun (body, after) => (word (c :: body), after)
  else if c = '#' then none
  else if c.isDigit then
    some (number (c :: rest.takeWhile isNumberChar), rest.dropWhile isNumberChar)
  else if isWordStart c then
    some (word (c :: rest.takeWhile isWordChar), rest.dropWhile isWordChar)
  else
    match rest with
    | [] => some (symbol [c], [])
    | d :: after =>
      if c = '\x7b' ∧ d = '\x7b' then
        (Placeholder.splitAtClose? after).map fun (inner, after) =>
          (placeholder (trimChars inner), after)
      else if c = '[' ∧ d = '[' then some (openOptional, after)
      else if c = ']' ∧ d = ']' then some (closeOptional, after)
      else if c = '-' ∧ d = '-' then none
      else if (c, d) ∈ pairs then some (symbol [c, d], after)
      else some (symbol [c], rest)

theorem splitAfterQuote?_eq {quote : Char} {cs body after : List Char}
    (h : splitAfterQuote? quote cs = some (body, after)) : cs = body ++ after := by
  fun_induction splitAfterQuote? quote cs generalizing body with
  | case1 => simp at h
  | case2 => simp at h
  | case3 c rest ih =>
    obtain ⟨⟨b, a⟩, hb, he⟩ := Option.map_eq_some_iff.1 h
    simp at he
    obtain ⟨rfl, rfl⟩ := he
    simp [ih hb]
  | case4 => simp at h; simp [← h.1, ← h.2]
  | case5 c rest _ _ _ ih =>
    obtain ⟨⟨b, a⟩, hb, he⟩ := Option.map_eq_some_iff.1 h
    simp at he
    obtain ⟨rfl, rfl⟩ := he
    simp [ih hb]

theorem splitAfterBacktick?_eq {cs body after : List Char}
    (h : splitAfterBacktick? cs = some (body, after)) : cs = body ++ after := by
  fun_induction splitAfterBacktick? cs generalizing body with
  | case1 => simp at h
  | case2 => simp at h; simp [← h.1, ← h.2]
  | case3 c rest _ ih =>
    obtain ⟨⟨b, a⟩, hb, he⟩ := Option.map_eq_some_iff.1 h
    simp at he
    obtain ⟨rfl, rfl⟩ := he
    simp [ih hb]

/-- A token takes at least its first character. -/
theorem length_next? {c : Char} {rest after : List Char} {t : Token}
    (h : next? c rest = some (t, after)) : after.length ≤ rest.length := by
  unfold next? at h
  split at h
  · obtain ⟨⟨b, a⟩, hb, he⟩ := Option.map_eq_some_iff.1 h
    simp at he
    simp [splitAfterQuote?_eq hb, he.2]
  split at h
  · obtain ⟨⟨b, a⟩, hb, he⟩ := Option.map_eq_some_iff.1 h
    simp at he
    simp [splitAfterBacktick?_eq hb, he.2]
  split at h
  · simp at h
  split at h
  · simp at h; rw [← h.2]; exact (List.dropWhile_sublist _).length_le
  split at h
  · simp at h; rw [← h.2]; exact (List.dropWhile_sublist _).length_le
  split at h
  · simp at h; simp [← h.2]
  · rename_i d tail
    split at h
    · obtain ⟨⟨b, a⟩, hb, he⟩ := Option.map_eq_some_iff.1 h
      simp at he
      have := congrArg List.length (Placeholder.eq_of_splitAtClose? hb)
      simp [← he.2] at this ⊢
      omega
    all_goals grind

end Token

/-- The tokens of a line, if it is well-formed. -/
def tokenize : List Char → Option (List Token)
  | [] => some []
  | c :: rest =>
    if isBlank c then tokenize rest
    else
      match _h : Token.next? c rest with
      | none => none
      | some (t, after) => (tokenize after).map (t :: ·)
termination_by cs => cs.length
decreasing_by
  · simp
  · have := Token.length_next? _h
    simp
    omega

end EventReport
