/-
# Where one token ends and the next begins

A line is written part by part, and its tokens are wanted part by part too.  That
is not so for any two texts: `ab` next to `cd` is one word.  The main statement,
`tokenize_append`, says when it is: a well-formed text keeps its tokens whatever
follows it, as long as the next character is one that no token goes on with.

Blanks, commas and parentheses are such characters, and each of them stands for
itself, so what is written with them between the parts has the tokens of the
parts (`tokenize_separated`).
-/
import EventReport.Proofs.Text.Character
import EventReport.Proofs.Text.Placeholder

namespace EventReport

open Text

namespace Token

/-- A character that continues no token and is not the second one of a pair. -/
def isApart (c : Char) : Bool :=
  !isWordChar c && !isNumberChar c && !(['\x7b', '[', ']', '-', '=', '>'].contains c)

theorem splitAfterQuote?_cons {quote c : Char} (rest : List Char) (hc : c ≠ '\\') :
    splitAfterQuote? quote (c :: rest) =
      if c = quote then some ([c], rest)
      else (splitAfterQuote? quote rest).map fun (body, after) => (c :: body, after) := by
  cases rest with
  | nil => simp [splitAfterQuote?, hc]
  | cons d rest => simp [splitAfterQuote?, hc]

theorem splitAfterQuote?_append {quote : Char} {cs body after : List Char} (rest : List Char)
    (h : splitAfterQuote? quote cs = some (body, after)) :
    splitAfterQuote? quote (cs ++ rest) = some (body, after ++ rest) := by
  fun_induction splitAfterQuote? quote cs generalizing body with
  | case1 => simp at h
  | case2 => simp at h
  | case3 c cs ih =>
    obtain ⟨⟨b, a⟩, hb, he⟩ := Option.map_eq_some_iff.1 h
    simp at he
    obtain ⟨rfl, rfl⟩ := he
    simp [splitAfterQuote?, ih hb]
  | case4 cs hnil hcons =>
    obtain ⟨rfl, rfl⟩ := by simpa using h
    have hc : quote ≠ '\\' := by
      intro e
      cases cs with
      | nil => exact hnil e rfl
      | cons d ds => exact hcons d ds e rfl
    rw [List.cons_append, splitAfterQuote?_cons _ hc, if_pos rfl]
  | case5 c cs hnil hcons hq ih =>
    obtain ⟨⟨b, a⟩, hb, he⟩ := Option.map_eq_some_iff.1 h
    simp at he
    obtain ⟨rfl, rfl⟩ := he
    have hc : c ≠ '\\' := by
      intro e
      cases cs with
      | nil => exact hnil e rfl
      | cons d ds => exact hcons d ds e rfl
    rw [List.cons_append, splitAfterQuote?_cons _ hc, if_neg hq, ih hb]
    rfl

theorem splitAfterBacktick?_append {cs body after : List Char} (rest : List Char)
    (h : splitAfterBacktick? cs = some (body, after)) :
    splitAfterBacktick? (cs ++ rest) = some (body, after ++ rest) := by
  fun_induction splitAfterBacktick? cs generalizing body with
  | case1 => simp at h
  | case2 cs =>
    obtain ⟨rfl, rfl⟩ := by simpa using h
    simp [splitAfterBacktick?]
  | case3 c cs hc ih =>
    obtain ⟨⟨b, a⟩, hb, he⟩ := Option.map_eq_some_iff.1 h
    simp at he
    obtain ⟨rfl, rfl⟩ := he
    simp [splitAfterBacktick?, hc, ih hb]

theorem takeWhile_append_of_head {p : Char → Bool} {rest : List Char}
    (h : ∀ d ∈ rest.head?, p d = false) (cs : List Char) :
    (cs ++ rest).takeWhile p = cs.takeWhile p := by
  induction cs with
  | nil => cases rest <;> simp_all
  | cons c cs ih => cases hc : p c <;> simp [hc, ih]

theorem dropWhile_append_of_head {p : Char → Bool} {rest : List Char}
    (h : ∀ d ∈ rest.head?, p d = false) (cs : List Char) :
    (cs ++ rest).dropWhile p = cs.dropWhile p ++ rest := by
  induction cs with
  | nil => cases rest <;> simp_all
  | cons c cs ih => cases hc : p c <;> simp [hc, ih]

/-! ## Words and numbers -/

theorem next?_digit {c : Char} (h : c.isDigit = true) (cs : List Char) :
    next? c cs = some (.number (c :: cs.takeWhile isNumberChar), cs.dropWhile isNumberChar) := by
  have hne : ∀ {d : Char}, d.isDigit = false → c ≠ d := by
    rintro d hd rfl
    rw [h] at hd
    cases hd
  have hquote : ¬(c = '\'' ∨ c = '"') := not_or.2 ⟨hne (by decide), hne (by decide)⟩
  have hback : c ≠ '\x60' := hne (by decide)
  have hhash : c ≠ '#' := hne (by decide)
  simp only [next?, hquote, hback, hhash, h, if_false, if_true]

theorem next?_wordStart {c : Char} (hdigit : c.isDigit = false) (h : isWordStart c = true)
    (cs : List Char) :
    next? c cs = some (.word (c :: cs.takeWhile isWordChar), cs.dropWhile isWordChar) := by
  have hne : ∀ {d : Char}, isWordStart d = false → c ≠ d := by
    rintro d hd rfl
    rw [h] at hd
    cases hd
  have hquote : ¬(c = '\'' ∨ c = '"') := not_or.2 ⟨hne (by decide), hne (by decide)⟩
  have hback : c ≠ '\x60' := hne (by decide)
  have hhash : c ≠ '#' := hne (by decide)
  simp only [next?, hquote, hback, hhash, hdigit, h, if_false, if_true, Bool.false_eq_true]

/-- A run of characters is taken from the front of a text that does not go on with it. -/
theorem takeWhile_append_self {p : Char → Bool} {cs rest : List Char} (hcs : ∀ d ∈ cs, p d = true)
    (hrest : ∀ d ∈ rest.head?, p d = false) : (cs ++ rest).takeWhile p = cs := by
  rw [takeWhile_append_of_head hrest, List.takeWhile_eq_self_iff.2 hcs]

theorem dropWhile_append_self {p : Char → Bool} {cs rest : List Char} (hcs : ∀ d ∈ cs, p d = true)
    (hrest : ∀ d ∈ rest.head?, p d = false) : (cs ++ rest).dropWhile p = rest := by
  rw [dropWhile_append_of_head hrest, List.dropWhile_eq_nil_iff.2 hcs, List.nil_append]

theorem next?_number {c : Char} {cs rest : List Char} (h : c.isDigit = true)
    (hcs : ∀ d ∈ cs, isNumberChar d = true) (hrest : ∀ d ∈ rest.head?, isNumberChar d = false) :
    next? c (cs ++ rest) = some (.number (c :: cs), rest) := by
  rw [next?_digit h, takeWhile_append_self hcs hrest, dropWhile_append_self hcs hrest]

theorem next?_word {c : Char} {cs rest : List Char} (hdigit : c.isDigit = false)
    (h : isWordStart c = true) (hcs : ∀ d ∈ cs, isWordChar d = true)
    (hrest : ∀ d ∈ rest.head?, isWordChar d = false) :
    next? c (cs ++ rest) = some (.word (c :: cs), rest) := by
  rw [next?_wordStart hdigit h, takeWhile_append_self hcs hrest, dropWhile_append_self hcs hrest]

/-! ## A token in front of other text -/

theorem isApart_iff {c : Char} :
    isApart c = true ↔ isWordChar c = false ∧ isNumberChar c = false ∧ c ≠ '\x7b' ∧ c ≠ '[' ∧
      c ≠ ']' ∧ c ≠ '-' ∧ c ≠ '=' ∧ c ≠ '>' := by
  simp [isApart, and_assoc]

section Symbol

variable {c : Char} (hq : ¬(c = '\'' ∨ c = '"')) (hb : c ≠ '\x60') (hn : c ≠ '#')
  (hd : c.isDigit = false) (hw : isWordStart c = false)

include hq hb hn hd hw

/-- The first token is a placeholder, a bracket or a symbol. -/
theorem next?_symbol_append {cs after rest : List Char} {t : Token}
    (h : next? c cs = some (t, after)) (hrest : ∀ d ∈ rest.head?, isApart d = true) :
    next? c (cs ++ rest) = some (t, after ++ rest) := by
  unfold next? at h ⊢
  simp only [hq, hb, hn, hd, hw, if_false, Bool.false_eq_true] at h ⊢
  cases cs with
  | nil =>
    cases rest with
    | nil => simpa using h
    | cons d rest =>
      obtain ⟨-, -, h1, h2, h3, h4, h5, h6⟩ := isApart_iff.1 (hrest d rfl)
      obtain ⟨rfl, rfl⟩ := by simpa using h
      simp [h1, h2, h3, h4, h5, h6, pairs]
  | cons d cs =>
    simp only [List.cons_append] at h ⊢
    split at h
    · obtain ⟨⟨i, a⟩, hi, he⟩ := Option.map_eq_some_iff.1 h
      obtain ⟨rfl, rfl⟩ := by simpa using he
      rw [Placeholder.splitAtClose?_append rest hi]
      simp [*]
    all_goals grind

end Symbol

/-- A token that is read from a text is read from every longer one too, unless the next character
continues it. -/
theorem next?_append {c : Char} {cs after rest : List Char} {t : Token}
    (h : next? c cs = some (t, after)) (hrest : ∀ d ∈ rest.head?, isApart d = true) :
    next? c (cs ++ rest) = some (t, after ++ rest) := by
  by_cases hq : c = '\'' ∨ c = '"'
  · simp only [next?, hq, if_true] at h ⊢
    obtain ⟨⟨b, a⟩, hb, he⟩ := Option.map_eq_some_iff.1 h
    obtain ⟨rfl, rfl⟩ := by simpa using he
    rw [splitAfterQuote?_append rest hb]
    rfl
  by_cases hb : c = '\x60'
  · subst hb
    obtain ⟨b, hb, rfl⟩ : ∃ b, splitAfterBacktick? cs = some (b, after) ∧ word ('\x60' :: b) = t := by
      simpa [next?] using h
    simp [next?, splitAfterBacktick?_append rest hb]
  by_cases hn : c = '#'
  · simp [next?, hn] at h
  by_cases hd : c.isDigit = true
  · rw [next?_digit hd] at h ⊢
    obtain ⟨rfl, rfl⟩ := by simpa using h
    have hr : ∀ d ∈ rest.head?, isNumberChar d = false := fun d hd =>
      (isApart_iff.1 (hrest d hd)).2.1
    rw [takeWhile_append_of_head hr, dropWhile_append_of_head hr]
  rw [Bool.not_eq_true] at hd
  by_cases hw : isWordStart c = true
  · rw [next?_wordStart hd hw] at h ⊢
    obtain ⟨rfl, rfl⟩ := by simpa using h
    have hr : ∀ d ∈ rest.head?, isWordChar d = false := fun d hd =>
      (isApart_iff.1 (hrest d hd)).1
    rw [takeWhile_append_of_head hr, dropWhile_append_of_head hr]
  exact next?_symbol_append hq hb hn hd (by simpa using hw) h hrest

end Token

/-! ## Lines -/

theorem tokenize_nil : tokenize [] = some [] := by
  simp [tokenize]

theorem tokenize_blank {c : Char} (cs : List Char) (h : isBlank c = true) :
    tokenize (c :: cs) = tokenize cs := by
  rw [tokenize, if_pos h]

theorem tokenize_next {c : Char} {cs after : List Char} {t : Token} (h : isBlank c = false)
    (hn : Token.next? c cs = some (t, after)) :
    tokenize (c :: cs) = (tokenize after).map (t :: ·) := by
  rw [tokenize, if_neg (by simp [h])]
  split
  · next hnone => simp [hn] at hnone
  · next t' after' hsome =>
    obtain ⟨rfl, rfl⟩ : t = t' ∧ after = after' := by simpa [hn] using hsome
    rfl

theorem tokenize_next_none {c : Char} {cs : List Char} (h : isBlank c = false)
    (hn : Token.next? c cs = none) : tokenize (c :: cs) = none := by
  rw [tokenize, if_neg (by simp [h])]
  split
  · rfl
  · next hsome => simp [hn] at hsome

/-- The tokens of a line that has at most `n` of them and of blanks. `tokenize` goes on with whatever
text is left after a token; this goes by the number, so that it can be computed. -/
def tokenizeWithin : Nat → List Char → Option (List Token)
  | _, [] => some []
  | 0, _ :: _ => none
  | n + 1, c :: rest =>
    if isBlank c then tokenizeWithin n rest
    else
      match Token.next? c rest with
      | none => none
      | some (t, after) => (tokenizeWithin n after).map (t :: ·)

theorem tokenizeWithin_eq {n : Nat} {cs : List Char} (h : cs.length ≤ n) :
    tokenizeWithin n cs = tokenize cs := by
  induction n generalizing cs with
  | zero =>
    rw [List.eq_nil_of_length_eq_zero (Nat.le_zero.1 h), tokenize_nil]
    rfl
  | succ n ih =>
    cases cs with
    | nil => rw [tokenize_nil, tokenizeWithin]
    | cons c rest =>
      rw [List.length_cons, Nat.add_le_add_iff_right] at h
      rw [tokenizeWithin]
      split
      · next hblank => rw [tokenize_blank _ hblank, ih h]
      · next hblank =>
        have hb : isBlank c = false := by simpa using hblank
        split
        · next hnone => rw [tokenize_next_none hb hnone]
        · next hsome => rw [tokenize_next hb hsome, ih ((Token.length_next? hsome).trans h)]

/-- The tokens of a fixed text; the hypothesis is computed. -/
theorem tokenize_of_within {cs : List Char} {ts : List Token}
    (h : tokenizeWithin cs.length cs = some ts) : tokenize cs = some ts := by
  rw [← tokenizeWithin_eq le_rfl, h]

/-- A well-formed text keeps its tokens in front of a character that continues none of them. -/
theorem tokenize_append {cs rest : List Char} {ts : List Token} (h : tokenize cs = some ts)
    (hrest : ∀ d ∈ rest.head?, Token.isApart d = true) :
    tokenize (cs ++ rest) = (tokenize rest).map (ts ++ ·) := by
  fun_induction tokenize cs generalizing ts with
  | case1 =>
    obtain rfl : [] = ts := by simpa using h
    simp
  | case2 c cs hc ih =>
    rw [List.cons_append, tokenize_blank _ hc]
    exact ih h
  | case3 => simp at h
  | case4 c cs hc t after hn ih =>
    obtain ⟨us, hus, rfl⟩ := Option.map_eq_some_iff.1 h
    rw [List.cons_append, tokenize_next (by simpa using hc) (Token.next?_append hn hrest), ih hus]
    simp [Function.comp_def]

namespace Token

/-- The characters that separate the parts of a line and stand for themselves. -/
def isSolo (c : Char) : Bool := c == ' ' || c == ',' || c == '(' || c == ')'

/-- The tokens of such a character. -/
def solo (c : Char) : List Token := if c = ' ' then [] else [symbol [c]]

theorem isApart_of_isSolo {c : Char} (h : isSolo c = true) : isApart c = true := by
  simp only [isSolo, Bool.or_eq_true, beq_iff_eq] at h
  rcases h with ((rfl | rfl) | rfl) | rfl <;> decide

end Token

theorem tokenize_solo {c : Char} (cs : List Char) (h : Token.isSolo c = true) :
    tokenize (c :: cs) = (tokenize cs).map (Token.solo c ++ ·) := by
  simp only [Token.isSolo, Bool.or_eq_true, beq_iff_eq] at h
  rcases h with ((rfl | rfl) | rfl) | rfl
  · rw [tokenize_blank _ (by decide)]
    simp [Token.solo]
  all_goals
    rw [tokenize_next (t := .symbol [_]) (by decide)]
    · rfl
    · cases cs <;> rfl

/-- A text that is written with a separator has the tokens of both parts. -/
theorem tokenize_separated {as : List Char} {ts : List Token} (h : tokenize as = some ts)
    {c : Char} (hc : Token.isSolo c = true) (bs : List Char) :
    tokenize (as ++ c :: bs) = (tokenize bs).map (ts ++ Token.solo c ++ ·) := by
  rw [tokenize_append h (by simpa using Token.isApart_of_isSolo hc), tokenize_solo _ hc]
  simp [Function.comp_def]

end EventReport
