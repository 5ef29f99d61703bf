/-
# The tokens of what a statement is made of

A statement writes names, tables, quoted texts, numbers and placeholders, and the
clause reader has one token for each of them.  A quoted text and a table end with
their own mark, so they are read off the front of any line; a name or a number
ends where the next character does not continue it.
-/
import EventReport.Proofs.Clause.Boundary
import EventReport.Proofs.Text.Resumption

namespace EventReport

open Text

namespace Token

/-! ## Names -/

theorem next?_identifier {c : Char} {cs rest : List Char} (hc : isIdentifierStart c = true)
    (hcs : ∀ d ∈ cs, isIdentifierChar d = true) (hrest : ∀ d ∈ rest.head?, isWordChar d = false) :
    next? c (cs ++ rest) = some (.word (c :: cs), rest) :=
  next?_word (isDigit_of_isIdentifierStart hc) (isWordStart_of_isIdentifierStart hc)
    (fun d hd => isWordChar_of_isIdentifierChar (hcs d hd)) hrest

theorem next?_point (cs : List Char) : next? '.' cs = some (.symbol ['.'], cs) := by
  cases cs <;> rfl

end Token

/-- An identifier is read off the front of a line where no word goes on. -/
theorem tokenize_word {w rest : List Char} (hw : isIdentifierChars w = true)
    (hrest : ∀ d ∈ rest.head?, Token.isWordChar d = false) :
    tokenize (w ++ rest) = (tokenize rest).map (.word w :: ·) := by
  obtain ⟨c, cs, rfl, hc, hcs⟩ := isIdentifierChars_iff.1 hw
  exact tokenize_next (isBlank_of_isIdentifierChar (isIdentifierChar_of_isIdentifierStart hc))
    (Token.next?_identifier hc hcs hrest)

theorem tokenize_identifier {w : List Char} (hw : isIdentifierChars w = true) :
    tokenize w = some [.word w] := by
  have h : tokenize (w ++ []) = _ := tokenize_word hw (by simp)
  rw [List.append_nil, tokenize_nil] at h
  exact h

theorem tokenize_point (cs : List Char) :
    tokenize ('.' :: cs) = (tokenize cs).map (.symbol ['.'] :: ·) :=
  tokenize_next (by decide) (Token.next?_point cs)

theorem tokenize_qualified {r w : List Char} (hr : isIdentifierChars r = true)
    (hw : isIdentifierChars w = true) :
    tokenize (r ++ '.' :: w) = some [.word r, .symbol ['.'], .word w] := by
  have hpoint : ∀ d ∈ ('.' :: w).head?, Token.isWordChar d = false := by
    intro d hd
    obtain rfl : '.' = d := by simpa using hd
    decide
  rw [tokenize_word hr hpoint, tokenize_point, tokenize_identifier hw]
  rfl

/-! ## Quoted texts -/

namespace Token

theorem splitAfterQuote?_plain {quote : Char} {ds : List Char}
    (h : ∀ d ∈ ds, d ≠ '\\' ∧ d ≠ quote) (rest : List Char) :
    splitAfterQuote? quote (ds ++ rest) =
      (splitAfterQuote? quote rest).map fun (body, after) => (ds ++ body, after) := by
  induction ds with
  | nil => simp
  | cons d ds ih =>
    have ⟨h1, h2⟩ := h d (by simp)
    have ih := ih fun e he => h e (by simp [he])
    rw [List.cons_append, splitAfterQuote?_cons _ h1, if_neg h2, ih]
    simp [Function.comp_def]

/-- No escape holds a quote that could end the text. -/
theorem splitAfterQuote?_escape (c : Char) (rest : List Char) :
    splitAfterQuote? '\'' (Quoted.escape c ++ rest) =
      (splitAfterQuote? '\'' rest).map fun (body, after) => (Quoted.escape c ++ body, after) := by
  rcases Quoted.escape_cases c with ⟨-, hc⟩ | ⟨hc, -, hback, hquote⟩ |
    ⟨mark, digits, hc, -, -, hdigits⟩
  · simp [hc]
  · rw [hc]
    exact splitAfterQuote?_plain (by simp [hback, hquote]) rest
  · have hplain : ∀ d ∈ digits, d ≠ '\\' ∧ d ≠ '\'' := by
      intro d hd
      obtain ⟨n, hn, rfl⟩ := hdigits d hd
      exact ⟨(hexDigit_ne hn).1, (hexDigit_ne hn).2.1⟩
    rw [hc]
    simp only [List.cons_append, splitAfterQuote?]
    rw [splitAfterQuote?_plain hplain]
    simp [Function.comp_def]

theorem splitAfterQuote?_body (s rest : List Char) :
    splitAfterQuote? '\'' (Quoted.body s ++ '\'' :: rest) =
      some (Quoted.body s ++ ['\''], rest) := by
  induction s with
  | nil => simp [Quoted.body, splitAfterQuote?_cons]
  | cons c s ih =>
    rw [Quoted.body_cons, List.append_assoc, splitAfterQuote?_escape, ih]
    simp

end Token

/-- Whatever the text and whatever follows, a quoted text is one token. -/
theorem tokenize_quoted (s rest : List Char) :
    tokenize (Quoted.chars s ++ rest) = (tokenize rest).map (.quoted (Quoted.chars s) :: ·) := by
  have h : Token.next? '\'' (Quoted.body s ++ '\'' :: rest) =
      some (.quoted (Quoted.chars s), rest) := by
    simp [Token.next?, Token.splitAfterQuote?_body, Quoted.chars]
  have hchars : Quoted.chars s ++ rest = '\'' :: (Quoted.body s ++ '\'' :: rest) := by
    simp [Quoted.chars]
  rw [hchars]
  exact tokenize_next (by decide) h

/-! ## Tables -/

theorem Token.splitAfterBacktick?_plain {ds : List Char} (h : '\x60' ∉ ds) (rest : List Char) :
    splitAfterBacktick? (ds ++ '\x60' :: rest) = some (ds ++ ['\x60'], rest) := by
  induction ds with
  | nil => simp [splitAfterBacktick?]
  | cons d ds ih =>
    simp only [List.mem_cons, not_or] at h
    simp [splitAfterBacktick?, Ne.symm h.1, ih h.2]

/-- A table between backticks is one word, whatever its name. -/
theorem tokenize_quoteTable (name : String) (rest : List Char) :
    tokenize ((quoteTable name).toList ++ rest) =
      (tokenize rest).map (.word (quoteTable name).toList :: ·) := by
  have hplain : '\x60' ∉ name.toList.filter fun c => c != '\x60' && !isControl c := by simp
  have h := Token.splitAfterBacktick?_plain hplain rest
  simp only [quoteTable, String.toList_ofList, List.cons_append, List.append_assoc]
  refine tokenize_next (by decide) ?_
  simp [Token.next?, h]

/-! ## Numbers and placeholders -/

theorem tokenize_number {c : Char} {cs rest : List Char} (hc : c.isDigit = true)
    (hcs : ∀ d ∈ cs, Token.isNumberChar d = true)
    (hrest : ∀ d ∈ rest.head?, Token.isNumberChar d = false) :
    tokenize (c :: cs ++ rest) = (tokenize rest).map (.number (c :: cs) :: ·) :=
  tokenize_next (isBlank_of_isDigit hc) (Token.next?_number hc hcs hrest)

/-- A minus in front of a number is a symbol of its own. -/
theorem tokenize_minus {c : Char} (cs : List Char) (hc : c.isDigit = true) :
    tokenize ('-' :: c :: cs) = (tokenize (c :: cs)).map (.symbol ['-'] :: ·) := by
  have hchar : isIdentifierChar c = true := by simp [isIdentifierChar, Char.isAlphanum, hc]
  have h2 : c ≠ '-' := ne_of_isIdentifierChar hchar (by decide)
  refine tokenize_next (by decide) ?_
  have hstart : Token.isWordStart '-' = false := by decide
  simp [Token.next?, hstart, h2, Token.pairs]

theorem tokenize_placeholder {w : List Char} (hw : isIdentifierChars w = true)
    (rest : List Char) :
    tokenize (Placeholder.write w ++ rest) = (tokenize rest).map (.placeholder w :: ·) := by
  have hbrace : '\x7d' ∉ w := fun h =>
    absurd (isIdentifierChar_of_mem hw h) (by decide)
  have hsplit := Placeholder.splitAtClose?_plain hbrace rest
  have hstart : Token.isWordStart '\x7b' = false := by decide
  simp only [Placeholder.write, List.cons_append, List.append_assoc, List.nil_append]
  refine tokenize_next (by decide) ?_
  simp [Token.next?, hstart, hsplit, trimChars_identifier hw]

end EventReport
