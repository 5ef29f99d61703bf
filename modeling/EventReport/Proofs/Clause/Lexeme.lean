/-
# Lexemes

A token is read from a piece of the line, its lexeme, and what the pieces of a kind
look like can be said without the tokenizer.  Most of them end by themselves, at a quote,
a backtick or two braces; a word and a number end where the next character goes on with
neither; and a symbol may go on as a pair.

## What is proved

`Token.exists_lexeme`: whatever is read from the front of a line is a lexeme, and what is
left is the line without it.

`Lexeme.tokenize`: a lexeme is read as its token, in front of any text that does not go on
with it.  Symbols are left out, since `<` in front of `=` is none.

Then the same for several tokens.  `HasTokens` says that a text has the tokens in front of
any text that goes on with no word and no number; this holds of lexemes, and it is passed on
to what is written from them with separators in between.
-/
import EventReport.Proofs.Clause.Spelling
import EventReport.Proofs.Text.Substitution

namespace EventReport

open Text

namespace Text

/-- No range of letters or numerals meets one of blanks; those of ASCII are decided without a
range. -/
theorem letterRanges_apart :
    ∀ r ∈ letterRanges, ∀ b ∈ blankRanges, b.2 < 0x80 ∨ r.2 < b.1 ∨ b.2 < r.1 := by
  decide +kernel

theorem numeralRanges_apart :
    ∀ r ∈ numeralRanges, ∀ b ∈ blankRanges, b.2 < 0x80 ∨ r.2 < b.1 ∨ b.2 < r.1 := by
  decide +kernel

theorem isBlank_of_inRanges {ranges : List (Nat × Nat)}
    (hapart : ∀ r ∈ ranges, ∀ b ∈ blankRanges, b.2 < 0x80 ∨ r.2 < b.1 ∨ b.2 < r.1) {c : Char}
    (hascii : ¬c.toNat < 0x80) (h : inRanges ranges c = true) : isBlank c = false := by
  obtain ⟨r, hr, hcr⟩ := List.any_eq_true.1 h
  rw [isBlank, inRanges, ← Bool.not_eq_true, List.any_eq_true]
  rintro ⟨b, hb, hcb⟩
  have := hapart r hr b hb
  simp only [Bool.and_eq_true, decide_eq_true_eq] at hcr hcb
  omega

theorem isBlank_of_isWordChar {c : Char} (h : Token.isWordChar c = true) : isBlank c = false := by
  by_cases hascii : c.toNat < 0x80
  · refine isBlank_of_isIdentifierChar ?_
    simpa [Token.isWordChar, isLetter, isNumeral, hascii, isIdentifierChar, Char.isAlphanum] using h
  · simp only [Token.isWordChar, isLetter, isNumeral, hascii, if_false, Bool.or_eq_true,
      beq_iff_eq] at h
    rcases h with (h | h) | rfl
    · exact isBlank_of_inRanges letterRanges_apart hascii h
    · exact isBlank_of_inRanges numeralRanges_apart hascii h
    · exact absurd (by decide) hascii

theorem isBlank_of_isWordStart {c : Char} (h : Token.isWordStart c = true) : isBlank c = false := by
  refine isBlank_of_isWordChar ?_
  simp only [Token.isWordStart, Token.isWordChar, Bool.or_eq_true] at h ⊢
  exact h.imp_left .inl

theorem isInfix_trimChars (cs : List Char) : trimChars cs <:+: cs := by
  have hend : trimEnd (trimStart cs) <+: trimStart cs := by
    rw [← List.reverse_suffix, trimEnd, List.reverse_reverse]
    exact List.dropWhile_suffix _
  exact hend.isInfix.trans (List.dropWhile_suffix _).isInfix

/-- A text is trimmed once. -/
theorem trimChars_trimChars (cs : List Char) : trimChars (trimChars cs) = trimChars cs := by
  have hstart : trimStart (trimChars cs) = trimChars cs := by
    have hprefix : trimChars cs <+: trimStart cs := by
      rw [← List.reverse_suffix, trimChars, trimEnd, List.reverse_reverse]
      exact List.dropWhile_suffix _
    cases hcs : trimChars cs with
    | nil => rfl
    | cons c rest =>
      obtain ⟨after, hafter⟩ := hcs ▸ hprefix
      have hblank : isBlank c = false := by
        have hhead := List.head?_dropWhile_not isBlank cs
        rw [trimStart] at hafter
        rw [← hafter] at hhead
        simpa using hhead
      rw [trimStart, List.dropWhile_cons, if_neg (by simp [hblank])]
  rw [trimChars, hstart]
  show ((trimChars cs).reverse.dropWhile isBlank).reverse = trimChars cs
  rw [trimChars, trimEnd, List.reverse_reverse, List.dropWhile_idempotent]

end Text

namespace Token

/-- The spelling of a word or literal. -/
def spelling? : Token → Option (List Char)
  | word s | quoted s | number s => some s
  | _ => none

/-- Whether the character goes on with the token. -/
def goesOn : Token → Char → Bool
  | word _, c => isWordChar c
  | number _, c => isNumberChar c
  | _, _ => false

theorem splitAfterQuote?_self {quote : Char} {cs body after : List Char}
    (h : splitAfterQuote? quote cs = some (body, after)) :
    splitAfterQuote? quote body = some (body, []) ∧ body.getLast? = some quote := by
  fun_induction splitAfterQuote? quote cs generalizing body with
  | case1 => cases h
  | case2 => cases h
  | case3 c rest ih =>
    obtain ⟨⟨b, a⟩, hb, he⟩ := Option.map_eq_some_iff.1 h
    obtain ⟨rfl, rfl⟩ := by simpa using he
    obtain ⟨hself, hlast⟩ := ih hb
    refine ⟨by simp [splitAfterQuote?, hself], ?_⟩
    rw [List.getLast?_cons, List.getLast?_cons, hlast]
    rfl
  | case4 rest hnil hcons =>
    obtain ⟨rfl, -⟩ := by simpa using h
    have hc : quote ≠ '\\' := by
      intro e
      cases rest with
      | nil => exact hnil e rfl
      | cons d ds => exact hcons d ds e rfl
    exact ⟨by rw [splitAfterQuote?_cons _ hc, if_pos rfl], rfl⟩
  | case5 c rest hnil hcons hq ih =>
    obtain ⟨⟨b, a⟩, hb, he⟩ := Option.map_eq_some_iff.1 h
    obtain ⟨rfl, rfl⟩ := by simpa using he
    have hc : c ≠ '\\' := by
      intro e
      cases rest with
      | nil => exact hnil e rfl
      | cons d ds => exact hcons d ds e rfl
    obtain ⟨hself, hlast⟩ := ih hb
    refine ⟨by rw [splitAfterQuote?_cons _ hc, if_neg hq, hself]; rfl, ?_⟩
    rw [List.getLast?_cons, hlast]
    rfl

theorem splitAfterBacktick?_self {cs body after : List Char}
    (h : splitAfterBacktick? cs = some (body, after)) :
    splitAfterBacktick? body = some (body, []) ∧ body.getLast? = some '\x60' := by
  fun_induction splitAfterBacktick? cs generalizing body with
  | case1 => cases h
  | case2 =>
    obtain ⟨rfl, -⟩ := by simpa using h
    exact ⟨by simp [splitAfterBacktick?], rfl⟩
  | case3 c rest hc ih =>
    obtain ⟨⟨b, a⟩, hb, he⟩ := Option.map_eq_some_iff.1 h
    obtain ⟨rfl, rfl⟩ := by simpa using he
    obtain ⟨hself, hlast⟩ := ih hb
    refine ⟨by simp [splitAfterBacktick?, hc, hself], ?_⟩
    rw [List.getLast?_cons, hlast]
    rfl

/-- The piece of a line that the token is read from. -/
inductive Lexeme : Token → List Char → Prop
  | quoted {quote : Char} {body : List Char} :
      quote = '\'' ∨ quote = '"' → splitAfterQuote? quote body = some (body, []) →
      body.getLast? = some quote → Lexeme (.quoted (quote :: body)) (quote :: body)
  | backticked {body : List Char} :
      splitAfterBacktick? body = some (body, []) → body.getLast? = some '\x60' →
      Lexeme (.word ('\x60' :: body)) ('\x60' :: body)
  | number {c : Char} {cs : List Char} :
      c.isDigit = true → (∀ d ∈ cs, isNumberChar d = true) → Lexeme (.number (c :: cs)) (c :: cs)
  | word {c : Char} {cs : List Char} :
      isWordStart c = true → c.isDigit = false → (∀ d ∈ cs, isWordChar d = true) →
      Lexeme (.word (c :: cs)) (c :: cs)
  | placeholder {inner : List Char} :
      Placeholder.splitAtClose? (inner ++ ['\x7d', '\x7d']) = some (inner, []) →
      Lexeme (.placeholder (trimChars inner)) (Placeholder.write inner)
  | openOptional : Lexeme .openOptional ['[', '[']
  | closeOptional : Lexeme .closeOptional [']', ']']
  | pair {c d : Char} : (c, d) ∈ pairs → Lexeme (.symbol [c, d]) [c, d]
  | symbol (c : Char) : Lexeme (.symbol [c]) [c]

theorem exists_lexeme {c : Char} {rest after : List Char} {t : Token}
    (h : next? c rest = some (t, after)) : ∃ s, c :: rest = s ++ after ∧ Lexeme t s := by
  have hrun : ∀ p : Char → Bool, c :: rest = (c :: rest.takeWhile p) ++ rest.dropWhile p :=
    fun p => by rw [List.cons_append, List.takeWhile_append_dropWhile]
  unfold next? at h
  split at h
  · next hquote =>
    obtain ⟨⟨b, a⟩, hb, he⟩ := Option.map_eq_some_iff.1 h
    obtain ⟨rfl, rfl⟩ := by simpa using he
    obtain ⟨hself, hlast⟩ := splitAfterQuote?_self hb
    exact ⟨_, by rw [splitAfterQuote?_eq hb]; rfl, .quoted hquote hself hlast⟩
  split at h
  · next hback =>
    subst hback
    obtain ⟨⟨b, a⟩, hb, he⟩ := Option.map_eq_some_iff.1 h
    obtain ⟨rfl, rfl⟩ := by simpa using he
    obtain ⟨hself, hlast⟩ := splitAfterBacktick?_self hb
    exact ⟨_, by rw [splitAfterBacktick?_eq hb]; rfl, .backticked hself hlast⟩
  split at h
  · cases h
  split at h
  · next hdigit =>
    obtain ⟨rfl, rfl⟩ := by simpa using h
    exact ⟨_, hrun _, .number hdigit fun d hd => List.mem_takeWhile_imp hd⟩
  split at h
  · next hdigit hstart =>
    obtain ⟨rfl, rfl⟩ := by simpa using h
    exact ⟨_, hrun _, .word hstart (by simpa using hdigit) fun d hd => List.mem_takeWhile_imp hd⟩
  split at h
  · obtain ⟨rfl, rfl⟩ := by simpa using h
    exact ⟨_, rfl, .symbol c⟩
  · next d tail =>
    split at h
    · next hopen =>
      obtain ⟨⟨inner, a⟩, hinner, he⟩ := Option.map_eq_some_iff.1 h
      obtain ⟨rfl, rfl⟩ := by simpa using he
      obtain ⟨rfl, rfl⟩ := hopen
      refine ⟨_, ?_, .placeholder (Placeholder.splitAtClose?_self hinner [])⟩
      rw [Placeholder.eq_of_splitAtClose? hinner]
      simp [Placeholder.write]
    split at h
    · next hopen =>
      obtain ⟨rfl, rfl⟩ := by simpa using h
      obtain ⟨rfl, rfl⟩ := hopen
      exact ⟨_, rfl, .openOptional⟩
    split at h
    · next hclose =>
      obtain ⟨rfl, rfl⟩ := by simpa using h
      obtain ⟨rfl, rfl⟩ := hclose
      exact ⟨_, rfl, .closeOptional⟩
    split at h
    · cases h
    split at h
    · next hpair =>
      obtain ⟨rfl, rfl⟩ := by simpa using h
      exact ⟨_, rfl, .pair hpair⟩
    · obtain ⟨rfl, rfl⟩ := by simpa using h
      exact ⟨_, rfl, .symbol c⟩

/-- Every token of a line has a lexeme in it. -/
theorem exists_lexeme_of_mem {line : List Char} {ts : List Token}
    (h : EventReport.tokenize line = some ts) {t : Token} (ht : t ∈ ts) :
    ∃ s, s <:+: line ∧ Lexeme t s := by
  fun_induction EventReport.tokenize line generalizing ts with
  | case1 =>
    obtain rfl := Option.some.inj h
    cases ht
  | case2 c rest _ ih =>
    obtain ⟨s, hs, hlexeme⟩ := ih h ht
    exact ⟨s, hs.trans (List.suffix_cons c rest).isInfix, hlexeme⟩
  | case3 => cases h
  | case4 c rest _ u after hnext ih =>
    obtain ⟨us, hus, rfl⟩ := Option.map_eq_some_iff.1 h
    obtain ⟨s, hs, hlexeme⟩ := exists_lexeme hnext
    rw [hs]
    rcases List.mem_cons.1 ht with rfl | ht
    · exact ⟨s, (List.prefix_append s after).isInfix, hlexeme⟩
    · obtain ⟨s', hs', hlexeme'⟩ := ih hus ht
      exact ⟨s', hs'.trans (List.suffix_append s after).isInfix, hlexeme'⟩

/-! ## Lexemes on other lines -/

namespace Lexeme

variable {t : Token} {s : List Char}

/-- A word or literal is read from its spelling. -/
theorem eq_of_spelling? (h : Lexeme t s) {x : List Char} (hx : t.spelling? = some x) : s = x := by
  cases h <;> first | exact Option.some.inj hx | cases hx

/-- A lexeme that is no symbol is read again, where the next character does not go on with it. -/
theorem tokenize (h : Lexeme t s) (hsymbol : ∀ x, t ≠ .symbol x) {rest : List Char}
    (hrest : ∀ d ∈ rest.head?, t.goesOn d = false) :
    tokenize (s ++ rest) = (tokenize rest).map (t :: ·) := by
  cases h with
  | @quoted quote body hquote hself =>
    have hblank : isBlank quote = false := by rcases hquote with rfl | rfl <;> decide
    refine tokenize_next hblank ?_
    simp [next?, hquote, splitAfterQuote?_append rest hself]
  | backticked hself =>
    refine tokenize_next (by decide) ?_
    simp [next?, splitAfterBacktick?_append rest hself]
  | number hdigit hcs => exact tokenize_number hdigit hcs hrest
  | word hstart hdigit hcs =>
    exact tokenize_next (isBlank_of_isWordStart hstart) (next?_word hdigit hstart hcs hrest)
  | @placeholder inner hself =>
    have hwrite : Placeholder.write inner ++ rest =
        '\x7b' :: '\x7b' :: (inner ++ '\x7d' :: '\x7d' :: rest) := by simp [Placeholder.write]
    have hstart : isWordStart '\x7b' = false := by decide
    rw [hwrite]
    refine tokenize_next (by decide) ?_
    simp [next?, hstart, Placeholder.splitAtClose?_self hself rest]
  | openOptional | closeOptional => exact tokenize_next (by decide) rfl
  | pair | symbol => exact absurd rfl (hsymbol _)

theorem exists_digit {x : List Char} (h : Lexeme (.number x) s) :
    ∃ c cs, x = c :: cs ∧ c.isDigit = true := by
  cases h with
  | number hdigit => exact ⟨_, _, rfl, hdigit⟩

/-- The name of a placeholder is the lexeme of one, unless it takes a brace from its end. -/
theorem write {name : List Char} (h : Lexeme (.placeholder name) s)
    (hlast : name.getLast? ≠ some '\x7d') : Lexeme (.placeholder name) (Placeholder.write name) := by
  cases h with
  | @placeholder inner hself =>
    have hinner := Placeholder.not_infix_of_splitAtClose? hself
    have hname : Placeholder.splitAtClose? (trimChars inner ++ ['\x7d', '\x7d']) =
        some (trimChars inner, []) :=
      Placeholder.splitAtClose?_of_not_infix (fun h => hinner (h.trans (isInfix_trimChars inner)))
        hlast []
    have hlexeme := Lexeme.placeholder hname
    rwa [trimChars_trimChars] at hlexeme

end Lexeme

end Token

/-! ## Texts with the same tokens on every line -/

/-- No word or number goes on with the text. -/
def Ends (rest : List Char) : Prop :=
  ∀ d ∈ rest.head?, Token.isWordChar d = false ∧ Token.isNumberChar d = false

theorem ends_cons {c : Char} (hw : Token.isWordChar c = false) (hn : Token.isNumberChar c = false)
    (cs : List Char) : Ends (c :: cs) := by
  intro d hd
  obtain rfl : c = d := by simpa using hd
  exact ⟨hw, hn⟩

theorem Ends.goesOn {rest : List Char} (h : Ends rest) (t : Token) :
    ∀ d ∈ rest.head?, t.goesOn d = false := by
  intro d hd
  cases t with
  | word s => exact (h d hd).1
  | number s => exact (h d hd).2
  | _ => rfl

/-- The text has the tokens, whatever stands behind it. -/
def HasTokens (cs : List Char) (ts : List Token) : Prop :=
  ∀ rest, Ends rest → tokenize (cs ++ rest) = (tokenize rest).map (ts ++ ·)

theorem Token.Lexeme.hasTokens {t : Token} {s : List Char} (h : t.Lexeme s)
    (hsymbol : ∀ x, t ≠ .symbol x) : HasTokens s [t] :=
  fun _ hrest => h.tokenize hsymbol (hrest.goesOn t)

namespace HasTokens

variable {cs ds : List Char} {ts us : List Token}

theorem tokenize_eq (h : HasTokens cs ts) : tokenize cs = some ts := by
  have hline := h [] (by simp [Ends])
  rwa [List.append_nil, tokenize_nil, Option.map_some, List.append_nil] at hline

theorem append (hcs : HasTokens cs ts) (hds : HasTokens ds us)
    (hends : ∀ rest, Ends (ds ++ rest)) : HasTokens (cs ++ ds) (ts ++ us) := by
  intro rest hrest
  rw [List.append_assoc, hcs _ (hends rest), hds rest hrest]
  simp [Function.comp_def]

/-- A blank, a comma or a parenthesis in front adds no more than its own token. -/
theorem solo (hcs : HasTokens cs ts) {c : Char} (hc : Token.isSolo c = true) :
    HasTokens (c :: cs) (Token.solo c ++ ts) := by
  intro rest hrest
  rw [List.cons_append, tokenize_solo _ hc, hcs rest hrest]
  simp [Function.comp_def]

/-- Nor does it behind a text that has the tokens on a line of its own. -/
theorem separated (hcs : tokenize cs = some ts) {c : Char} (hc : Token.isSolo c = true)
    (hds : HasTokens ds us) : HasTokens (cs ++ c :: ds) (ts ++ (Token.solo c ++ us)) := by
  intro rest hrest
  rw [List.append_assoc, List.cons_append, tokenize_separated hcs hc, hds rest hrest]
  simp [Function.comp_def]

end HasTokens

end EventReport
