/-
# A line is cut into its tokens

The tokenizer jumps: over the text of a literal, over a backslash and the character behind
it, over two braces at a time.  Whatever it does, no character is lost on the way and none
is read twice.

## What is proved

`tokenize_cuts`, for every line that has tokens.  The line is blanks and pieces, a piece for
each token in order, and the token says what its piece is (`Token.IsPiece`): its own
spelling, a pair of brackets, or the two braces on either side of a text that closes none
and is the name but for blanks.  And with a blank or more behind it, the line keeps its
tokens: those of the whole are its own and then those of the other line, and the whole has
none just if the other line has none.

## What it is NOT

A line may be cut in more than one way: `ab` is one word or two, and each of its characters
could be a symbol.  `Cut` does not choose among them; what a piece of each kind looks like is
said by `Token.Lexeme`.
-/
import EventReport.Proofs.Clause.Rendering

namespace EventReport

open Text

namespace Token

/-- The piece of a line that a token stands for. -/
def IsPiece : Token → List Char → Prop
  | word s, piece | quoted s, piece | number s, piece | symbol s, piece => piece = s
  | placeholder name, piece =>
    ∃ inner, piece = ['\x7b', '\x7b'] ++ inner ++ ['\x7d', '\x7d'] ∧
      ¬['\x7d', '\x7d'] <:+: inner ∧ name = trimChars inner
  | openOptional, piece => piece = ['[', '[']
  | closeOptional, piece => piece = [']', ']']

namespace Lexeme

variable {t : Token} {s : List Char}

theorem isPiece (h : Lexeme t s) : t.IsPiece s := by
  cases h with
  | @placeholder inner hself =>
    exact ⟨inner, rfl, Placeholder.not_infix_of_splitAtClose? hself, rfl⟩
  | quoted | backticked | number | word | openOptional | closeOptional | pair | symbol => rfl

theorem ne_nil (h : Lexeme t s) : s ≠ [] := by
  cases h <;> exact List.cons_ne_nil _ _

end Lexeme

end Token

/-- The line is made of blanks and of a piece for each of the tokens, in order. -/
inductive Cut : List Char → List Token → Prop
  | done {gap : List Char} : (∀ c ∈ gap, isBlank c = true) → Cut gap []
  | token {gap piece rest : List Char} {t : Token} {ts : List Token} :
      (∀ c ∈ gap, isBlank c = true) → piece ≠ [] → t.IsPiece piece → Cut rest ts →
      Cut (gap ++ piece ++ rest) (t :: ts)

theorem Cut.blank {c : Char} {line : List Char} {ts : List Token} (hc : isBlank c = true)
    (h : Cut line ts) : Cut (c :: line) ts := by
  cases h with
  | done hgap => exact .done (List.forall_mem_cons.2 ⟨hc, hgap⟩)
  | token hgap hne hpiece hrest =>
    exact .token (List.forall_mem_cons.2 ⟨hc, hgap⟩) hne hpiece hrest

theorem cut_of_tokenize {line : List Char} {ts : List Token} (h : tokenize line = some ts) :
    Cut line ts := by
  fun_induction tokenize line generalizing ts with
  | case1 =>
    obtain rfl := Option.some.inj h
    exact .done (by simp)
  | case2 c rest hc ih => exact (ih h).blank hc
  | case3 => cases h
  | case4 c rest hc t after hnext ih =>
    obtain ⟨us, hus, rfl⟩ := Option.map_eq_some_iff.1 h
    obtain ⟨s, hs, hlexeme⟩ := Token.exists_lexeme hnext
    rw [hs]
    show Cut ([] ++ s ++ after) (t :: us)
    exact .token (List.forall_mem_nil _) hlexeme.ne_nil hlexeme.isPiece (ih hus)

/-- No token goes on with a blank. -/
theorem Token.isApart_of_isBlank {c : Char} (h : isBlank c = true) : isApart c = true := by
  have hne : ∀ {d : Char}, isBlank d = false → c ≠ d := by
    rintro d hd rfl
    rw [hd] at h
    cases h
  have hword : isWordChar c = false := by
    rw [← Bool.not_eq_true]
    intro hc
    rw [isBlank_of_isWordChar hc] at h
    cases h
  have hdigit : c.isDigit = false := by
    rw [← Bool.not_eq_true]
    intro hc
    rw [isBlank_of_isDigit hc] at h
    cases h
  refine isApart_iff.2 ⟨hword, ?_, ?_⟩
  · simpa [isNumberChar, hdigit] using hne (by decide)
  · exact ⟨hne (by decide), hne (by decide), hne (by decide), hne (by decide), hne (by decide),
      hne (by decide)⟩

theorem tokenize_blanks_between {as : List Char} {ts : List Token} (h : tokenize as = some ts)
    {gap : List Char} (hne : gap ≠ []) (hgap : ∀ c ∈ gap, isBlank c = true) (bs : List Char) :
    tokenize (as ++ gap ++ bs) = (tokenize bs).map (ts ++ ·) := by
  rw [List.append_assoc, tokenize_append h, tokenize_blanks hgap]
  intro d hd
  refine Token.isApart_of_isBlank (hgap d (List.mem_of_mem_head? ?_))
  rwa [List.head?_append_of_ne_nil _ hne] at hd

/-- No character of a line is lost, and with blanks between them lines keep their tokens. -/
theorem tokenize_cuts {line : List Char} {ts : List Token} (h : tokenize line = some ts) :
    Cut line ts ∧
      ∀ gap other us, gap ≠ [] → (∀ c ∈ gap, isBlank c = true) →
        (tokenize (line ++ gap ++ other) = some us ↔
          ∃ vs, tokenize other = some vs ∧ us = ts ++ vs) := by
  refine ⟨cut_of_tokenize h, ?_⟩
  intro gap other us hne hgap
  rw [tokenize_blanks_between h hne hgap, Option.map_eq_some_iff]
  simp only [eq_comm]

theorem tokenize_cuts_optional :
    tokenize "[[a \x7b\x7b b\x7d\x7d!='c\\'d'".toList = some [.openOptional, .word ['a'],
      .placeholder ['b'], .symbol ['!', '='], .quoted "'c\\'d'".toList] ∧
    Cut "[[a \x7b\x7b b\x7d\x7d!='c\\'d'".toList [.openOptional, .word ['a'], .placeholder ['b'],
      .symbol ['!', '='], .quoted "'c\\'d'".toList] ∧
    tokenize ("[[a \x7b\x7b b\x7d\x7d!='c\\'d'".toList ++ ['\t', '\u3000'] ++ "]]".toList) =
      some [.openOptional, .word ['a'], .placeholder ['b'], .symbol ['!', '='],
        .quoted "'c\\'d'".toList, .closeOptional] := by
  have hline : tokenize "[[a \x7b\x7b b\x7d\x7d!='c\\'d'".toList = some [.openOptional, .word ['a'],
      .placeholder ['b'], .symbol ['!', '='], .quoted "'c\\'d'".toList] :=
    tokenize_of_within (by decide)
  have hclose : tokenize "]]".toList = some [.closeOptional] := tokenize_of_within (by decide)
  obtain ⟨hcut, hkeeps⟩ := tokenize_cuts hline
  exact ⟨hline, hcut, (hkeeps ['\t', '\u3000'] "]]".toList _ (by decide)
    (List.all_eq_true.1 (by decide))).2 ⟨_, hclose, rfl⟩⟩

end EventReport
