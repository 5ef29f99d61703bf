/-
# Literals read back

A literal is written so that the clause reader finds the whole of it again:
`tokenize_render` says which tokens it has, and `literal?_tokens` that a user's
value is read off the front of them with the spelling it was written in.

A number that is not finite would be written as NULL, which is no literal to the
reader.  No value of a user becomes one (`isFinite_ofValue`).
-/
import EventReport.Proofs.Clause.Spelling
import EventReport.Proofs.Decimal.Numeral
import EventReport.Proofs.Text.Lines
import EventReport.Clause.Reader
import EventReport.Sql.Literal

namespace EventReport

open Text

/-- The tokens of a numeral: a minus is a token of its own. -/
def numeralTokens : List Char → List Token
  | '-' :: cs => [.symbol ['-'], .number cs]
  | cs => [.number cs]

theorem IsUnsignedNumeral.numeralTokens_eq {cs : List Char} (h : IsUnsignedNumeral cs) :
    numeralTokens cs = [.number cs] := by
  obtain ⟨c, ds, rfl, hc, -⟩ := h
  have hminus : c ≠ '-' := by
    rintro rfl
    exact absurd hc (by decide)
  unfold numeralTokens
  split
  · next heq => exact absurd (List.cons.inj heq).1 hminus
  · rfl

theorem IsUnsignedNumeral.tokenize_eq {cs : List Char} (h : IsUnsignedNumeral cs) :
    tokenize cs = some [.number cs] := by
  obtain ⟨c, ds, rfl, hc, hds⟩ := h
  have h : tokenize (c :: ds ++ []) = _ := tokenize_number hc hds (by simp)
  rw [List.append_nil, tokenize_nil] at h
  exact h

theorem IsNumeral.tokenize_eq {cs : List Char} (h : IsNumeral cs) :
    tokenize cs = some (numeralTokens cs) := by
  rcases h with h | ⟨ds, rfl, h⟩
  · rw [h.numeralTokens_eq]
    exact h.tokenize_eq
  · have hds := h.tokenize_eq
    obtain ⟨c, ds, rfl, hc, -⟩ := h
    rw [tokenize_minus _ hc, hds]
    rfl

theorem IsUnsignedNumeral.isNeat {cs : List Char} (h : IsUnsignedNumeral cs) :
    isNeat cs = true := by
  have hpoint : isControl '.' = false ∧ '.' ≠ '\x7b' := by decide
  have hdigit : ∀ c : Char, c.isDigit = true → isControl c = false ∧ c ≠ '\x7b' := by
    intro c hc
    have hchar : isIdentifierChar c = true := by simp [isIdentifierChar, Char.isAlphanum, hc]
    exact ⟨isControl_of_isIdentifierChar hchar, ne_of_isIdentifierChar hchar (by decide)⟩
  obtain ⟨c, ds, rfl, hc, hds⟩ := h
  refine isNeat_of_forall ?_
  intro d hd
  rcases List.mem_cons.1 hd with rfl | hd
  · exact hdigit d hc
  · have := hds d hd
    simp only [Token.isNumberChar, Bool.or_eq_true, beq_iff_eq] at this
    rcases this with h | rfl
    · exact hdigit d h
    · exact hpoint

theorem IsNumeral.isNeat {cs : List Char} (h : IsNumeral cs) : isNeat cs = true := by
  rcases h with h | ⟨ds, rfl, h⟩
  · exact h.isNeat
  · exact isNeat_append (s := ['-']) (by decide) h.isNeat

namespace Sql.Literal

/-- A value of a user: a text or a finite number. -/
def IsUserValue : Literal → Prop
  | null | bool _ => False
  | float x => x.isFinite = true
  | int _ | text _ => True

def tokens : Literal → List Token
  | text s => [.quoted (Quoted.chars s.toList)]
  | int i => numeralTokens (int i).render.toList
  | float x =>
    if x.isFinite then numeralTokens (float x).render.toList else [.word "NULL".toList]
  | null => [.word "NULL".toList]
  | bool b => [.word (bool b).render.toList]

theorem isNumeral_render_float {x : Float} (h : x.isFinite = true) :
    IsNumeral (render (float x)).toList := by
  simp only [render, h, if_true]
  exact isNumeral_float h

theorem tokenize_render (l : Literal) : tokenize l.render.toList = some l.tokens := by
  cases l with
  | null => exact tokenize_identifier (by decide)
  | bool b => cases b <;> exact tokenize_identifier (by decide)
  | int i => exact (isNumeral_int i).tokenize_eq
  | float x =>
    simp only [tokens]
    split
    · next h => exact (isNumeral_render_float h).tokenize_eq
    · next h =>
      simp only [render, h, if_false, Bool.false_eq_true]
      exact tokenize_identifier (by decide)
  | text s =>
    have h := tokenize_quoted s.toList []
    rw [List.append_nil, tokenize_nil] at h
    simp only [render, toList_quote]
    exact h

theorem isNeat_render (l : Literal) : isNeat l.render.toList = true := by
  cases l with
  | null => decide
  | bool b => cases b <;> decide
  | int i => exact (isNumeral_int i).isNeat
  | float x =>
    by_cases h : x.isFinite = true
    · exact (isNumeral_render_float h).isNeat
    · simp only [render, h, if_false, Bool.false_eq_true]
      decide
  | text s =>
    simp only [render, toList_quote]
    exact isNeat_quoted s.toList

theorem literal?_numeralTokens {cs : List Char} (h : IsNumeral cs) (rest : List Token) :
    Predicate.literal? (numeralTokens cs ++ rest) = some (cs, rest) := by
  rcases h with h | ⟨ds, rfl, h⟩
  · rw [h.numeralTokens_eq]
    rfl
  · rfl

/-- A value of a user is read as it was written. -/
theorem literal?_tokens {l : Literal} (h : l.IsUserValue) (rest : List Token) :
    Predicate.literal? (l.tokens ++ rest) = some (l.render.toList, rest) := by
  cases l with
  | null => exact h.elim
  | bool b => exact h.elim
  | int i => exact literal?_numeralTokens (isNumeral_int i) rest
  | float x =>
    have hx : x.isFinite = true := h
    simp only [tokens, hx, if_true]
    exact literal?_numeralTokens (isNumeral_render_float hx) rest
  | text s =>
    simp only [tokens, render, toList_quote]
    rfl

/-! ## The values of users -/

theorem isFinite_of_decimal? {cs : List Char} {x : Float} (h : Numeral.decimal? cs = some x) :
    x.isFinite = true := by
  simp only [Numeral.decimal?, Option.bind_eq_bind, Option.bind_eq_some_iff] at h
  obtain ⟨parts, -, h⟩ := h
  split at h
  · obtain rfl := Option.some.inj h
    assumption
  · cases h

theorem isUserValue_ofValue (numeric : Bool) (value : String) :
    (ofValue numeric value).IsUserValue := by
  unfold ofValue
  split
  · dsimp only
    split
    · trivial
    · split
      · next x hx => exact isFinite_of_decimal? hx
      · trivial
  · trivial

end Sql.Literal

end EventReport
