/-
# The braces of a filter

On a line without placeholders a brace stands only between the quotes of a literal or
the backticks of a name, or it is a symbol of its own.  A filter has no such symbols;
so one that compares with literals keeps its braces to itself (`isBraced_of_tokens`),
and it is more than a part of a name, since it has a keyword and a predicate
(`not_isPadded_of_tokens`).

Where its braces stand is seen from its tokens.  That is why a filter that is written
anew, from the same literals, has the same placeholders in it.
-/
import EventReport.Proofs.Clause.Rereading
import EventReport.Proofs.Text.Enclosure

namespace EventReport

open Text

namespace Token

/-- The spelling of a token that holds a brace. -/
def piece? (t : Token) : Option (List Char) :=
  t.spelling?.filter fun s => s.contains '\x7b' || s.contains '\x7d'

theorem piece?_eq_none {t : Token} {s : List Char} (ht : t.spelling? = some s)
    (hs : '\x7b' ∉ s ∧ '\x7d' ∉ s) : t.piece? = none := by
  simp [piece?, ht, hs.1, hs.2]

theorem Similar.piece?_eq {t u : Token} (h : t.Similar u) : t.piece? = u.piece? := by
  rcases h with rfl | ⟨v, w, rfl, rfl, hv, hw⟩
  · rfl
  · rw [piece?_eq_none rfl ⟨fun hmem => (hv _ hmem).1 rfl, fun hmem => (hv _ hmem).2 rfl⟩,
      piece?_eq_none rfl ⟨fun hmem => (hw _ hmem).1 rfl, fun hmem => (hw _ hmem).2 rfl⟩]

theorem isPlain_of_similar {ts us : List Token} (h : List.Forall₂ Similar ts us)
    (hus : ∀ u ∈ us, u.isPlain = true) : ∀ t ∈ ts, t.isPlain = true := by
  induction h with
  | nil => exact hus
  | @cons t u ts us htu _ ih =>
    obtain ⟨hu, hus⟩ := List.forall_mem_cons.1 hus
    refine List.forall_mem_cons.2 ⟨?_, ih hus⟩
    rcases htu with rfl | ⟨v, w, rfl, rfl, -, -⟩
    · exact hu
    · rfl

theorem pieces_eq {ts us : List Token} (h : List.Forall₂ Similar ts us) :
    ts.filterMap piece? = us.filterMap piece? := by
  induction h with
  | nil => rfl
  | cons htu _ ih => rw [List.filterMap_cons, List.filterMap_cons, htu.piece?_eq, ih]

/-- What a token without placeholders takes of a line: its spelling, or else no braces. -/
theorem Lexeme.isEnclosed_or {t : Token} {s : List Char} (h : Lexeme t s)
    (hplain : t.isPlain = true) :
    t.spelling? = some s ∧ IsEnclosed s ∨ t.piece? = none ∧ '\x7b' ∉ s ∧ '\x7d' ∉ s := by
  have hrun : ∀ {c : Char} {cs : List Char} {p q : Char → Bool}, (p '\x7b' = false ∧ p '\x7d' = false) →
      (q '\x7b' = false ∧ q '\x7d' = false) → p c = true → (∀ d ∈ cs, q d = true) →
      '\x7b' ∉ c :: cs ∧ '\x7d' ∉ c :: cs := by
    intro c cs p q hp hq hc hcs
    simp only [List.mem_cons, not_or]
    refine ⟨⟨?_, fun hmem => ?_⟩, ⟨?_, fun hmem => ?_⟩⟩
    · rintro rfl
      simp [hp.1] at hc
    · simpa [hq.1] using hcs _ hmem
    · rintro rfl
      simp [hp.2] at hc
    · simpa [hq.2] using hcs _ hmem
  cases h with
  | @quoted quote body hquote _ hlast =>
    refine .inl ⟨rfl, ?_⟩
    rcases hquote with rfl | rfl
    · exact isEnclosed_of_marks (by decide) (by decide) (by decide) hlast
    · exact isEnclosed_of_marks (by decide) (by decide) (by decide) hlast
  | backticked _ hlast =>
    exact .inl ⟨rfl, isEnclosed_of_marks (by decide) (by decide) (by decide) hlast⟩
  | number hdigit hcs =>
    have hnone := hrun (p := Char.isDigit) (by decide) (by decide) hdigit hcs
    exact .inr ⟨piece?_eq_none rfl hnone, hnone⟩
  | word hstart _ hcs =>
    have hnone := hrun (p := isWordStart) (by decide) (by decide) hstart hcs
    exact .inr ⟨piece?_eq_none rfl hnone, hnone⟩
  | placeholder => cases hplain
  | openOptional | closeOptional => exact .inr ⟨rfl, by decide, by decide⟩
  | pair hpair =>
    have hnone : ∀ q ∈ pairs, '\x7b' ∉ [q.1, q.2] ∧ '\x7d' ∉ [q.1, q.2] := by decide
    exact .inr ⟨rfl, hnone _ hpair⟩
  | symbol c =>
    simp only [isPlain, Bool.and_eq_true, bne_iff_ne, ne_eq, List.cons.injEq, and_true] at hplain
    exact .inr ⟨rfl, by simpa [eq_comm] using hplain⟩

end Token

open Token (piece?)

theorem isBraced_of_tokenize {line : List Char} {ts : List Token} (h : tokenize line = some ts)
    (hplain : ∀ t ∈ ts, t.isPlain = true) : IsBraced line (ts.filterMap piece?) := by
  fun_induction tokenize line generalizing ts with
  | case1 =>
    obtain rfl := Option.some.inj h
    exact .nil
  | case2 c rest hblank ih =>
    refine .char ?_ ?_ (ih h hplain)
    · rintro rfl
      exact absurd hblank (by decide)
    · rintro rfl
      exact absurd hblank (by decide)
  | case3 => cases h
  | case4 c rest _ t after hnext ih =>
    obtain ⟨us, hus, rfl⟩ := Option.map_eq_some_iff.1 h
    have ih := ih hus fun u hu => hplain u (List.mem_cons_of_mem t hu)
    obtain ⟨s, hs, hlexeme⟩ := Token.exists_lexeme hnext
    obtain ⟨ht, henclosed⟩ | ⟨ht, hopen, hclose⟩ :=
      hlexeme.isEnclosed_or (hplain t List.mem_cons_self)
    · rw [hs, List.filterMap_cons]
      by_cases hnone : '\x7b' ∉ s ∧ '\x7d' ∉ s
      · rw [Token.piece?_eq_none ht hnone]
        exact .of_not_mem hnone.1 hnone.2 ih
      · have hpiece : t.piece? = some s := by
          simp only [piece?, ht, Option.filter_some, List.contains_iff_mem, Bool.or_eq_true]
          exact if_pos (by tauto)
        rw [hpiece]
        exact .piece henclosed ih
    · rw [hs, List.filterMap_cons, ht]
      exact .of_not_mem hopen hclose ih

/-- A part of a name with blanks around it is at most one word, if it is no number. -/
theorem tokens_of_isPadded {cs : List Char} {ts : List Token} (h : IsPadded cs)
    (hts : tokenize cs = some ts) :
    ts = [] ∨ (∃ n us, ts = .number n :: us) ∨ ∃ w, ts = [.word w] := by
  obtain ⟨before, name, after, rfl, hbefore, hname, hafter⟩ := h
  have hend : tokenize after = some [] := by
    have hend := tokenize_blanks hafter []
    rwa [List.append_nil, tokenize_nil] at hend
  rw [tokenize_blanks hbefore] at hts
  cases name with
  | nil =>
    rw [List.nil_append, hend] at hts
    exact .inl (Option.some.inj hts).symm
  | cons c name =>
    have hc := hname c List.mem_cons_self
    cases hdigit : c.isDigit with
    | true =>
      have hnext := Token.next?_digit hdigit (name ++ after)
      rw [List.cons_append, tokenize_next (isBlank_of_isIdentifierChar hc) hnext] at hts
      obtain ⟨us, -, rfl⟩ := Option.map_eq_some_iff.1 hts
      exact .inr (.inl ⟨_, us, rfl⟩)
    | false =>
      have hstart : Token.isWordStart c = true := by
        refine isWordStart_of_isIdentifierStart ?_
        simpa [isIdentifierChar, isIdentifierStart, Char.isAlphanum, hdigit] using hc
      have hword : ∀ d ∈ name, Token.isWordChar d = true := fun d hd =>
        isWordChar_of_isIdentifierChar (hname d (List.mem_cons_of_mem c hd))
      have hnext := Token.next?_wordStart hdigit hstart (name ++ after)
      rw [List.dropWhile_append_of_pos hword] at hnext
      have hrest : tokenize (after.dropWhile Token.isWordChar) = some [] := by
        have hrest := tokenize_blanks (fun d hd =>
          hafter d ((List.dropWhile_sublist Token.isWordChar).subset hd)) []
        rwa [List.append_nil, tokenize_nil] at hrest
      rw [List.cons_append, tokenize_next (isBlank_of_isIdentifierChar hc) hnext, hrest] at hts
      exact .inr (.inr ⟨_, (Option.some.inj hts).symm⟩)

namespace Clause

section Tokens

variable {line : List Char} {c : Clause} {ts us : List Token} (hts : tokenize line = some ts)
  (hsimilar : List.Forall₂ Token.Similar ts (c.tokens us))

include hts hsimilar

theorem isBraced_of_tokens (hus : ∀ t ∈ us, t.isPlain = true) :
    IsBraced line (us.filterMap piece?) := by
  have hconnective : piece? (.word c.connective.keyword.toList) = none :=
    Token.piece?_eq_none rfl (by cases c.connective <;> decide)
  have hpieces : (c.tokens us).filterMap piece? = us.filterMap piece? := by
    have hoptional : piece? .openOptional = none ∧ piece? .closeOptional = none := ⟨rfl, rfl⟩
    unfold tokens
    split
    · simp [hconnective, hoptional]
    · simp [hconnective]
  have hplain : ∀ t ∈ c.tokens us, t.isPlain = true := by
    unfold tokens
    split
    · simpa [Token.isPlain, or_imp, forall_and] using hus
    · simpa [Token.isPlain] using hus
  have hplain' := Token.isPlain_of_similar hsimilar hplain
  rw [← hpieces, ← Token.pieces_eq hsimilar]
  exact isBraced_of_tokenize hts hplain'

theorem not_isPadded_of_tokens (h : c.predicate.IsWritten us) : ¬IsPadded line := by
  intro hpadded
  have hne : us ≠ [] := by
    rintro rfl
    have hread := h.read? []
    cases hread
  obtain ⟨u, us, rfl⟩ := List.exists_cons_of_ne_nil hne
  unfold tokens at hsimilar
  rcases tokens_of_isPadded hpadded hts with rfl | ⟨n, us, rfl⟩ | ⟨w, rfl⟩
  · split at hsimilar <;> cases hsimilar
  · split at hsimilar
    · obtain ⟨hfirst, -⟩ := List.forall₂_cons.1 hsimilar
      rcases hfirst with hfirst | ⟨v, w, hfirst, -⟩ <;> cases hfirst
    · obtain ⟨hfirst, -⟩ := List.forall₂_cons.1 hsimilar
      rcases hfirst with hfirst | ⟨v, w, hfirst, -⟩ <;> cases hfirst
  · split at hsimilar
    · obtain ⟨-, hrest⟩ := List.forall₂_cons.1 hsimilar
      cases hrest
    · obtain ⟨-, hrest⟩ := List.forall₂_cons.1 hsimilar
      cases hrest

end Tokens

end Clause

end EventReport
