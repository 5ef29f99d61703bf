/-
# The column of a clause

A column is spelled as it stood on the line, backticks and all, and it is written
out again when a variable takes the place of a literal.  On a neat line nothing can
go wrong there: each word of it is neat by itself (`isNeat_of_mem_tokens`), and so
is the column (`isNeat_literalColumn`).
-/
import EventReport.Proofs.Clause.Readback
import EventReport.Proofs.Clause.Rendering

namespace EventReport

open Text

/-- A word on a neat line is made of word characters, or it ends with a backtick. -/
theorem isNeat_of_mem_tokens {line : List Char} {ts : List Token} (hneat : isNeat line = true)
    (h : tokenize line = some ts) {w : List Char} (hw : Token.word w ∈ ts) : isNeat w = true := by
  obtain ⟨s, hs, hlexeme⟩ := Token.exists_lexeme_of_mem h hw
  have hcontrol : ∀ d ∈ s, isControl d = false := fun d hd => isControl_of_isNeat hneat (hs.subset hd)
  cases hlexeme with
  | @backticked body _ hlast =>
    obtain ⟨inner, rfl⟩ := List.getLast?_eq_some_iff.1 hlast
    have hshut : isShut (('\x60' :: inner) ++ ['\x60']) = true := isShut_concat _ (by decide)
    simp only [isNeat, Bool.and_eq_true, List.all_eq_true, Bool.not_eq_true']
    exact ⟨hcontrol, hshut⟩
  | @word c cs hstart _ hcs =>
    refine isNeat_of_forall fun d hd => ⟨hcontrol d hd, ?_⟩
    rintro rfl
    rcases List.mem_cons.1 hd with rfl | hd
    · exact absurd hstart (by decide)
    · exact absurd (hcs _ hd) (by decide)

theorem Grammar.IsColumn.isNeat {ts : List Token} {c : ColumnName} (h : Grammar.IsColumn ts c)
    (hts : ∀ w, Token.word w ∈ ts → Text.isNeat w = true) : Text.isNeat c.spelling = true := by
  induction h with
  | word w => exact hts w List.mem_cons_self
  | part w _ ih =>
    have ih := ih fun v hv => hts v (by simp [hv])
    exact isNeat_append (hts w List.mem_cons_self) (isNeat_append (s := ['.']) (by decide) ih)

/-- A clause is a connective and a predicate, perhaps behind opening brackets. -/
theorem Clause.exists_of_ofTokens? {ts : List Token} {c : Clause} (h : Clause.ofTokens? ts = some c) :
    ∃ us vs rest, (ts = us ∨ ts = .openOptional :: us) ∧
      Connective.read? us = some (c.connective, vs) ∧
      Predicate.read? vs = some (c.predicate, rest) := by
  unfold Clause.ofTokens? at h
  split at h
  · next us =>
    obtain ⟨⟨k, vs⟩, hk, hrest⟩ := Option.bind_eq_some_iff.1 h
    obtain ⟨⟨p, rest⟩, hp, hif⟩ := Option.bind_eq_some_iff.1 hrest
    dsimp only at hif
    split at hif
    · obtain rfl := Option.some.inj hif
      exact ⟨us, vs, rest, .inr rfl, hk, hp⟩
    · cases hif
  · obtain ⟨⟨k, vs⟩, hk, hrest⟩ := Option.bind_eq_some_iff.1 h
    obtain ⟨⟨p, rest⟩, hp, hif⟩ := Option.bind_eq_some_iff.1 hrest
    dsimp only at hif
    split at hif
    · obtain rfl := Option.some.inj hif
      exact ⟨_, vs, rest, .inl rfl, hk, hp⟩
    · cases hif

theorem isNeat_literalColumn {line : List Char} (hneat : isNeat line = true) {c : Clause}
    (h : Clause.read? line = some c) {column : ColumnName}
    (hcolumn : c.predicate.literalColumn? = some column) : isNeat column.spelling = true := by
  obtain ⟨ts, htokens, hclause⟩ := Option.bind_eq_some_iff.1 h
  obtain ⟨us, hus, hp⟩ := (Grammar.ofTokens?_iff.1 hclause).exists_predicate
  obtain ⟨vs, hvs, hc⟩ := hp.exists_column hcolumn
  exact hc.isNeat fun w hw => isNeat_of_mem_tokens hneat htokens (hus (hvs hw))

end EventReport
