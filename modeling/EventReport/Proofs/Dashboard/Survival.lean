/-
# Literal filters under unbinding and renaming

Unbinding takes the filters with the placeholder out, and then it puts an empty text
for every placeholder that is left; renaming puts another placeholder.  Both end with
a replacement in the whole text, which does not know about quoted texts.

## What is proved

`literalFilters_survive`: a filter with literals is still there, character by
character, if the placeholder does not occur in it.  It is so in every text, also if
placeholders reach over several lines around the filter; and it is so with the
exception that unbinding may make a WHERE of its AND.

## What is NOT proved, because it is false

That a filter with literals always stays as it is.  If the placeholder stands between
the quotes of a literal, it is replaced there, too (`literalFilters_altered`).
-/
import EventReport.Proofs.Clause.Enclosure
import EventReport.Proofs.Dashboard.Rebinding

namespace EventReport.Dashboard

open Text
open Placeholder (occurs write replaceFrom)

namespace TextLine

/-- Whether the line is a filter with literals. -/
def isLiteral (line : List Char) : Bool :=
  (clause? line).any fun c => c.predicate.literalColumn?.isSome

/-- The filter is the same line, or the same filter with the WHERE that its AND had to carry. -/
def Survives (line line' : List Char) : Prop :=
  line' = line ∨ ∃ c, clause? line = some c ∧ c.connective = .and_ ∧
    clause? line' = some { c with connective := .where_ }

theorem exists_of_isLiteral {line : List Char} (h : isLiteral line = true) :
    ∃ c column, clause? line = some c ∧ c.predicate.literalColumn? = some column := by
  obtain ⟨c, hc, hcolumn⟩ := (Option.any_eq_true _ _).1 h
  obtain ⟨column, hcolumn⟩ := Option.isSome_iff_exists.1 hcolumn
  exact ⟨c, column, hc, hcolumn⟩

theorem newline_not_mem_render {c : Clause} {us : List Token} (h : c.predicate.IsWritten us) :
    '\n' ∉ c.render := by
  have hkeyword : '\n' ∉ c.connective.keyword.toList := by cases c.connective <;> decide
  have hpredicate := h.readsAs.newline
  unfold Clause.render
  split <;> simp [hkeyword, hpredicate]

/-- A line that is taken out passes its WHERE on, or the one it should have carried. -/
theorem unbind_cons (name : List Char) (pending : Option (List Char)) (line : List Char)
    (lines : List (List Char)) :
    unbind name pending (line :: lines) =
      if refersTo name line then unbind name ((where? line).or pending) lines
      else (pending.elim [line] fun indent => carryWhere indent line) ++ unbind name none lines := by
  cases pending <;> cases hwhere : where? line <;> simp [unbind, hwhere]

/-- The indentation of a WHERE is that of its line. -/
theorem mem_indent_of_where? {line indent : List Char} (hline : '\n' ∉ line)
    (h : where? line = some indent) : ∀ d ∈ indent, isBlank d = true ∧ d ≠ '\n' := by
  obtain rfl : leadingBlanks (body line) = indent := by
    unfold where? at h
    split at h
    · split at h
      · exact Option.some.inj h
      · cases h
    · cases h
  intro d hd
  refine ⟨isBlank_of_mem_leadingBlanks d hd, ?_⟩
  rintro rfl
  have hbody : '\n' ∈ body line := (List.takeWhile_sublist _).subset hd
  exact hline (List.mem_reverse.1 ((List.dropWhile_sublist _).subset (List.mem_reverse.1 hbody)))

/-- A filter with literals is never taken out. -/
theorem refersTo_of_isLiteral {line : List Char} (name : List Char) (h : isLiteral line = true) :
    refersTo name line = false := by
  obtain ⟨c, column, hc, hcolumn⟩ := exists_of_isLiteral h
  rw [refersTo, hc]
  cases hp : c.predicate <;> simp_all [Predicate.literalColumn?, Predicate.placeholder?]

/-- A filter with literals lasts, and so does the one that has another connective, with the same
placeholders in it. -/
theorem lasting_of_isLiteral {line : List Char} (hline : '\n' ∉ line)
    (h : isLiteral line = true) :
    Lasting line ∧ ∀ c, clause? line = some c → ∀ connective : Connective,
      ∀ indent : List Char, (∀ d ∈ indent, isBlank d = true ∧ d ≠ '\n') →
        Lasting (indent ++ { c with connective := connective }.render) ∧
          clause? (indent ++ { c with connective := connective }.render) =
            some { c with connective := connective } ∧
          ∀ name, isIdentifierChars name = true → occurs name line = false →
            occurs name (indent ++ { c with connective := connective }.render) = false := by
  obtain ⟨c, column, hc, hcolumn⟩ := exists_of_isLiteral h
  obtain ⟨⟨ts, us, hts, hsimilar, hwritten, hplain⟩, -⟩ :=
    Clause.exists_of_read? hline (read?_of_clause? hc) hcolumn
  have hbraced := Clause.isBraced_of_tokens hts hsimilar hplain
  refine ⟨⟨hline, hbraced.isEnclosed, Clause.not_isPadded_of_tokens hts hsimilar hwritten⟩, ?_⟩
  intro c' hc' connective indent hindent
  obtain rfl : c = c' := Option.some.inj (hc.symm.trans hc')
  have hblank : ∀ d ∈ indent, isBlank d = true := fun d hd => (hindent d hd).1
  have hwritten' : ({ c with connective := connective } : Clause).predicate.IsWritten us := hwritten
  have htokens := Clause.tokenize_render hwritten' hblank
  have hrefl := Token.similar_refl (Clause.tokens { c with connective := connective } us)
  have hbraced' := Clause.isBraced_of_tokens htokens hrefl hplain
  refine ⟨⟨?_, hbraced'.isEnclosed, Clause.not_isPadded_of_tokens htokens hrefl hwritten'⟩,
    clause?_render hwritten' hblank, fun name hname hnone => ?_⟩
  · intro hmem
    rcases List.mem_append.1 hmem with hmem | hmem
    · exact (hindent _ hmem).2 rfl
    · exact newline_not_mem_render hwritten' hmem
  · exact (hbraced'.occurs_iff hname).2 ((hbraced.occurs_iff hname).1 hnone)

/-- The filter survives as a line with no other placeholders in it. -/
structure Carries (name line line' : List Char) : Prop where
  survives : Survives line line'
  occurs : occurs name line = false → occurs name line' = false

section Name

variable {name : List Char} (hname : isIdentifierChars name = true)

include hname

/-- A filter that has to carry a WHERE is among the lines that stand for it. -/
theorem exists_of_carryWhere {line indent : List Char} (hline : '\n' ∉ line)
    (h : isLiteral line = true) (hindent : ∀ d ∈ indent, isBlank d = true ∧ d ≠ '\n') :
    ∃ line', [line'].Sublist (carryWhere indent line) ∧ Carries name line line' ∧
      Lasting line' := by
  obtain ⟨hlasting, hwhere⟩ := lasting_of_isLiteral hline h
  obtain ⟨c, column, hc, -⟩ := exists_of_isLiteral h
  obtain ⟨hlasting', hclause, hoccurs⟩ := hwhere c hc .where_ indent hindent
  rw [carryWhere, hc]
  dsimp only
  split
  · exact ⟨line, by simp, ⟨.inl rfl, id⟩, hlasting⟩
  · cases hconnective : c.connective with
    | where_ => exact ⟨line, by simp, ⟨.inl rfl, id⟩, hlasting⟩
    | and_ =>
      exact ⟨_, List.Sublist.refl _, ⟨.inr ⟨c, hc, hconnective, hclause⟩, hoccurs name hname⟩,
        hlasting'⟩

/-- The induction is on the lines; a pending WHERE is indented like a line before. -/
theorem exists_of_unbind {lines : List (List Char)} (hlines : ∀ line ∈ lines, '\n' ∉ line)
    {pending : Option (List Char)}
    (hpending : ∀ indent ∈ pending, ∀ d ∈ indent, isBlank d = true ∧ d ≠ '\n') :
    ∃ kept, kept.Sublist (unbind name pending lines) ∧
      List.Forall₂ (Carries name) (lines.filter isLiteral) kept ∧ ∀ line ∈ kept, Lasting line := by
  induction lines generalizing pending with
  | nil => exact ⟨[], List.nil_sublist _, .nil, by simp⟩
  | cons line lines ih =>
    obtain ⟨hline, hlines⟩ := List.forall_mem_cons.1 hlines
    have hnone : ∀ indent ∈ (none : Option (List Char)), ∀ d ∈ indent,
        isBlank d = true ∧ d ≠ '\n' := by simp
    rw [unbind_cons]
    cases hliteral : isLiteral line with
    | true =>
      rw [List.filter_cons_of_pos hliteral, refersTo_of_isLiteral name hliteral]
      obtain ⟨kept, hkept, hcarries, hlasting⟩ := ih hlines hnone
      obtain ⟨line', hline', hcarry, hlasting'⟩ : ∃ line', [line'].Sublist
          (pending.elim [line] fun indent => carryWhere indent line) ∧ Carries name line line' ∧
            Lasting line' := by
        cases pending with
        | none =>
          exact ⟨line, List.Sublist.refl _, ⟨.inl rfl, id⟩, (lasting_of_isLiteral hline hliteral).1⟩
        | some indent => exact exists_of_carryWhere hname hline hliteral (hpending indent rfl)
      exact ⟨line' :: kept, hline'.append hkept, .cons hcarry hcarries,
        List.forall_mem_cons.2 ⟨hlasting', hlasting⟩⟩
    | false =>
      rw [List.filter_cons_of_neg (by simp [hliteral])]
      split
      · refine ih hlines fun indent hindent => ?_
        rcases Option.or_eq_some_iff.1 hindent with hwhere | ⟨-, hwhere⟩
        · exact mem_indent_of_where? hline hwhere
        · exact hpending indent hwhere
      · obtain ⟨kept, hkept, hcarries⟩ := ih hlines hnone
        exact ⟨kept, hkept.trans (List.sublist_append_right _ _), hcarries⟩

end Name

end TextLine

open TextLine (isLiteral Survives)

/-- Lines that last, after placeholders have been replaced in the text. -/
theorem exists_sublist_of_lasting {name r : List Char} (hname : isIdentifierChars name = true)
    (hr : '\n' ∉ r) {kept lines : List (List Char)} (h : kept.Sublist lines)
    (hkept : ∀ line ∈ kept, Lasting line) :
    ∃ revised, List.Sublist revised (splitLines (Placeholder.replace name r (joinLines lines))) ∧
      List.Forall₂ (fun line line' => line' = line ∨ occurs name line = true ∧
        ∃ inside, line' = replaceFrom inside name r line) kept revised := by
  obtain ⟨revised, hrevised, hlines⟩ := exists_sublist_replace hname hr h hkept
  refine ⟨revised, hrevised, hlines.imp ?_⟩
  rintro line line' ⟨inside, rfl⟩
  cases hoccurs : occurs name line with
  | true => exact .inr ⟨rfl, inside, rfl⟩
  | false => exact .inl (Placeholder.replaceFrom_eq_self hoccurs inside)

theorem forall₂_trans {α β γ : Type} {R : α → β → Prop} {S : β → γ → Prop} {T : α → γ → Prop}
    (h : ∀ a b c, R a b → S b c → T a c) {as : List α} {bs : List β} {cs : List γ}
    (hR : List.Forall₂ R as bs) (hS : List.Forall₂ S bs cs) : List.Forall₂ T as cs := by
  induction hR generalizing cs with
  | nil =>
    cases hS
    exact .nil
  | cons hab _ ih =>
    cases hS with
    | cons hbc hS => exact .cons (h _ _ _ hab hbc) (ih hS)

/-- A filter with literals stands in the text after it has been unbound, or renamed, in the same
order: as the same line, or with a WHERE for its AND. Only where the placeholder stands in the line
itself, between quotes, it is replaced there. -/
theorem literalFilters_survive (sql : String) :
    (∀ v : Variable, isIdentifier v.name = true →
      ∃ kept, List.Sublist kept (splitLines (unbind sql v).toList) ∧
        List.Forall₂ (fun line line' => ∃ line₁, Survives line line₁ ∧
            (line' = line₁ ∨ occurs v.name.toList line = true ∧
              ∃ inside, line' = replaceFrom inside v.name.toList ['\'', '\''] line₁))
          ((splitLines sql.toList).filter isLiteral) kept) ∧
    ∀ fromName toName text : String, rename sql fromName toName = .ok text →
      ∃ kept, List.Sublist kept (splitLines text.toList) ∧
        List.Forall₂ (fun line line' => line' = line ∨ occurs fromName.toList line = true ∧
            ∃ inside, line' = replaceFrom inside fromName.toList (write toName.toList) line)
          ((splitLines sql.toList).filter isLiteral) kept := by
  have hfeed : ∀ line ∈ splitLines sql.toList, '\n' ∉ line :=
    fun line hline => not_mem_of_mem_splitLines hline
  refine ⟨fun v hv => ?_, fun fromName toName text h => ?_⟩
  · have hpending : ∀ indent ∈ (none : Option (List Char)), ∀ d ∈ indent,
        isBlank d = true ∧ d ≠ '\n' := by simp
    obtain ⟨kept, hkept, hcarries, hlasting⟩ := TextLine.exists_of_unbind hv hfeed hpending
    obtain ⟨revised, hrevised, hlines⟩ :=
      exists_sublist_of_lasting (r := ['\'', '\'']) hv (by decide) hkept hlasting
    refine ⟨revised, ?_, forall₂_trans ?_ hcarries hlines⟩
    · rw [unbind, String.toList_ofList]
      exact hrevised
    · rintro line line₁ line' ⟨hsurvives, hnone⟩ hline'
      refine ⟨line₁, hsurvives, hline'.imp id ?_⟩
      rintro ⟨hoccurs, hinside⟩
      refine ⟨?_, hinside⟩
      rw [← Bool.not_eq_false]
      intro hfalse
      rw [hnone hfalse] at hoccurs
      cases hoccurs
  · unfold rename at h
    split at h
    · cases h
    split at h
    · cases h
    split at h
    · obtain rfl := Except.ok.inj h
      exact ⟨_, List.filter_sublist, List.forall₂_same.2 fun line _ => .inl rfl⟩
    split at h
    · cases h
    · next hfrom hto _ _ =>
      obtain rfl := Except.ok.inj h
      have hfrom : isIdentifier fromName = true := by simpa using hfrom
      have hto : isIdentifier toName = true := by simpa using hto
      have hlasting : ∀ line ∈ (splitLines sql.toList).filter isLiteral, Lasting line := by
        intro line hline
        obtain ⟨hmem, hliteral⟩ := List.mem_filter.1 hline
        exact (TextLine.lasting_of_isLiteral (hfeed line hmem) hliteral).1
      have hsublist := exists_sublist_of_lasting (r := write toName.toList) hfrom
        (newline_not_mem_of_isNeat (isNeat_write hto)) List.filter_sublist hlasting
      rw [joinLines_splitLines] at hsublist
      rw [String.toList_ofList]
      exact hsublist

/-- A placeholder between the quotes is replaced like any other: the line is no filter any more, or
one with another literal. -/
theorem literalFilters_altered :
    TextLine.clause? "WHERE x = '\x7b\x7ba\x7d\x7d'".toList =
        some ⟨.where_, false, .equals ⟨"x".toList⟩ "'\x7b\x7ba\x7d\x7d'".toList⟩ ∧
      (splitLines (unbind "WHERE x = '\x7b\x7ba\x7d\x7d'" (.named "a" .text)).toList).map
        TextLine.clause? = [none] ∧
      (rename "WHERE x = '\x7b\x7ba\x7d\x7d'" "a" "b").map (fun text =>
          (splitLines text.toList).map TextLine.clause?) =
        .ok [some ⟨.where_, false, .equals ⟨"x".toList⟩ "'\x7b\x7bb\x7d\x7d'".toList⟩] := by
  refine ⟨by decide_cbv, by decide_cbv, by decide_cbv⟩

/-- A block whose WHERE goes with the variable, and a text that can be renamed. -/
theorem literalFilters_survive_block :
    (∃ kept, List.Sublist kept (splitLines
          (unbind "WHERE \x7b\x7ba\x7d\x7d\nAND x = 'b'" (.named "a" .text)).toList) ∧
        List.Forall₂ (fun line line' => ∃ line₁, Survives line line₁ ∧
            (line' = line₁ ∨ occurs "a".toList line = true ∧
              ∃ inside, line' = replaceFrom inside "a".toList ['\'', '\''] line₁))
          ((splitLines "WHERE \x7b\x7ba\x7d\x7d\nAND x = 'b'".toList).filter isLiteral) kept) ∧
      ∃ kept, List.Sublist kept (splitLines "WHERE \x7b\x7bc\x7d\x7d\nAND x = 'b'".toList) ∧
        List.Forall₂ (fun line line' => line' = line ∨ occurs "a".toList line = true ∧
            ∃ inside, line' = replaceFrom inside "a".toList (write "c".toList) line)
          ((splitLines "WHERE \x7b\x7ba\x7d\x7d\nAND x = 'b'".toList).filter isLiteral) kept :=
  ⟨(literalFilters_survive "WHERE \x7b\x7ba\x7d\x7d\nAND x = 'b'").1 (.named "a" .text)
      (by decide),
    (literalFilters_survive "WHERE \x7b\x7ba\x7d\x7d\nAND x = 'b'").2 "a" "c"
      "WHERE \x7b\x7bc\x7d\x7d\nAND x = 'b'" (by decide_cbv)⟩

end EventReport.Dashboard
