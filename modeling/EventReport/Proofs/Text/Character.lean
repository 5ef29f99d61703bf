/-
Classes of characters, told apart.

The characters of an identifier are neither blank nor control characters and have
no meaning of their own in a line of SQL.  Everything later that reads an
identifier back out of a text rests on the ranges in the first lemma.
-/
import EventReport.Clause.Token
import EventReport.Text.Identifier
import Mathlib

namespace EventReport.Text

theorem toNat_of_isIdentifierChar {c : Char} (h : isIdentifierChar c = true) :
    (48 ≤ c.toNat ∧ c.toNat ≤ 57) ∨ (65 ≤ c.toNat ∧ c.toNat ≤ 90) ∨ c.toNat = 95 ∨
      (97 ≤ c.toNat ∧ c.toNat ≤ 122) := by
  simp only [isIdentifierChar, Char.isAlphanum, Char.isAlpha, Char.isUpper, Char.isLower,
    Bool.or_eq_true, Bool.and_eq_true, decide_eq_true_eq, beq_iff_eq, Char.isDigit_iff_toNat] at h
  rcases h with ((h | h) | h) | h
  · simp [UInt32.le_iff_toNat_le] at h
    omega
  · simp [UInt32.le_iff_toNat_le] at h
    omega
  · simp at h
    omega
  · subst h
    decide

theorem isIdentifierChar_of_isIdentifierStart {c : Char} (h : isIdentifierStart c = true) :
    isIdentifierChar c = true := by
  simp only [isIdentifierStart, isIdentifierChar, Char.isAlphanum, Bool.or_eq_true] at h ⊢
  tauto

section IdentifierChar

variable {c : Char} (h : isIdentifierChar c = true)

include h

theorem isBlank_of_isIdentifierChar : isBlank c = false := by
  have := toNat_of_isIdentifierChar h
  simp [isBlank, inRanges, blankRanges]
  omega

theorem isControl_of_isIdentifierChar : isControl c = false := by
  have := toNat_of_isIdentifierChar h
  simp [isControl]
  omega

theorem isWordChar_of_isIdentifierChar : Token.isWordChar c = true := by
  have hn := toNat_of_isIdentifierChar h
  have hlt : c.toNat < 128 := by omega
  simp only [isIdentifierChar, Char.isAlphanum, Bool.or_eq_true, beq_iff_eq] at h
  simp only [Token.isWordChar, isLetter, isNumeral, hlt, if_true, Bool.or_eq_true, beq_iff_eq]
  tauto

/-- An identifier holds no brace, quote or backtick, and no other character with a meaning. -/
theorem ne_of_isIdentifierChar {d : Char} (hd : isIdentifierChar d = false) : c ≠ d := by
  rintro rfl
  simp [h] at hd

end IdentifierChar

theorem isWordStart_of_isIdentifierStart {c : Char} (h : isIdentifierStart c = true) :
    Token.isWordStart c = true := by
  have hn := toNat_of_isIdentifierChar (isIdentifierChar_of_isIdentifierStart h)
  have hlt : c.toNat < 128 := by omega
  simp only [isIdentifierStart, Bool.or_eq_true, beq_iff_eq] at h
  simp only [Token.isWordStart, isLetter, hlt, if_true, Bool.or_eq_true, beq_iff_eq]
  exact h

theorem isDigit_of_isIdentifierStart {c : Char} (h : isIdentifierStart c = true) :
    c.isDigit = false := by
  rw [← Bool.not_eq_true, Char.isDigit_iff_toNat]
  intro hd
  simp only [isIdentifierStart, Char.isAlpha, Char.isUpper, Char.isLower, Bool.or_eq_true,
    Bool.and_eq_true, decide_eq_true_eq, beq_iff_eq] at h
  rcases h with (h | h) | h
  · simp [UInt32.le_iff_toNat_le] at h hd
    omega
  · simp [UInt32.le_iff_toNat_le] at h hd
    omega
  · subst h
    simp at hd

theorem isBlank_of_isDigit {c : Char} (h : c.isDigit = true) : isBlank c = false :=
  isBlank_of_isIdentifierChar (by simp [isIdentifierChar, Char.isAlphanum, h])

/-! ## Identifiers -/

theorem isIdentifierChars_iff {cs : List Char} :
    isIdentifierChars cs = true ↔
      ∃ c rest, cs = c :: rest ∧ isIdentifierStart c = true ∧
        ∀ d ∈ rest, isIdentifierChar d = true := by
  cases cs with
  | nil => simp [isIdentifierChars]
  | cons c rest => simp [isIdentifierChars, and_assoc]

theorem isIdentifierChar_of_mem {cs : List Char} (h : isIdentifierChars cs = true) {c : Char}
    (hc : c ∈ cs) : isIdentifierChar c = true := by
  obtain ⟨d, rest, rfl, hd, hrest⟩ := isIdentifierChars_iff.1 h
  rcases List.mem_cons.1 hc with rfl | hc
  · exact isIdentifierChar_of_isIdentifierStart hd
  · exact hrest c hc

end EventReport.Text
