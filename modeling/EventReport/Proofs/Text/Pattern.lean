/-
# What a pattern matches

In a pattern `%` stands for any text, `_` for any one character, and a backslash with the
character after it for that character; any other character stands for itself.

## What is proved

`matches_containing`, `matches_startingWith`, `matches_endingWith`: the pattern made of a
text and a wildcard matches the texts that contain it, begin with it, or end with it, and
no others.  The text may hold the wildcards themselves, or backslashes, anywhere.

## Shape of the proof

`Matches` is a relation with a constructor for each rule, and there is one inversion lemma
for each.  A literal text takes itself off the front of what is matched
(`matches_literal_append`), which is the one induction; the wildcards around it are the
inversion lemma of `%`.
-/
import EventReport.Text.Pattern
import Mathlib.Data.List.Infix

namespace EventReport.Text.Pattern

inductive Matches : List Char → List Char → Prop
  | nil : Matches [] []
  | any (skipped : List Char) {p x : List Char} (h : Matches p x) :
      Matches ('%' :: p) (skipped ++ x)
  | one (c : Char) {p x : List Char} (h : Matches p x) : Matches ('_' :: p) (c :: x)
  | escaped (c : Char) {p x : List Char} (h : Matches p x) : Matches ('\\' :: c :: p) (c :: x)
  | plain {c : Char} (hc : isSpecial c = false) {p x : List Char} (h : Matches p x) :
      Matches (c :: p) (c :: x)

/-! ## Each rule read backwards -/

section Inversion

variable {c : Char} {p x : List Char}

theorem matches_nil_iff : Matches [] x ↔ x = [] := by
  constructor
  · rintro ⟨⟩
    rfl
  · rintro rfl
    exact .nil

theorem matches_any_iff : Matches ('%' :: p) x ↔ ∃ y, y <:+ x ∧ Matches p y := by
  constructor
  · intro h
    cases h with
    | any skipped h => exact ⟨_, List.suffix_append _ _, h⟩
    | plain hc => cases hc
  · rintro ⟨y, ⟨skipped, rfl⟩, h⟩
    exact .any skipped h

theorem matches_one_iff : Matches ('_' :: p) x ↔ ∃ d y, x = d :: y ∧ Matches p y := by
  constructor
  · intro h
    cases h with
    | one d h => exact ⟨d, _, rfl, h⟩
    | plain hc => cases hc
  · rintro ⟨d, y, rfl, h⟩
    exact .one d h

theorem matches_escaped_iff :
    Matches ('\\' :: c :: p) x ↔ ∃ y, x = c :: y ∧ Matches p y := by
  constructor
  · intro h
    cases h with
    | escaped _ h => exact ⟨_, rfl, h⟩
    | plain hc => cases hc
  · rintro ⟨y, rfl, h⟩
    exact .escaped c h

/-- A backslash at the end of a pattern stands for nothing. -/
theorem not_matches_backslash : ¬Matches ['\\'] x := by
  intro h
  cases h with
  | plain hc => cases hc

theorem matches_plain_iff (hc : isSpecial c = false) :
    Matches (c :: p) x ↔ ∃ y, x = c :: y ∧ Matches p y := by
  constructor
  · intro h
    cases h with
    | any | one | escaped => cases hc
    | plain _ h => exact ⟨_, rfl, h⟩
  · rintro ⟨y, rfl, h⟩
    exact .plain hc h

end Inversion

/-! ## Deciding whether a pattern matches -/

/-- Whether a pattern matches, trying every text for a `%`. -/
def fits : List Char → List Char → Bool
  | [], x => x.isEmpty
  | '%' :: p, x => x.tails.any fun y => fits p y
  | '_' :: p, x => !x.isEmpty && fits p x.tail
  | '\\' :: c :: p, x => x.head? == some c && fits p x.tail
  | c :: p, x => c != '\\' && x.head? == some c && fits p x.tail

theorem fits_iff {p x : List Char} : fits p x = true ↔ Matches p x := by
  have hhead (c : Char) (p x : List Char) :
      (x.head? = some c ∧ Matches p x.tail) ↔ ∃ y, x = c :: y ∧ Matches p y := by
    cases x <;> simp [eq_comm]
  fun_induction fits p x with
  | case1 x => rw [matches_nil_iff, List.isEmpty_iff]
  | case2 p x ih => simp only [List.any_eq_true, List.mem_tails, ih, matches_any_iff]
  | case3 p x ih =>
    simp only [matches_one_iff, Bool.and_eq_true, ih]
    cases x <;> simp
  | case4 c p x ih =>
    simp only [matches_escaped_iff, Bool.and_eq_true, beq_iff_eq, ih, hhead]
  | case5 c p x hany hone hescaped ih =>
    by_cases hback : c = '\\'
    · subst hback
      cases p with
      | nil => simp [not_matches_backslash]
      | cons d p => exact absurd rfl (hescaped d p rfl)
    · have hplain : isSpecial c = false := by
        have hpercent : c ≠ '%' := hany
        have hunderscore : c ≠ '_' := hone
        simp [isSpecial, hback, hpercent, hunderscore]
      simp [matches_plain_iff hplain, hback, ih, hhead]

instance (p x : List Char) : Decidable (Matches p x) := decidable_of_iff _ fits_iff

/-! ## Literal texts in a pattern -/

/-- A literal text matches itself and leaves the rest of the pattern the rest of the text. -/
theorem matches_literal_append {s p x : List Char} :
    Matches (literal s ++ p) x ↔ ∃ y, x = s ++ y ∧ Matches p y := by
  induction s generalizing x with
  | nil => simp [literal]
  | cons c s ih =>
    have hstep : Matches (literal (c :: s) ++ p) x ↔
        ∃ y, x = c :: y ∧ Matches (literal s ++ p) y := by
      rw [literal]
      split
      · exact matches_escaped_iff
      · next hc => exact matches_plain_iff (by simpa using hc)
    rw [hstep]
    constructor
    · rintro ⟨y, rfl, h⟩
      obtain ⟨z, rfl, hz⟩ := ih.1 h
      exact ⟨z, rfl, hz⟩
    · rintro ⟨z, rfl, h⟩
      exact ⟨s ++ z, rfl, ih.2 ⟨z, rfl, h⟩⟩

theorem matches_literal {s x : List Char} : Matches (literal s) x ↔ x = s := by
  have h := matches_literal_append (s := s) (p := []) (x := x)
  simpa [matches_nil_iff] using h

/-- A wildcard at the end matches whatever is left. -/
theorem matches_rest (x : List Char) : Matches ['%'] x :=
  matches_any_iff.2 ⟨[], List.nil_suffix, .nil⟩

theorem matches_startingWith {s : String} {x : List Char} :
    Matches (startingWith s).toList x ↔ s.toList <+: x := by
  rw [startingWith, String.toList_ofList, matches_literal_append]
  constructor
  · rintro ⟨y, rfl, -⟩
    exact List.prefix_append _ _
  · rintro ⟨y, rfl⟩
    exact ⟨y, rfl, matches_rest y⟩

theorem matches_endingWith {s : String} {x : List Char} :
    Matches (endingWith s).toList x ↔ s.toList <:+ x := by
  rw [endingWith, String.toList_ofList, matches_any_iff]
  simp only [matches_literal]
  exact exists_eq_right

theorem matches_containing {s : String} {x : List Char} :
    Matches (containing s).toList x ↔ s.toList <:+: x := by
  rw [containing, String.toList_ofList, List.cons_append, matches_any_iff]
  constructor
  · rintro ⟨y, hy, h⟩
    obtain ⟨z, rfl, -⟩ := matches_literal_append.1 h
    exact (List.prefix_append _ _).isInfix.trans hy.isInfix
  · rintro ⟨before, after, rfl⟩
    refine ⟨s.toList ++ after, ⟨before, by simp⟩, ?_⟩
    exact matches_literal_append.2 ⟨after, rfl, matches_rest after⟩

/-- A wildcard in what is looked for is a character like any other. -/
example : Matches (containing "0%_").toList "50%_off".toList ∧
    ¬Matches (containing "0%_").toList "500off".toList := by decide

end EventReport.Text.Pattern
