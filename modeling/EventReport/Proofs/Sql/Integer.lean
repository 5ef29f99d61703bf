/-
# Which integers keep their value

A value that is compared with a numeric column is text, and stands in the statement as a number
where it reads as one.  An integer of 64 signed bits stands there as it is.  Any other is read as a
floating point number first, and what stands there is the shortest decimal of that.

## What is proved

`integer_kept_iff`: an integer of any length keeps its value exactly if it fits 64 signed bits or
is itself the shortest decimal of a floating point number.  So it keeps its value if it has up to
fifteen significant digits and is finite as a floating point number, and beyond 64 bits it loses
it if it has more than seventeen.  The one after the greatest of 64 bits loses it already
(`integer_not_kept`).

## Shape of the proof

What stands in the statement is read back, in three ranges (`value?_render_of_fits`,
`value?_render_of_large`, `value?_render_of_limit`).  If a large integer is the shortest decimal of
a floating point number, it is rounded to that one, and it is rounded to one alone, so that it is
read as that one too.
-/
import EventReport.Sql.Literal
import EventReport.Proofs.Decimal.Rounding

namespace EventReport

open Sql Numeral

namespace Sql.Literal

variable {text : String} {i : ℤ}

/-! ## What stands in the statement -/

theorem value?_render_of_fits (h : IsInteger (Text.trimChars text.toList) i) (hfits : FitsInt64 i) :
    value? (ofValue true text).render.toList = some (i : ℚ) := by
  classical
  have hint : int? (Text.trimChars text.toList) = some i := by rw [h.int?_eq, if_pos hfits]
  have hvalue : ofValue true text = .int i := by simp [ofValue, hint]
  rw [hvalue]
  exact (isInteger_toString i).value?_eq

/-- The sign of an integer that does not fit, and what becomes of it. -/
theorem exists_ofValue_eq (h : IsInteger (Text.trimChars text.toList) i) (hfits : ¬FitsInt64 i) :
    ∃ negative, i = (if negative then -(i.natAbs : ℤ) else i.natAbs) ∧
      ofValue true text =
        if (Parts.toFloat ⟨negative, i.natAbs, 0⟩).isFinite then
          .float (Parts.toFloat ⟨negative, i.natAbs, 0⟩)
        else .text text := by
  classical
  have hint : int? (Text.trimChars text.toList) = none := by rw [h.int?_eq, if_neg hfits]
  obtain ⟨negative, ds, n, hsign, hds, hi⟩ := h.exists_sign_eq
  obtain rfl : n = i.natAbs := by
    rw [hi]
    split
    · rw [Int.natAbs_neg, Int.natAbs_natCast]
    · rw [Int.natAbs_natCast]
  refine ⟨negative, hi, ?_⟩
  have hdecimal : decimal? (Text.trimChars text.toList) =
      if (Parts.toFloat ⟨negative, i.natAbs, 0⟩).isFinite then
        some (Parts.toFloat ⟨negative, i.natAbs, 0⟩)
      else none := by
    simp [decimal?, hsign, unsigned?_digits negative hds]
  unfold ofValue
  simp only [hint, hdecimal, if_true]
  cases (Parts.toFloat ⟨negative, i.natAbs, 0⟩).isFinite
  · rfl
  · rfl

/-- An integer that does not fit is at least as large as the least that does not. -/
theorem two_pow_le_natAbs (hfits : ¬FitsInt64 i) : 2 ^ 63 ≤ i.natAbs := by
  unfold FitsInt64 at hfits
  omega

theorem value?_render_of_limit (h : IsInteger (Text.trimChars text.toList) i)
    (hlarge : Binary.limit ≤ i.natAbs) : value? (ofValue true text).render.toList = none := by
  have hfits : ¬FitsInt64 i := by
    intro hfits
    have hlimit : 2 ^ 64 ≤ Binary.limit := by decide +kernel
    unfold FitsInt64 at hfits
    omega
  obtain ⟨negative, -, hvalue⟩ := exists_ofValue_eq h hfits
  have hle := two_pow_le_natAbs hfits
  have hfinite := isFinite_toFloat_iff (n := i.natAbs) (by omega) negative
  rw [hvalue, if_neg (fun hf => (hfinite.1 hf).not_ge hlarge)]
  exact value?_quote text

/-- A large integer stands in the statement as the shortest decimal of the value that it is rounded
to, with its sign. -/
theorem value?_render_of_large (h : IsInteger (Text.trimChars text.toList) i)
    (hfits : ¬FitsInt64 i) (hlt : i.natAbs < Binary.limit) :
    ∃ x : Binary, x.IsWhole ∧ x.Rounds i.natAbs ∧ ∃ negative,
      i = (if negative then -(i.natAbs : ℤ) else i.natAbs) ∧
      value? (ofValue true text).render.toList =
        some (signed negative (x.shortest .up).value) := by
  obtain ⟨negative, hi, hvalue⟩ := exists_ofValue_eq h hfits
  have hle : 2 ^ 53 ≤ i.natAbs := le_trans (by decide) (two_pow_le_natAbs hfits)
  have hfinite := (isFinite_toFloat_iff hle negative).2 hlt
  obtain ⟨hwhole, hrounds, hsign⟩ := toBits_toFloat hle hlt negative
  rw [if_pos hfinite] at hvalue
  generalize Parts.toFloat ⟨negative, i.natAbs, 0⟩ = y at *
  refine ⟨_, hwhole, hrounds, negative, hi, ?_⟩
  have hrender : NumberLayout.sql.render y =
      (if negative then "-" else "") ++
        NumberLayout.sql.plain ((Binary.ofBits y.toBits).shortest .up) := by
    unfold NumberLayout.render
    simp only [isNaN_of_isFinite hfinite, isInf_of_isFinite hfinite, Bool.false_eq_true, if_false,
      if_neg hwhole.pos.ne', hsign]
    rfl
  have hdenotes := denotes_plain ((Binary.ofBits y.toBits).shortest .up)
  rw [hvalue, render, if_pos hfinite, hrender, String.toList_append]
  generalize (NumberLayout.sql.plain _).toList = cs at hdenotes ⊢
  cases negative with
  | false => exact hdenotes.value?_eq
  | true => exact hdenotes.value?_minus

/-- What stands in the statement is the integer if the shortest decimal is its magnitude. -/
theorem signed_eq_iff {negative : Bool} (hi : i = if negative then -(i.natAbs : ℤ) else i.natAbs)
    (v : ℚ) : signed negative v = i ↔ v = i.natAbs := by
  have hcast : (i : ℚ) = signed negative i.natAbs := by
    conv_lhs => rw [hi]
    cases negative
    · rfl
    · simp [signed]
  rw [hcast]
  cases negative
  · rfl
  · exact neg_inj

/-- Beyond 64 bits an integer keeps its value if it is the shortest decimal of a value. -/
theorem value?_render_iff (h : IsInteger (Text.trimChars text.toList) i) (hfits : ¬FitsInt64 i) :
    value? (ofValue true text).render.toList = some (i : ℚ) ↔
      ∃ x : Binary, x.IsWhole ∧ (x.shortest .up).value = i.natAbs := by
  rcases lt_or_ge i.natAbs Binary.limit with hlt | hlarge
  · obtain ⟨x, hwhole, hrounds, negative, hi, hvalue⟩ := value?_render_of_large h hfits hlt
    rw [hvalue, Option.some_inj, signed_eq_iff hi]
    refine ⟨fun heq => ⟨x, hwhole, heq⟩, ?_⟩
    rintro ⟨y, hy, heq⟩
    obtain ⟨-, -, -, -, -, hyrounds, -⟩ := hy.shortest_spec .up
    rw [heq] at hyrounds
    rw [hwhole.eq_of_rounds_both hy hrounds hyrounds, heq]
  · rw [value?_render_of_limit h hlarge]
    refine iff_of_false nofun ?_
    rintro ⟨y, hy, heq⟩
    obtain ⟨-, -, -, -, -, hyrounds, -⟩ := hy.shortest_spec .up
    rw [heq] at hyrounds
    exact (hy.lt_limit hyrounds).not_ge hlarge

end Sql.Literal

open Sql.Literal

/-- An integer keeps its value if it fits 64 signed bits, or is itself the shortest decimal of a
floating point number, and only then.  Up to fifteen significant digits are enough, where it is
finite as a floating point number, and beyond 64 bits no more than seventeen are kept. -/
theorem integer_kept_iff (text : String) (i : ℤ)
    (h : IsInteger (Text.trimChars text.toList) i) :
    (value? (Literal.ofValue true text).render.toList = some (i : ℚ) ↔
        FitsInt64 i ∨ ∃ x : Binary, x.IsWhole ∧ (x.shortest .up).value = i.natAbs) ∧
      (i.natAbs < Binary.limit → HasDigits 15 i.natAbs →
        value? (Literal.ofValue true text).render.toList = some (i : ℚ)) ∧
      (value? (Literal.ofValue true text).render.toList = some (i : ℚ) →
        FitsInt64 i ∨ HasDigits 17 i.natAbs) := by
  by_cases hfits : FitsInt64 i
  · have hkept := value?_render_of_fits h hfits
    exact ⟨iff_of_true hkept (Or.inl hfits), fun _ _ => hkept, fun _ => Or.inl hfits⟩
  · have hiff := value?_render_iff h hfits
    refine ⟨hiff.trans (or_iff_right hfits).symm, ?_, ?_⟩
    · rintro hlt ⟨c, hc, e, heq⟩
      obtain ⟨x, hwhole, hrounds, -⟩ := value?_render_of_large h hfits hlt
      have hsmall : c < 2 ^ 52 := hc.trans (by decide)
      rw [heq] at hrounds
      exact hiff.2 ⟨x, hwhole, (hwhole.shortest_eq .up hsmall hrounds).trans heq.symm⟩
    · intro hkept
      obtain ⟨x, hwhole, heq⟩ := hiff.1 hkept
      exact Or.inr (heq ▸ hwhole.hasDigits_shortest .up)

/-- An integer far beyond 64 bits that has three significant digits, with blanks around it. -/
theorem integer_kept_iff_three_digits :
    ∃ text i, IsInteger (Text.trimChars text.toList) i ∧ ¬FitsInt64 i ∧
      i.natAbs < Binary.limit ∧ HasDigits 15 i.natAbs ∧
        value? (Literal.ofValue true text).render.toList = some (i : ℚ) := by
  have h : IsInteger (Text.trimChars " -9220000000000000000000000\n".toList)
      (-9220000000000000000000000) := by
    have htrim : Text.trimChars " -9220000000000000000000000\n".toList =
        (toString (-9220000000000000000000000 : ℤ)).toList := by decide +kernel
    rw [htrim]
    exact isInteger_toString _
  have hlimit : (-9220000000000000000000000 : ℤ).natAbs < Binary.limit := by decide +kernel
  have hdigits : HasDigits 15 (-9220000000000000000000000 : ℤ).natAbs := by
    refine ⟨922, by decide, 22, ?_⟩
    norm_num
  have hfits : ¬FitsInt64 (-9220000000000000000000000) := by
    unfold FitsInt64
    omega
  exact ⟨_, _, h, hfits, hlimit, hdigits, (integer_kept_iff _ _ h).2.1 hlimit hdigits⟩

/-- The integer after the greatest of 64 bits stands in the statement as another one. -/
theorem integer_not_kept :
    ∃ text i, IsInteger (Text.trimChars text.toList) i ∧
      (Literal.ofValue true text).render = "9223372036854776000" ∧
        value? (Literal.ofValue true text).render.toList ≠ some (i : ℚ) := by
  have h : IsInteger (Text.trimChars "9223372036854775808".toList) 9223372036854775808 := by
    have htrim : Text.trimChars "9223372036854775808".toList =
        (toString (9223372036854775808 : ℤ)).toList := by decide +kernel
    rw [htrim]
    exact isInteger_toString _
  have hrender : (Literal.ofValue true "9223372036854775808").render = "9223372036854776000" := by
    decide +kernel
  have hshown : IsInteger "9223372036854776000".toList 9223372036854776000 :=
    isInteger_toString 9223372036854776000
  refine ⟨_, _, h, hrender, ?_⟩
  rw [hrender, hshown.value?_eq]
  norm_num

end EventReport
