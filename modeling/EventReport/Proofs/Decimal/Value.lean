/-
# The number that a numeral denotes

A reader of a statement takes a numeral for the number that it denotes, exactly.  What stands in
a statement is a decimal in positional notation, with a minus or nothing before it.

## What is proved

`denotes_plain`: the positional notation of a decimal denotes the decimal, wherever the point
stands.  `IsInteger.value?_eq`: an optional sign and digits denote the integer that the digits
are written for, and that is what is read of them, if it fits 64 signed bits
(`IsInteger.int?_eq`).  A text in quotes denotes no number (`value?_quote`).

## Shape of the proof

A numeral is read into a sign, digits and an exponent, so there is one lemma for digits alone
and one for digits with a point among them.
-/
import EventReport.Decimal.Numeral
import EventReport.Proofs.Decimal.Numeral
import EventReport.Text.Quoted

namespace EventReport

/-- The number that the decimal stands for. -/
def Decimal.value (d : Decimal) : ℚ := d.digits * 10 ^ d.exp

namespace Numeral

/-- A number after a sign; `true` says minus. -/
def signed (negative : Bool) (v : ℚ) : ℚ := if negative then -v else v

def Parts.value (p : Parts) : ℚ := signed p.negative (Decimal.value ⟨p.digits, p.exp⟩)

/-- The number that a decimal numeral denotes. -/
def value? (cs : List Char) : Option ℚ := (unsigned? (sign cs).1 (sign cs).2).map Parts.value

/-! ## Digits -/

/-- Decimal digits, at least one, and the number that they are written for. -/
structure IsDigits (ds : List Char) (n : ℕ) : Prop where
  ne_nil : ds ≠ []
  isDigit : ∀ d ∈ ds, d.isDigit = true
  value : Nat.ofDigitChars 10 ds 0 = n

theorem digitsValue_eq (ds : List Char) : digitsValue ds = Nat.ofDigitChars 10 ds 0 := rfl

namespace IsDigits

variable {ds : List Char} {n : ℕ}

theorem isUnsignedNumeral (h : IsDigits ds n) : IsUnsignedNumeral ds :=
  .of_isDigit h.ne_nil h.isDigit

theorem toString (n : ℕ) : IsDigits (toString n).toList n where
  ne_nil := toList_toString_ne_nil n
  isDigit := fun _ h => isDigit_of_mem_toString h
  value := by
    rw [Nat.toString_eq_ofList_toDigits, String.toList_ofList, Nat.ofDigitChars_ten_toDigits]

/-- Zeros after the digits. -/
theorem append_zeros (h : IsDigits ds n) (k : ℕ) :
    IsDigits (ds ++ List.replicate k '0') (n * 10 ^ k) where
  ne_nil := List.append_ne_nil_of_left_ne_nil h.ne_nil _
  isDigit := by
    intro d hd
    rcases List.mem_append.1 hd with hd | hd
    · exact h.isDigit d hd
    · obtain rfl := (List.mem_replicate.1 hd).2
      decide
  value := by
    rw [Nat.ofDigitChars_append, Nat.ofDigitChars_replicate_zero, h.value, Nat.mul_comm]

/-- Zeros before the digits. -/
theorem zeros_append (h : IsDigits ds n) (k : ℕ) :
    IsDigits (List.replicate k '0' ++ ds) n where
  ne_nil := List.append_ne_nil_of_right_ne_nil _ h.ne_nil
  isDigit := by
    intro d hd
    rcases List.mem_append.1 hd with hd | hd
    · obtain rfl := (List.mem_replicate.1 hd).2
      decide
    · exact h.isDigit d hd
  value := by
    rw [Nat.ofDigitChars_append, Nat.ofDigitChars_replicate_zero, Nat.mul_zero, h.value]

end IsDigits

/-! ## Numerals without a sign -/

/-- The digits end where something else begins. -/
theorem takeWhile_isDigit {ds : List Char} (h : ∀ d ∈ ds, d.isDigit = true) (rest : List Char)
    (hrest : ∀ c ∈ rest.head?, c.isDigit = false) :
    (ds ++ rest).takeWhile Char.isDigit = ds ∧ (ds ++ rest).dropWhile Char.isDigit = rest := by
  rw [List.takeWhile_append_of_pos h, List.dropWhile_append_of_pos h]
  cases rest with
  | nil => simp
  | cons c cs =>
    have hc : c.isDigit = false := hrest c rfl
    simp [hc]

theorem unsigned?_digits (negative : Bool) {ds : List Char} {n : ℕ} (h : IsDigits ds n) :
    unsigned? negative ds = some ⟨negative, n, 0⟩ := by
  obtain ⟨htake, hdrop⟩ := takeWhile_isDigit h.isDigit [] (by simp)
  rw [List.append_nil] at htake hdrop
  simp [unsigned?, htake, hdrop, h.ne_nil, digitsValue_eq, h.value]

theorem unsigned?_point (negative : Bool) {ds es : List Char} {n : ℕ}
    (h : IsDigits (ds ++ es) n) (hds : ds ≠ []) :
    unsigned? negative (ds ++ '.' :: es) = some ⟨negative, n, -es.length⟩ := by
  have hlead : ∀ d ∈ ds, d.isDigit = true := fun d hd => h.isDigit d (List.mem_append_left _ hd)
  have htail : ∀ d ∈ es, d.isDigit = true := fun d hd => h.isDigit d (List.mem_append_right _ hd)
  obtain ⟨htake, hdrop⟩ := takeWhile_isDigit hlead ('.' :: es) (by simp)
  obtain ⟨htake', hdrop'⟩ := takeWhile_isDigit htail [] (by simp)
  rw [List.append_nil] at htake' hdrop'
  simp [unsigned?, htake, hdrop, htake', hdrop', hds, digitsValue_eq, h.value]

/-! ## What is denoted -/

/-- A numeral without a sign, and the number that it denotes. -/
structure Denotes (cs : List Char) (v : ℚ) : Prop where
  isUnsigned : IsUnsignedNumeral cs
  value (negative : Bool) : (unsigned? negative cs).map Parts.value = some (signed negative v)

namespace Denotes

variable {cs : List Char} {v : ℚ}

theorem sign_eq (h : Denotes cs v) : sign cs = (false, cs) := by
  obtain ⟨c, ds, rfl, hc, -⟩ := h.isUnsigned
  unfold sign
  split
  · next hcs =>
    cases hcs
    exact absurd hc (by decide)
  · next hcs =>
    cases hcs
    exact absurd hc (by decide)
  · rfl

theorem value?_eq (h : Denotes cs v) : value? cs = some v := by
  rw [value?, h.sign_eq]
  exact h.value false

theorem value?_minus (h : Denotes cs v) : value? ('-' :: cs) = some (-v) := h.value true

theorem of_isDigits {n : ℕ} (h : IsDigits cs n) : Denotes cs n where
  isUnsigned := h.isUnsignedNumeral
  value := by
    intro negative
    rw [unsigned?_digits negative h, Option.map_some, Parts.value, Decimal.value]
    simp

end Denotes

/-- The positional notation of a decimal denotes the decimal. -/
theorem denotes_plain (d : Decimal) : Denotes (NumberLayout.sql.plain d).toList d.value where
  isUnsigned := NumberLayout.isUnsignedNumeral_plain d
  value := by
    intro negative
    have hdigits := IsDigits.toString d.digits
    unfold NumberLayout.plain
    simp only [NumberLayout.sql, NumberLayout.zeros]
    split
    · -- a whole number: zeros after the digits
      next hwhole =>
      have hall := hdigits.append_zeros d.exp.toNat
      have hvalue : Parts.value ⟨negative, d.digits * 10 ^ d.exp.toNat, 0⟩ =
          signed negative d.value := by
        obtain ⟨k, hk⟩ := Int.eq_ofNat_of_zero_le hwhole
        simp [Parts.value, Decimal.value, hk]
      simp only [String.toList_append, String.toList_ofList, Bool.false_eq_true, if_false]
      rw [show "".toList = [] from rfl, List.append_nil, unsigned?_digits negative hall,
        Option.map_some, hvalue]
    · next hfraction =>
      have hexp {ds : List Char} (hlength : ds.length = (-d.exp).toNat) :
          Parts.value ⟨negative, d.digits, -ds.length⟩ = signed negative d.value := by
        have hneg : -(ds.length : ℤ) = d.exp := by omega
        rw [hneg]
        rfl
      split
      · -- the point stands among the digits
        next hamong =>
        generalize hlead : (toString d.digits).toList.length - (-d.exp).toNat = lead
        have hne : (toString d.digits).toList.take lead ≠ [] := by
          rw [Ne, List.take_eq_nil_iff]
          rintro (hzero | hnil)
          · omega
          · exact hdigits.ne_nil hnil
        have hpoint (es : List Char) : ".".toList ++ es = '.' :: es := rfl
        rw [← List.take_append_drop lead (toString d.digits).toList] at hdigits
        simp only [String.toList_append, String.toList_ofList, List.append_assoc]
        rw [hpoint, unsigned?_point negative hdigits hne, Option.map_some, hexp]
        rw [List.length_drop]
        omega
      · -- the point stands before all digits
        next hbefore =>
        have hall := hdigits.zeros_append ((-d.exp).toNat - (toString d.digits).toList.length)
        have hzero := hall.zeros_append 1
        have hpoint (es : List Char) : "0.".toList ++ es = List.replicate 1 '0' ++ '.' :: es := rfl
        simp only [String.toList_append, String.toList_ofList, List.append_assoc]
        rw [hpoint, unsigned?_point negative hzero (by decide), Option.map_some, hexp]
        rw [List.length_append, List.length_replicate]
        omega

/-! ## Integers -/

/-- An integer with its sign, if it has one. -/
inductive IsInteger : List Char → ℤ → Prop
  | plain {ds : List Char} {n : ℕ} (h : IsDigits ds n) : IsInteger ds n
  | plus {ds : List Char} {n : ℕ} (h : IsDigits ds n) : IsInteger ('+' :: ds) n
  | minus {ds : List Char} {n : ℕ} (h : IsDigits ds n) : IsInteger ('-' :: ds) (-n)

theorem isInteger_toString (i : ℤ) : IsInteger (toString i).toList i := by
  cases i with
  | ofNat n => exact .plain (IsDigits.toString n)
  | negSucc n =>
    rw [toList_toString_negSucc]
    exact .minus (IsDigits.toString (n + 1))

/-- The integers of 64 signed bits. -/
def FitsInt64 (i : ℤ) : Prop := -2 ^ 63 ≤ i ∧ i < 2 ^ 63

namespace IsInteger

variable {cs : List Char} {i : ℤ}

/-- What is read is a sign and the digits of the magnitude. -/
theorem exists_sign_eq (h : IsInteger cs i) :
    ∃ negative ds n, sign cs = (negative, ds) ∧ IsDigits ds n ∧
      i = if negative then -(n : ℤ) else n := by
  cases h with
  | @plain _ n hds => exact ⟨false, cs, n, (Denotes.of_isDigits hds).sign_eq, hds, rfl⟩
  | @plus ds n hds => exact ⟨false, ds, n, rfl, hds, rfl⟩
  | @minus ds n hds => exact ⟨true, ds, n, rfl, hds, rfl⟩

theorem value?_eq (h : IsInteger cs i) : value? cs = some (i : ℚ) := by
  cases h with
  | plain hds => exact (Denotes.of_isDigits hds).value?_eq
  | plus hds => exact (Denotes.of_isDigits hds).value false
  | minus hds =>
    rw [(Denotes.of_isDigits hds).value?_minus]
    simp

/-- The integer is read if it fits. -/
theorem int?_eq (h : IsInteger cs i) [Decidable (FitsInt64 i)] :
    int? cs = if FitsInt64 i then some i else none := by
  obtain ⟨negative, ds, n, hsign, hds, hi⟩ := h.exists_sign_eq
  have hdigits : ds.all Char.isDigit = true := List.all_eq_true.2 hds.isDigit
  have hempty : ds.isEmpty = false := by simpa using hds.ne_nil
  have hfits : FitsInt64 i ↔ -9223372036854775808 ≤ i ∧ i ≤ 9223372036854775807 := by
    unfold FitsInt64
    omega
  simp only [int?, hsign, hdigits, hempty, digitsValue_eq, hds.value, ← hi, hfits]
  rfl

end IsInteger

/-! ## Quoted texts -/

theorem value?_quote (s : String) : value? (Text.quote s).toList = none := by
  obtain ⟨rest, hrest⟩ : ∃ rest, (Text.quote s).toList = '\'' :: rest := by
    rw [Text.toList_quote]
    exact ⟨_, rfl⟩
  rw [hrest]
  rfl

end Numeral

end EventReport
