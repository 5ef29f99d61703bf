/-
# The text of a number is a numeral

In SQL text a number never has an exponent: it is a digit followed by digits and
at most a point, after a minus or nothing.  That is all that a reader of the text
has to know of it.
-/
import EventReport.Decimal.Layout
import EventReport.Clause.Token
import Mathlib

namespace EventReport

/-- A digit, and after it digits and points. -/
def IsUnsignedNumeral (cs : List Char) : Prop :=
  ∃ c ds, cs = c :: ds ∧ c.isDigit = true ∧ ∀ d ∈ ds, Token.isNumberChar d = true

/-- A numeral with a minus or nothing before it. -/
def IsNumeral (cs : List Char) : Prop :=
  IsUnsignedNumeral cs ∨ ∃ ds, cs = '-' :: ds ∧ IsUnsignedNumeral ds

namespace IsUnsignedNumeral

theorem append {cs ds : List Char} (h : IsUnsignedNumeral cs)
    (hds : ∀ d ∈ ds, Token.isNumberChar d = true) : IsUnsignedNumeral (cs ++ ds) := by
  obtain ⟨c, cs, rfl, hc, hcs⟩ := h
  refine ⟨c, cs ++ ds, rfl, hc, ?_⟩
  intro d hd
  rcases List.mem_append.1 hd with hd | hd
  · exact hcs d hd
  · exact hds d hd

theorem of_isDigit {cs : List Char} (hne : cs ≠ []) (h : ∀ c ∈ cs, c.isDigit = true) :
    IsUnsignedNumeral cs := by
  cases cs with
  | nil => exact absurd rfl hne
  | cons c ds =>
    refine ⟨c, ds, rfl, h c (by simp), ?_⟩
    intro d hd
    simp [Token.isNumberChar, h d (by simp [hd])]

theorem minus {cs : List Char} (h : IsUnsignedNumeral cs) : IsNumeral ('-' :: cs) :=
  Or.inr ⟨cs, rfl, h⟩

end IsUnsignedNumeral

/-! ## Whole numbers -/

theorem isDigit_of_mem_toString {n : Nat} {c : Char} (h : c ∈ (toString n).toList) :
    c.isDigit = true := by
  rw [Nat.toString_eq_ofList_toDigits, String.toList_ofList] at h
  exact Nat.isDigit_of_mem_toDigits (by decide) (by decide) h

theorem toList_toString_ne_nil (n : Nat) : (toString n).toList ≠ [] := by
  rw [Nat.toString_eq_ofList_toDigits, String.toList_ofList]
  exact Nat.toDigits_ne_nil

theorem isUnsignedNumeral_nat (n : Nat) : IsUnsignedNumeral (toString n).toList :=
  .of_isDigit (toList_toString_ne_nil n) fun _ h => isDigit_of_mem_toString h

theorem toList_toString_negSucc (n : Nat) :
    (toString (Int.negSucc n)).toList = '-' :: (toString (n + 1)).toList := by
  show ("-" ++ Nat.repr (n + 1)).toList = _
  rw [String.toList_append]
  rfl

theorem isNumeral_int (i : Int) : IsNumeral (toString i).toList := by
  cases i with
  | ofNat n => exact Or.inl (isUnsignedNumeral_nat n)
  | negSucc n =>
    rw [toList_toString_negSucc]
    exact (isUnsignedNumeral_nat (n + 1)).minus

/-! ## Layouts -/

namespace NumberLayout

theorem isNumberChar_of_mem_zeros {n : Nat} {c : Char} (h : c ∈ (zeros n).toList) :
    Token.isNumberChar c = true := by
  rw [zeros, String.toList_ofList] at h
  obtain rfl := (List.mem_replicate.1 h).2
  decide

theorem isUnsignedNumeral_plain (d : Decimal) : IsUnsignedNumeral (sql.plain d).toList := by
  have hdigits := isUnsignedNumeral_nat d.digits
  have hchar : ∀ c ∈ (toString d.digits).toList, Token.isNumberChar c = true := by
    intro c hc
    simp [Token.isNumberChar, isDigit_of_mem_toString hc]
  have hpoint : Token.isNumberChar '.' = true := by decide
  unfold plain
  simp only [sql]
  split
  · -- whole: the digits, and zeros for the exponent
    simp only [String.toList_append]
    refine (hdigits.append ?_).append (by simp)
    exact fun c hc => isNumberChar_of_mem_zeros hc
  · split
    · -- the point stands among the digits
      next hlt =>
      generalize hlead : (toString d.digits).toList.length - (-d.exp).toNat = lead
      have hne : (toString d.digits).toList.take lead ≠ [] := by
        intro h
        have := congrArg List.length h
        simp only [List.length_take, List.length_nil] at this
        omega
      have htake : ∀ c ∈ (toString d.digits).toList.take lead, c.isDigit = true := fun c hc =>
        isDigit_of_mem_toString (List.mem_of_mem_take hc)
      simp only [String.toList_append, String.toList_ofList]
      refine ((IsUnsignedNumeral.of_isDigit hne htake).append ?_).append ?_
      · intro c hc
        obtain rfl : c = '.' := by simpa using hc
        exact hpoint
      · exact fun c hc => hchar c (List.mem_of_mem_drop hc)
    · -- the point stands before all digits
      simp only [String.toList_append]
      have hzero : IsUnsignedNumeral "0.".toList := by
        refine ⟨'0', ['.'], rfl, by decide, ?_⟩
        intro c hc
        obtain rfl : c = '.' := by simpa using hc
        exact hpoint
      exact (hzero.append fun c hc => isNumberChar_of_mem_zeros hc).append hchar

end NumberLayout

/-! ## Floating point numbers -/

/-- A number that is finite is neither of the other two kinds. -/
theorem isNaN_of_isFinite {x : Float} (h : x.isFinite = true) : x.isNaN = false := by
  have h : x.toModel.unpack.isFinite = true := h
  show x.toModel.unpack.isNaN = false
  cases hx : x.toModel.unpack <;> rw [hx] at h <;>
    simp_all [Float.Model.UnpackedFloat.isFinite, Float.Model.UnpackedFloat.isNaN]

theorem isInf_of_isFinite {x : Float} (h : x.isFinite = true) : x.isInf = false := by
  have h : x.toModel.unpack.isFinite = true := h
  show x.toModel.unpack.isInf = false
  cases hx : x.toModel.unpack <;> rw [hx] at h <;>
    simp_all [Float.Model.UnpackedFloat.isFinite, Float.Model.UnpackedFloat.isInf]

theorem isNumeral_float {x : Float} (h : x.isFinite = true) :
    IsNumeral (NumberLayout.sql.render x).toList := by
  have hsign : ∀ (negative : Prop) [Decidable negative] (text : String),
      IsUnsignedNumeral text.toList → IsNumeral ((if negative then "-" else "") ++ text).toList := by
    intro negative _ text htext
    rw [String.toList_append]
    split
    · exact htext.minus
    · exact Or.inl htext
  unfold NumberLayout.render
  simp only [isNaN_of_isFinite h, isInf_of_isFinite h, if_false, Bool.false_eq_true]
  split
  · exact hsign _ _ (NumberLayout.isUnsignedNumeral_plain _)
  · exact hsign _ _ (NumberLayout.isUnsignedNumeral_plain _)

end EventReport
