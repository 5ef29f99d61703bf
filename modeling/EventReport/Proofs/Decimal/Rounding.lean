/-
# An integer as a floating point number

An integer of more than 53 binary digits is read as a floating point number by leaving digits out:
they are shifted out one by one, and two bits say whether what is left out is less than half a
unit, a half or more.

## What is proved

An integer from 2^53 on is read as a finite number exactly if it is less than `Binary.limit`
(`isFinite_toFloat_iff`), and then as the value that it is rounded to, with the sign that it is
written with (`toBits_toFloat`).

## Shape of the proof

`IsHeld` says which number a mantissa and the two bits stand for.  One shift keeps this
(`IsHeld.shiftRightOne`), so all shifts do, and then the mantissa is rounded to the nearest one
(`IsHeld.rounded`).  After that there may be one digit more, which is shifted out again.  What is
packed into bits is read back from them (`ofBits_pack`).
-/
import EventReport.Proofs.Decimal.Shortest

namespace EventReport

namespace Binary

open Float.Model.UnpackedFloat (ExtendedMantissa)

/-! ## Bits that are shifted out -/

/-- A number is held by a mantissa and the two bits that say where its fraction lies. -/
def IsHeld (em : ExtendedMantissa) (v : ℚ) : Prop :=
  match em.roundBit, em.stickyBit with
  | false, false => v = em.mantissa
  | false, true => em.mantissa < v ∧ v < em.mantissa + 1 / 2
  | true, false => v = em.mantissa + 1 / 2
  | true, true => em.mantissa + 1 / 2 < v ∧ v < em.mantissa + 1

variable {em : ExtendedMantissa} {v : ℚ}

theorem IsHeld.shiftRightOne (h : IsHeld em v) : IsHeld em.shiftRightOne (v / 2) := by
  obtain ⟨m, round, sticky⟩ := em
  have hsplit : ((m % 2 : ℕ) : ℚ) + 2 * (m / 2 : ℕ) = m := by exact_mod_cast Nat.mod_add_div m 2
  rcases Nat.mod_two_eq_zero_or_one m with hbit | hbit <;> rw [hbit] at hsplit <;>
    push_cast at hsplit <;> cases round <;> cases sticky <;>
    simp only [IsHeld, ExtendedMantissa.shiftRightOne, hbit] at h ⊢
  all_goals simp
  all_goals first | linarith | constructor <;> linarith

theorem IsHeld.shiftRight (h : IsHeld em v) (n : ℕ) : IsHeld (em >>> n) (v / 2 ^ n) := by
  show IsHeld (n.repeat ExtendedMantissa.shiftRightOne em) (v / 2 ^ n)
  induction n with
  | zero => simpa [Nat.repeat] using h
  | succ n ih =>
    rw [pow_succ, ← div_div]
    exact ih.shiftRightOne

/-- The mantissa is rounded to the nearest number, and to the even one of two. -/
theorem IsHeld.rounded (h : IsHeld em v) : |v - em.roundedMantissa| ≤ 1 / 2 ∧
    (|v - em.roundedMantissa| = 1 / 2 → em.roundedMantissa % 2 = 0) := by
  obtain ⟨m, round, sticky⟩ := em
  cases round <;> cases sticky
  · -- nothing was shifted out
    obtain rfl : v = m := h
    have hrounded : ExtendedMantissa.roundedMantissa ⟨m, false, false⟩ = m := rfl
    rw [hrounded, sub_self, abs_zero]
    norm_num
  · -- less than half
    obtain ⟨hlow, hhigh⟩ : (m : ℚ) < v ∧ v < m + 1 / 2 := h
    have hrounded : ExtendedMantissa.roundedMantissa ⟨m, false, true⟩ = m := rfl
    rw [hrounded, abs_of_pos (by linarith)]
    exact ⟨by linarith, fun heq => by linarith⟩
  · -- a half: to the even one
    obtain rfl : v = m + 1 / 2 := h
    have hrounded : ExtendedMantissa.roundedMantissa ⟨m, true, false⟩ = m + m % 2 := rfl
    rw [hrounded]
    refine ⟨?_, fun _ => by omega⟩
    rcases Nat.mod_two_eq_zero_or_one m with hbit | hbit <;> rw [hbit] <;> push_cast <;>
      rw [abs_le] <;> constructor <;> linarith
  · -- more than half
    obtain ⟨hlow, hhigh⟩ : (m : ℚ) + 1 / 2 < v ∧ v < m + 1 := h
    have hrounded : ExtendedMantissa.roundedMantissa ⟨m, true, true⟩ = m + 1 := rfl
    rw [hrounded]
    push_cast
    rw [abs_of_neg (by linarith)]
    exact ⟨by linarith, fun heq => by linarith⟩

/-! ## The value that an integer is rounded to -/

open Float.Model (Format totalExponent)
open Float.Model.UnpackedFloat (roundWithAccuracy shiftToTargetExponent shiftToExponent)

theorem log2_mul_two_pow {n : ℕ} (hn : n ≠ 0) (k : ℕ) : (n * 2 ^ k).log2 = n.log2 + k := by
  induction k with
  | zero => rw [pow_zero, mul_one, add_zero]
  | succ k ih =>
    have hne : n * 2 ^ k ≠ 0 := Nat.mul_ne_zero hn (by positivity)
    rw [show n * 2 ^ (k + 1) = 2 * (n * 2 ^ k) by ring, Nat.log2_two_mul hne, ih, add_assoc]

/-- The exponent with which a number of at least 53 binary digits is held. -/
theorem targetExponent_eq {m : ℕ} {e : ℤ} (h : 0 ≤ m.log2 + e - 52) :
    Format.binary64.targetExponent (totalExponent m e) = m.log2 + e - 52 := by
  have hmin : Format.binary64.minExponent = -1074 := rfl
  have hbits : Format.binary64.mantissaBits = 53 := rfl
  rw [Format.targetExponent, totalExponent, hmin, hbits]
  omega

/-- After the digits are rounded there may be one more. -/
theorem shiftToTargetExponent_rounded {r : ℕ} {e : ℤ} (hlow : 2 ^ 52 ≤ r) (hhigh : r ≤ 2 ^ 53)
    (he : 0 ≤ e) : ∃ m q, (shiftToTargetExponent .binary64 r e .exact).1.mantissa = m ∧
      (shiftToTargetExponent .binary64 r e .exact).2 = q ∧
      (r < 2 ^ 53 ∧ m = r ∧ q = e ∨ r = 2 ^ 53 ∧ m = 2 ^ 52 ∧ q = e + 1) := by
  have hne : r ≠ 0 := by omega
  rcases hhigh.lt_or_eq with hlt | rfl
  · have hlog : r.log2 = 52 := (Nat.log2_eq_iff hne).2 ⟨hlow, hlt⟩
    have htarget : Format.binary64.targetExponent (totalExponent r e) = e := by
      rw [targetExponent_eq (by omega), hlog]
      omega
    refine ⟨_, _, rfl, rfl, Or.inl ⟨hlt, ?_, ?_⟩⟩
    · rw [shiftToTargetExponent, htarget, shiftToExponent, sub_self]
      rfl
    · rw [shiftToTargetExponent, htarget, shiftToExponent, sub_self]
      exact add_zero e
  · have hlog : (2 ^ 53 : ℕ).log2 = 53 := Nat.log2_two_pow
    have htarget : Format.binary64.targetExponent (totalExponent (2 ^ 53) e) = e + 1 := by
      rw [targetExponent_eq (by omega), hlog]
      omega
    refine ⟨_, _, rfl, rfl, Or.inr ⟨rfl, ?_, ?_⟩⟩
    · rw [shiftToTargetExponent, htarget, shiftToExponent, add_sub_cancel_left]
      rfl
    · rw [shiftToTargetExponent, htarget, shiftToExponent, add_sub_cancel_left]
      rfl

/-- The nearest number with 53 binary digits, and the even one of two, is the value to round to. -/
theorem rounds_of_near {v : ℚ} {r k m : ℕ} {q : ℤ} (hv : 2 ^ 52 ≤ v ∧ v < 2 ^ 53)
    (hnear : |v - r| ≤ 1 / 2) (heven : |v - r| = 1 / 2 → r % 2 = 0) (hr : 2 ^ 52 ≤ r)
    (hcase : r < 2 ^ 53 ∧ m = r ∧ q = k ∨ r = 2 ^ 53 ∧ m = 2 ^ 52 ∧ q = k + 1) :
    Rounds ⟨m, q, m = 2 ^ 52⟩ (v * 2 ^ k) := by
  have hunit : (0 : ℚ) < 2 ^ k := by positivity
  obtain ⟨hbelow, habove⟩ := abs_le.1 hnear
  have hpos : 0 < m := by omega
  unfold Rounds
  rw [low_eq hpos, high_eq, value]
  dsimp only
  rcases hcase with ⟨-, rfl, rfl⟩ | ⟨rfl, rfl, rfl⟩
  · rw [zpow_natCast]
    rw [← sub_mul, ← add_mul, mul_lt_mul_iff_left₀ hunit, mul_lt_mul_iff_left₀ hunit,
      mul_left_inj' hunit.ne', mul_left_inj' hunit.ne']
    constructor
    · by_cases hnarrow : m = 2 ^ 52
      · left
        rw [if_pos (decide_eq_true hnarrow), hnarrow]
        push_cast
        linarith
      · rw [if_neg (by simpa using hnarrow)]
        rcases hbelow.lt_or_eq with hlt | heq
        · exact Or.inl (by linarith)
        · refine Or.inr ⟨heven ?_, by linarith⟩
          rw [← heq, abs_neg, abs_of_pos (by norm_num)]
    · rcases habove.lt_or_eq with hlt | heq
      · exact Or.inl (by linarith)
      · refine Or.inr ⟨heven ?_, by linarith⟩
        rw [heq, abs_of_pos (by norm_num)]
  · rw [zpow_add_one₀ (by norm_num), zpow_natCast]
    have hlow := mul_le_mul_of_nonneg_right hbelow hunit.le
    have hhigh := mul_lt_mul_of_pos_right hv.2 hunit
    refine ⟨?_, Or.inl ?_⟩
    · rw [if_pos (by decide)]
      rcases hlow.lt_or_eq with hlt | heq
      · left
        push_cast at hlt ⊢
        linarith
      · right
        push_cast at heq ⊢
        exact ⟨by decide, by linarith⟩
    · push_cast
      linarith

/-- An integer with its binary digits moved behind the point, rounded to binary64. -/
theorem exists_roundWithAccuracy {n : ℕ} (hn : 2 ^ 52 ≤ n) :
    ∃ m e hm, roundWithAccuracy .binary64 .positive (n * 2 ^ 53) (-53) .exact =
        .finite .positive m e hm ∧
      2 ^ 52 ≤ m ∧ m < 2 ^ 53 ∧ 0 ≤ e ∧ Rounds ⟨m, e, m = 2 ^ 52⟩ n := by
  have hne : n ≠ 0 := by omega
  have hlog : 52 ≤ n.log2 := (Nat.le_log2 hne).2 hn
  obtain ⟨k, hk⟩ := Nat.exists_eq_add_of_le hlog
  have hlower : 2 ^ (52 + k) ≤ n := hk ▸ Nat.log2_self_le hne
  have hupper : n < 2 ^ (53 + k) := by
    have := Nat.lt_log2_self (n := n)
    rwa [hk, show 52 + k + 1 = 53 + k by omega] at this
  have htarget : Format.binary64.targetExponent (totalExponent (n * 2 ^ 53) (-53)) = k := by
    rw [targetExponent_eq] <;> rw [log2_mul_two_pow hne, hk] <;> push_cast <;> omega
  -- first the digits are shifted out, and the number is held by the bits
  let whole : ExtendedMantissa := ⟨n * 2 ^ 53, false, false⟩
  let em : ExtendedMantissa := whole >>> (53 + k)
  have hfirst : shiftToTargetExponent .binary64 (n * 2 ^ 53) (-53) .exact = (em, (k : ℤ)) := by
    have hamount : ((k : ℤ) - -53).toNat = 53 + k := by omega
    have hexp : (-53 : ℤ) + (53 + k : ℕ) = k := by omega
    rw [shiftToTargetExponent, htarget, shiftToExponent, hamount, hexp]
    rfl
  have hheld : IsHeld em (n / 2 ^ k) := by
    have hexact : IsHeld whole (n * 2 ^ 53 : ℕ) := rfl
    have hvalue : ((n * 2 ^ 53 : ℕ) : ℚ) / 2 ^ (53 + k) = n / 2 ^ k := by
      push_cast
      rw [pow_add, mul_comm]
      exact mul_div_mul_left _ _ (by norm_num)
    rw [← hvalue]
    exact hexact.shiftRight (53 + k)
  have hunit : (0 : ℚ) < 2 ^ k := by positivity
  have hv : (2 : ℚ) ^ 52 ≤ n / 2 ^ k ∧ (n : ℚ) / 2 ^ k < 2 ^ 53 := by
    rw [le_div_iff₀ hunit, div_lt_iff₀ hunit, ← pow_add, ← pow_add]
    exact ⟨by exact_mod_cast hlower, by exact_mod_cast hupper⟩
  obtain ⟨hnear, heven⟩ := hheld.rounded
  obtain ⟨hbelow, habove⟩ := abs_le.1 hnear
  have hr : 2 ^ 52 ≤ em.roundedMantissa := by
    have : (2 ^ 52 : ℚ) < em.roundedMantissa + 1 := by linarith
    exact Nat.lt_succ_iff.1 (by exact_mod_cast this)
  have hr' : em.roundedMantissa ≤ 2 ^ 53 := by
    have : (em.roundedMantissa : ℚ) < 2 ^ 53 + 1 := by linarith
    exact Nat.lt_succ_iff.1 (by exact_mod_cast this)
  -- then there may be one digit more
  obtain ⟨m, q, hm, hq, hcase⟩ := shiftToTargetExponent_rounded hr hr' k.cast_nonneg
  have hrounds := rounds_of_near hv hnear heven hr hcase
  rw [div_mul_cancel₀ _ hunit.ne'] at hrounds
  have hpos : 0 < m := by omega
  refine ⟨m, q, hpos, ?_, by omega, by omega, by omega, hrounds⟩
  have hne' : (shiftToTargetExponent .binary64 em.roundedMantissa k .exact).1.mantissa ≠ 0 := by
    omega
  unfold roundWithAccuracy
  simp only [hfirst]
  rw [dif_neg hne']
  simp only [hm, hq]

/-! ## The bits of a value -/

section Bits

open Float.Model.UnpackedFloat

variable {m : ℕ} {e : ℤ} (hm : 0 < m) (s : Sign)

theorem toNat_packComponents (b : BitVec 11) (f : BitVec 52) :
    (packComponents .binary64 s b f).toNat =
      s.toBitVec.toNat * 2 ^ 63 + b.toNat * 2 ^ 52 + f.toNat := by
  have hf : f.toNat < 2 ^ 52 := f.isLt
  have hb : b.toNat < 2 ^ 11 := b.isLt
  unfold packComponents
  rw [BitVec.toNat_append, BitVec.toNat_append, ← Nat.shiftLeft_add_eq_or_of_lt hf,
    ← Nat.shiftLeft_add_eq_or_of_lt hb, Nat.shiftLeft_eq, Nat.shiftLeft_eq]
  ring

theorem pack_eq (hlow : 2 ^ 52 ≤ m) (hhigh : m < 2 ^ 53) (he : 0 ≤ e) (hmax : e ≤ 971) :
    pack .binary64 (.finite s m e hm) =
      packComponents .binary64 s (BitVec.ofNat 11 (e + 1075).toNat) (BitVec.ofNat 52 m) := by
  have hlog : m.log2 = 52 := (Nat.log2_eq_iff hm.ne').2 ⟨hlow, hhigh⟩
  have hexp : (e + (Format.binary64.exponentBias : ℤ) + (52 : ℕ)).toNat = (e + 1075).toNat := by
    have hbias : Format.binary64.exponentBias = 1023 := rfl
    rw [hbias]
    omega
  unfold pack
  dsimp only
  rw [hexp, hlog, if_neg (by omega)]
  exact if_pos rfl

theorem unpackSign_packComponents (b : BitVec 11) (f : BitVec 52) :
    Sign.ofBitVec (unpackSign (packComponents .binary64 s b f)) = s := by
  have hsign : unpackSign (packComponents .binary64 s b f) = s.toBitVec := by
    have hs : s.toBitVec.toNat < 2 := s.toBitVec.isLt
    have hb : b.toNat < 2 ^ 11 := b.isLt
    have hf : f.toNat < 2 ^ 52 := f.isLt
    refine BitVec.eq_of_toNat_eq ?_
    show ((packComponents .binary64 s b f).toNat >>> 63) % 2 ^ 1 = s.toBitVec.toNat
    rw [toNat_packComponents, Nat.shiftRight_eq_div_pow]
    omega
  rw [hsign]
  cases s <;> rfl

theorem unpack_pack (hlow : 2 ^ 52 ≤ m) (hhigh : m < 2 ^ 53) (he : 0 ≤ e) (hmax : e ≤ 971) :
    unpack .binary64 (pack .binary64 (.finite s m e hm)) = .finite s m e hm := by
  have hexp : (BitVec.ofNat 11 (e + 1075).toNat).toNat = (e + 1075).toNat := by
    rw [BitVec.toNat_ofNat, Nat.mod_eq_of_lt (by omega)]
  have hones : BitVec.ofNat 11 (e + 1075).toNat ≠ -1#11 := by
    intro heq
    rw [heq] at hexp
    have : (-1#11 : BitVec 11).toNat = 2047 := rfl
    omega
  have hzero : BitVec.ofNat 11 (e + 1075).toNat ≠ 0#11 := by
    intro heq
    rw [heq] at hexp
    have : (0#11 : BitVec 11).toNat = 0 := rfl
    omega
  have hmantissa : (1#1 ++ BitVec.ofNat 52 m).toNat = m := by
    have hfraction : (BitVec.ofNat 52 m).toNat = m % 2 ^ 52 := BitVec.toNat_ofNat m 52
    have hbit : (1#1).toNat = 1 := rfl
    rw [BitVec.toNat_append, hfraction, hbit, ← Nat.shiftLeft_add_eq_or_of_lt (by omega),
      Nat.shiftLeft_eq]
    omega
  rw [pack_eq hm s hlow hhigh he hmax]
  unfold unpack
  simp only [unpackMantissa_packComponents, unpackExponent_packComponents,
    unpackSign_packComponents, hones, hzero, if_false, hexp, hmantissa]
  congr 1
  have hbias : Format.binary64.exponentBias = 1023 := rfl
  rw [hbias]
  omega

theorem unpack_pack_infinity : unpack .binary64 (pack .binary64 (.infinity s)) = .infinity s := by
  have hpack : pack .binary64 (.infinity s) = packComponents .binary64 s (-1#11) 0 := rfl
  rw [hpack]
  unfold unpack
  simp only [unpackMantissa_packComponents, unpackExponent_packComponents,
    unpackSign_packComponents, if_true]
  rfl

/-- Where the exponent is too great, the value is infinite. -/
theorem pack_eq_infinity (he : 972 ≤ e) :
    pack .binary64 (.finite s m e hm) = pack .binary64 (.infinity s) := by
  have hbias : Format.binary64.exponentBias = 1023 := rfl
  unfold pack
  dsimp only
  rw [hbias, if_pos (by omega)]

theorem model_pack_congr {x y : Float.Model.UnpackedFloat}
    (h : pack .binary64 x = pack .binary64 y) : Float.Model.pack x = Float.Model.pack y := by
  unfold Float.Model.pack
  simp only [h]

/-- A value keeps its digits when its sign is turned around. -/
theorem pack_neg (hlow : 2 ^ 52 ≤ m) (hhigh : m < 2 ^ 53) (he : 0 ≤ e) :
    -Float.Model.pack (.finite s m e hm) = Float.Model.pack (.finite (-s) m e hm) := by
  show Float.Model.pack (unpack .binary64 (pack .binary64 (.finite s m e hm))).neg = _
  rcases le_or_gt e 971 with hmax | hmax
  · rw [unpack_pack hm s hlow hhigh he hmax]
    rfl
  · rw [pack_eq_infinity hm s hmax, unpack_pack_infinity]
    exact model_pack_congr (pack_eq_infinity hm (-s) hmax).symm

/-- The magnitude and the sign that stand in the bits of a value. -/
theorem ofBits_pack (hlow : 2 ^ 52 ≤ m) (hhigh : m < 2 ^ 53) (he : 0 ≤ e) (hmax : e ≤ 971) :
    Binary.ofBits (UInt64.ofBitVec (pack .binary64 (.finite s m e hm))) = ⟨m, e, m = 2 ^ 52⟩ ∧
      (UInt64.ofBitVec (pack .binary64 (.finite s m e hm)) >>> 63 = 1 ↔ s = .negative) := by
  have hs : s.toBitVec.toNat < 2 := s.toBitVec.isLt
  have htoNat : (UInt64.ofBitVec (pack .binary64 (.finite s m e hm))).toNat =
      s.toBitVec.toNat * 2 ^ 63 + (e + 1075).toNat * 2 ^ 52 + m % 2 ^ 52 := by
    show (pack .binary64 (.finite s m e hm)).toNat = _
    rw [pack_eq hm s hlow hhigh he hmax, toNat_packComponents, BitVec.toNat_ofNat,
      BitVec.toNat_ofNat, Nat.mod_eq_of_lt (by omega)]
  generalize UInt64.ofBitVec (pack .binary64 (.finite s m e hm)) = bits at htoNat
  have hexp : ((bits >>> 52) &&& 0x7FF).toNat = (e + 1075).toNat := by
    rw [UInt64.toNat_and, UInt64.toNat_shiftRight]
    show (bits.toNat >>> 52) &&& (2 ^ 11 - 1) = _
    rw [Nat.and_two_pow_sub_one_eq_mod, Nat.shiftRight_eq_div_pow, htoNat]
    omega
  have hfraction : (bits &&& 0xFFFFFFFFFFFFF).toNat = m % 2 ^ 52 := by
    rw [UInt64.toNat_and]
    show bits.toNat &&& (2 ^ 52 - 1) = _
    rw [Nat.and_two_pow_sub_one_eq_mod, htoNat]
    omega
  constructor
  · have hne : (e + 1075).toNat ≠ 0 := by omega
    unfold Binary.ofBits
    simp only [hexp, hfraction, if_neg hne]
    have hnarrow : (decide (m % 2 ^ 52 = 0) && decide ((e + 1075).toNat > 1)) =
        decide (m = 2 ^ 52) := by
      rw [← Bool.decide_and]
      exact decide_eq_decide.2 (by omega)
    rw [hnarrow]
    congr 1
    · omega
    · omega
  · rw [← UInt64.toNat_inj, UInt64.toNat_shiftRight]
    show bits.toNat >>> 63 = 1 ↔ _
    rw [Nat.shiftRight_eq_div_pow, htoNat]
    cases s with
    | positive =>
      have hbit : Sign.positive.toBitVec.toNat = 0 := rfl
      rw [hbit]
      refine ⟨fun h => by omega, fun h => by cases h⟩
    | negative =>
      have hbit : Sign.negative.toBitVec.toNat = 1 := rfl
      rw [hbit]
      refine ⟨fun _ => rfl, fun _ => by omega⟩

end Bits

/-- What is rounded with a greater exponent is not less than the limit. -/
theorem limit_le {m n : ℕ} {e : ℤ} (hlow : 2 ^ 52 ≤ m) (he : 972 ≤ e)
    (hn : Rounds ⟨m, e, m = 2 ^ 52⟩ n) : limit ≤ n := by
  have hcount : 2 ^ 54 - 1 ≤ if decide (m = 2 ^ 52) = true then 4 * m - 1 else 4 * m - 2 := by
    split
    · omega
    · next hwide =>
      have : m ≠ 2 ^ 52 := by simpa using hwide
      omega
  obtain ⟨k, hk⟩ : ∃ k : ℕ, k = 969 := ⟨_, rfl⟩
  have hunit : (2 : ℚ) * 2 ^ k ≤ 2 ^ (e - 2) := by
    rw [mul_comm, ← pow_succ, ← zpow_natCast]
    exact zpow_le_zpow_right₀ (by norm_num) (by omega)
  have hnonneg : (0 : ℚ) ≤ 2 * 2 ^ k := by positivity
  have hlimit : (limit : ℚ) ≤ low ⟨m, e, m = 2 ^ 52⟩ := by
    calc (limit : ℚ) = (2 ^ 54 - 1 : ℕ) * (2 * 2 ^ k) := by
          rw [limit_eq, ← hk]
          push_cast
          ring
      _ ≤ low ⟨m, e, m = 2 ^ 52⟩ :=
          mul_le_mul (by exact_mod_cast hcount) hunit hnonneg (Nat.cast_nonneg _)
  have hgoal : (limit : ℚ) ≤ n := by
    rcases hn.1 with hlt | ⟨-, heq⟩
    · exact hlimit.trans hlt.le
    · exact hlimit.trans heq.le
  exact_mod_cast hgoal

end Binary

/-! ## An integer as a floating point number -/

namespace Numeral

open Float.Model.UnpackedFloat (Sign)

/-- The sign of a number; `true` says minus. -/
def signOf (negative : Bool) : Sign := if negative then .negative else .positive

/-- A large integer is read as the value that it is rounded to, with its sign. -/
theorem exists_toFloat_eq {n : ℕ} (hn : 2 ^ 53 ≤ n) (hlength : (toString n).length ≤ 400)
    (negative : Bool) : ∃ m e hm, Parts.toFloat ⟨negative, n, 0⟩ =
        .ofModel (.pack (.finite (signOf negative) m e hm)) ∧
      2 ^ 52 ≤ m ∧ m < 2 ^ 53 ∧ 0 ≤ e ∧ Binary.Rounds ⟨m, e, m = 2 ^ 52⟩ n := by
  have hne : n ≠ 0 := by omega
  obtain ⟨m, e, hm, hround, hlow, hhigh, he, hrounds⟩ :=
    Binary.exists_roundWithAccuracy (n := n) (by omega)
  have hscientific : Float.ofScientific n false 0 =
      .ofModel (.pack (.finite .positive m e hm)) := by
    have hmul : Float.Model.UnpackedFloat.ofScientific .binary64 n 0 =
        Float.Model.UnpackedFloat.roundWithAccuracy .binary64 .positive (n <<< 53 * 1) (-53)
          .exact := by
      have hbits : Float.Model.Format.binary64.exponentBits = 11 := rfl
      unfold Float.Model.UnpackedFloat.ofScientific
      rw [dif_neg hne, hbits, if_neg (by decide), if_neg (by omega), if_pos (by decide)]
      rfl
    unfold Float.ofScientific
    rw [dif_neg (by omega)]
    show Float.ofModel (.pack (Float.Model.UnpackedFloat.ofScientific .binary64 n 0)) = _
    rw [hmul, mul_one, Nat.shiftLeft_eq, hround]
  refine ⟨m, e, hm, ?_, hlow, hhigh, he, hrounds⟩
  have hsize : ¬((toString n).length : ℤ) + 0 > 400 := by omega
  have hsize' : ¬((toString n).length : ℤ) + 0 < -400 := by omega
  unfold Parts.toFloat
  dsimp only
  rw [if_neg hne, if_neg hsize, if_neg hsize']
  cases negative with
  | false => exact hscientific
  | true =>
    show -Float.ofScientific n false 0 = _
    rw [hscientific]
    exact congrArg Float.ofModel (Binary.pack_neg hm .positive hlow hhigh he)

theorem length_toString_le {n : ℕ} (hn : n < Binary.limit) : (toString n).length ≤ 400 := by
  obtain ⟨k, hk⟩ : ∃ k : ℕ, k = 400 := ⟨_, rfl⟩
  have hlimit : Binary.limit ≤ 10 ^ k := by
    rw [hk]
    decide +kernel
  rw [← hk, Nat.toString_eq_ofList_toDigits, String.length_ofList,
    Nat.length_toDigits_le_iff (by decide) (by omega)]
  exact hn.trans_le hlimit

/-- A large integer is read as a finite number if it is less than the limit. -/
theorem isFinite_toFloat_iff {n : ℕ} (hn : 2 ^ 53 ≤ n) (negative : Bool) :
    (Parts.toFloat ⟨negative, n, 0⟩).isFinite = true ↔ n < Binary.limit := by
  rcases le_or_gt ((toString n).length) 400 with hlength | hlength
  · obtain ⟨m, e, hm, heq, hlow, hhigh, he, hrounds⟩ := exists_toFloat_eq hn hlength negative
    have hfinite (u : Float.Model.UnpackedFloat) : (Float.ofModel (.pack u)).isFinite =
        (Float.Model.UnpackedFloat.unpack .binary64
          (Float.Model.UnpackedFloat.pack .binary64 u)).isFinite := rfl
    rw [heq, hfinite]
    rcases le_or_gt e 971 with hmax | hmax
    · rw [Binary.unpack_pack hm _ hlow hhigh he hmax]
      have hwhole : Binary.IsWhole ⟨m, e, m = 2 ^ 52⟩ :=
        ⟨hlow, hhigh, decide_eq_true_iff, he, hmax⟩
      exact iff_of_true rfl (hwhole.lt_limit hrounds)
    · rw [Binary.pack_eq_infinity hm _ hmax, Binary.unpack_pack_infinity]
      exact iff_of_false (by simp [Float.Model.UnpackedFloat.isFinite])
        (Binary.limit_le hlow hmax hrounds).not_gt
  · have hlimit : ¬n < Binary.limit := fun h => (length_toString_le h).not_gt hlength
    refine iff_of_false ?_ hlimit
    have hsize : ((toString n).length : ℤ) + 0 > 400 := by omega
    have hne : n ≠ 0 := by omega
    unfold Parts.toFloat
    dsimp only
    rw [if_neg hne, if_pos hsize]
    have hinfinite : ∀ b : Bool, ¬(if b then -(1 / 0) else 1 / 0 : Float).isFinite = true := by
      decide +kernel
    exact hinfinite negative

/-- The magnitude of a finite number is the value that the integer is rounded to, and its sign is
that of the integer. -/
theorem toBits_toFloat {n : ℕ} (hn : 2 ^ 53 ≤ n) (hlt : n < Binary.limit) (negative : Bool) :
    (Binary.ofBits (Parts.toFloat ⟨negative, n, 0⟩).toBits).IsWhole ∧
      (Binary.ofBits (Parts.toFloat ⟨negative, n, 0⟩).toBits).Rounds n ∧
        ((Parts.toFloat ⟨negative, n, 0⟩).toBits >>> 63 = 1 ↔ negative = true) := by
  obtain ⟨m, e, hm, heq, hlow, hhigh, he, hrounds⟩ :=
    exists_toFloat_eq hn (length_toString_le hlt) negative
  have hmax : e ≤ 971 := by
    by_contra hgt
    exact (Binary.limit_le hlow (by omega) hrounds).not_gt hlt
  have hbits : (Parts.toFloat ⟨negative, n, 0⟩).toBits = UInt64.ofBitVec
      (Float.Model.UnpackedFloat.pack .binary64 (.finite (signOf negative) m e hm)) :=
    congrArg Float.toBits heq
  obtain ⟨hof, hsign⟩ := Binary.ofBits_pack hm (signOf negative) hlow hhigh he hmax
  rw [hbits, hof, hsign]
  refine ⟨⟨hlow, hhigh, decide_eq_true_iff, he, hmax⟩, hrounds, ?_⟩
  cases negative
  · exact ⟨nofun, nofun⟩
  · exact ⟨fun _ => rfl, fun _ => rfl⟩

end Numeral

end EventReport
