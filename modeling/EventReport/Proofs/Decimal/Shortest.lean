/-
# The shortest decimal of a binary number

Around each binary64 value stand the numbers that are rounded to it, half a unit to each side.  A
value is written as the decimal among them that has the fewest digits.

## What is proved

For the values from 2^52 on (`IsWhole`): seventeen digits are enough (`IsWhole.exists_rounds`), so
that the search finds a decimal that is rounded to the value, and none with fewer digits is
(`IsWhole.shortest_spec`).  A decimal with up to fifteen digits is found by it if it is rounded to
the value at all (`IsWhole.shortest_eq`).  No number is rounded to two values
(`IsWhole.eq_of_rounds_both`).

## Shape of the proof

Decimals and values are compared exactly, over the rational numbers (`compareScaled_eq`).  The
numbers that are rounded to a value form an interval, so that on a grid of multiples of a power of
ten it is enough to look at the two neighbours of the value.  The grid of seventeen digits is
narrower than the interval, and that of fifteen wider.
-/
import EventReport.Proofs.Decimal.Value

namespace EventReport

namespace Binary

/-! ## Exact comparison -/

theorem zpow_mul_toNat {b : ℚ} (hb : b ≠ 0) (i : ℤ) : b ^ i * b ^ (-i).toNat = b ^ i.toNat := by
  rw [← zpow_natCast, ← zpow_natCast, ← zpow_add₀ hb]
  congr 1
  omega

theorem compareScaled_eq (a : ℕ) (i : ℤ) (n : ℕ) (j : ℤ) :
    compareScaled a i n j = cmp ((a : ℚ) * 10 ^ i) (n * 2 ^ j) := by
  let common : ℚ := 10 ^ (-i).toNat * 2 ^ (-j).toNat
  have hcommon : 0 < common := by positivity
  have hleft : common * (a * 10 ^ i) = ((a * 10 ^ i.toNat * 2 ^ (-j).toNat : ℕ) : ℚ) := by
    have hten := zpow_mul_toNat (b := 10) (by norm_num) i
    push_cast
    rw [← hten]
    ring
  have hright : common * (n * 2 ^ j) = ((n * 2 ^ j.toNat * 10 ^ (-i).toNat : ℕ) : ℚ) := by
    have htwo := zpow_mul_toNat (b := 2) (by norm_num) j
    push_cast
    rw [← htwo]
    ring
  rw [← cmp_mul_pos_left hcommon, hleft, hright, Nat.strictMono_cast.cmp_map_eq, cmp_eq_compare]
  rfl

/-! ## The numbers that are rounded to a value -/

/-- The number that is held. -/
def value (x : Binary) : ℚ := x.m * 2 ^ x.q

/-- Half way to the value below. -/
def low (x : Binary) : ℚ :=
  ((if x.narrowBelow then 4 * x.m - 1 else 4 * x.m - 2 : ℕ) : ℚ) * 2 ^ (x.q - 2)

/-- Half way to the value above. -/
def high (x : Binary) : ℚ := ((4 * x.m + 2 : ℕ) : ℚ) * 2 ^ (x.q - 2)

/-- A number is rounded to the value: it is the nearest one, and the even one of two. -/
def Rounds (x : Binary) (v : ℚ) : Prop :=
  (x.low < v ∨ x.m % 2 = 0 ∧ x.low = v) ∧ (v < x.high ∨ x.m % 2 = 0 ∧ v = x.high)

variable {x : Binary}

theorem readsBack_iff {d : Decimal} : x.readsBack d = true ↔ x.Rounds d.value := by
  simp only [readsBack, compareScaled_eq, Bool.and_eq_true, Bool.or_eq_true, beq_iff_eq,
    cmp_eq_lt_iff, cmp_eq_gt_iff, cmp_eq_eq_iff]
  unfold Rounds
  rw [eq_comm (a := x.low)]
  rfl

theorem Rounds.convex {u v w : ℚ} (hu : x.Rounds u) (hw : x.Rounds w) (huv : u ≤ v) (hvw : v ≤ w) :
    x.Rounds v := by
  refine ⟨?_, ?_⟩
  · rcases hu.1 with hlow | ⟨heven, hlow⟩
    · exact Or.inl (hlow.trans_le huv)
    · rcases huv.lt_or_eq with hlt | heq
      · exact Or.inl (hlow.trans_lt hlt)
      · exact Or.inr ⟨heven, hlow.trans heq⟩
  · rcases hw.2 with hhigh | ⟨heven, hhigh⟩
    · exact Or.inl (hvw.trans_lt hhigh)
    · rcases hvw.lt_or_eq with hlt | heq
      · exact Or.inl (hlt.trans_eq hhigh)
      · exact Or.inr ⟨heven, heq.trans hhigh⟩

theorem unit_pos : (0 : ℚ) < 2 ^ x.q := by positivity

theorem quarter_eq : (2 : ℚ) ^ (x.q - 2) = 2 ^ x.q / 4 := by
  rw [zpow_sub₀ (by norm_num)]
  norm_num

theorem low_eq (hm : 0 < x.m) :
    x.low = x.value - (if x.narrowBelow then 1 / 4 else 1 / 2) * 2 ^ x.q := by
  unfold low value
  rw [quarter_eq]
  split
  · rw [Nat.cast_sub (by omega)]
    push_cast
    ring
  · rw [Nat.cast_sub (by omega)]
    push_cast
    ring

theorem high_eq : x.high = x.value + 1 / 2 * 2 ^ x.q := by
  unfold high value
  rw [quarter_eq]
  push_cast
  ring

/-- The values of binary64 from 2^52 on.  All of them are whole. -/
structure IsWhole (x : Binary) : Prop where
  le : 2 ^ 52 ≤ x.m
  lt : x.m < 2 ^ 53
  narrow : x.narrowBelow = true ↔ x.m = 2 ^ 52
  nonneg : 0 ≤ x.q
  le_max : x.q ≤ 971

namespace IsWhole

variable (h : x.IsWhole)
include h

theorem pos : 0 < x.m := lt_of_lt_of_le (by decide) h.le

theorem le_value : 2 ^ 52 * 2 ^ x.q ≤ x.value := by
  have hm : (2 ^ 52 : ℚ) ≤ x.m := by exact_mod_cast h.le
  exact mul_le_mul_of_nonneg_right hm unit_pos.le

theorem value_lt : x.value < 2 ^ 53 * 2 ^ x.q := by
  have hm : (x.m : ℚ) < 2 ^ 53 := by exact_mod_cast h.lt
  exact mul_lt_mul_of_pos_right hm unit_pos

theorem rounds_value : x.Rounds x.value := by
  have hunit := unit_pos (x := x)
  refine ⟨Or.inl ?_, Or.inl ?_⟩
  · rw [low_eq h.pos]
    split <;> linarith
  · rw [high_eq]
    linarith

/-- A number is rounded by no more than half a unit. -/
theorem abs_sub_le {v : ℚ} (hv : x.Rounds v) : |v - x.value| ≤ 1 / 2 * 2 ^ x.q := by
  have hunit := unit_pos (x := x)
  have hlow : x.value - 1 / 2 * 2 ^ x.q ≤ x.low := by
    rw [low_eq h.pos]
    split <;> linarith
  have hhigh := high_eq (x := x)
  rw [abs_le]
  constructor
  · rcases hv.1 with hlt | ⟨-, heq⟩ <;> linarith
  · rcases hv.2 with hlt | ⟨-, heq⟩ <;> linarith

/-- Of the multiples of a number, one alone is rounded to the value if it is among the first
2^52. -/
theorem eq_of_rounds {a c : ℕ} {grid : ℚ} (hgrid : 0 < grid) (ha : x.Rounds (a * grid))
    (hc : x.Rounds (c * grid)) (hsmall : a < 2 ^ 52) : a = c := by
  by_contra hne
  have hunit := unit_pos (x := x)
  have ha' := abs_le.1 (h.abs_sub_le ha)
  have hc' := abs_le.1 (h.abs_sub_le hc)
  have hle := h.le_value
  -- two of them are no further apart than a unit
  have hgrid' : grid ≤ 2 ^ x.q := by
    rcases Nat.lt_or_gt_of_ne hne with hlt | hlt
    · have hstep : (a : ℚ) + 1 ≤ c := by exact_mod_cast hlt
      have := mul_le_mul_of_nonneg_right hstep hgrid.le
      linarith
    · have hstep : (c : ℚ) + 1 ≤ a := by exact_mod_cast hlt
      have := mul_le_mul_of_nonneg_right hstep hgrid.le
      linarith
  have hbound : (a : ℚ) ≤ 2 ^ 52 - 1 := by
    have : (a : ℚ) + 1 ≤ 2 ^ 52 := by exact_mod_cast hsmall
    linarith
  have hfar : (a : ℚ) * grid ≤ (2 ^ 52 - 1) * 2 ^ x.q :=
    mul_le_mul hbound hgrid' hgrid.le (by norm_num)
  linarith

end IsWhole

/-! ## The scale -/

/-- The estimate of the scale from the binary logarithm. -/
theorem estimate_bounds : ∀ l < 1100, 10 ^ (l * 30103 / 100000) ≤ 10 * 2 ^ l ∧
    2 ^ (l + 1) ≤ 10 ^ (l * 30103 / 100000 + 2) := by
  decide +kernel

/-- The scale of a value is the number of its digits before the point. -/
theorem IsWhole.scale_bounds (h : x.IsWhole) :
    10 ^ (x.scale - 1) ≤ x.value ∧ x.value < 10 ^ x.scale := by
  have hlog : x.m.log2 = 52 := by
    have hne : x.m ≠ 0 := by have := h.le; omega
    rw [Nat.log2_eq_iff hne]
    exact ⟨h.le, h.lt⟩
  obtain ⟨q, hq⟩ := Int.eq_ofNat_of_zero_le h.nonneg
  have hlarge : q < 1000 := by have := h.le_max; omega
  obtain ⟨hbelow, habove⟩ := estimate_bounds (52 + q) (by omega)
  have hten : (10 : ℚ) ≠ 0 := by norm_num
  have hestimate : (((x.m.log2 : ℕ) : ℤ) + x.q) * 30103 / 100000 =
      (((52 + q) * 30103 / 100000 : ℕ) : ℤ) := by
    rw [hlog, hq]
    omega
  generalize (52 + q) * 30103 / 100000 = e at hbelow habove hestimate
  have hlow : (10 : ℚ) ^ ((e : ℤ) - 1) ≤ x.value := by
    have hcast : (10 : ℚ) ^ e ≤ 10 * 2 ^ (52 + q) := by exact_mod_cast hbelow
    have hle := h.le_value
    rw [hq, zpow_natCast, ← pow_add] at hle
    rw [zpow_sub₀ hten, zpow_natCast, zpow_one, div_le_iff₀ (by norm_num)]
    linarith
  have hhigh : x.value < (10 : ℚ) ^ ((e : ℤ) + 2) := by
    have hcast : (2 : ℚ) ^ (52 + q + 1) ≤ 10 ^ (e + 2) := by exact_mod_cast habove
    have hlt := h.value_lt
    rw [hq, zpow_natCast, ← pow_add] at hlt
    have hzpow : (10 : ℚ) ^ ((e : ℤ) + 2) = 10 ^ (e + 2) := zpow_natCast 10 (e + 2)
    rw [hzpow]
    calc x.value < 2 ^ (53 + q) := hlt
      _ = 2 ^ (52 + q + 1) := by ring
      _ ≤ 10 ^ (e + 2) := hcast
  have hcompare (k : ℤ) : (compareScaled 1 k x.m x.q == .gt) = true ↔ x.value < 10 ^ k := by
    rw [compareScaled_eq, beq_iff_eq, cmp_eq_gt_iff, Nat.cast_one, one_mul]
    rfl
  unfold scale
  simp only [hestimate]
  split
  · next hfirst => exact ⟨hlow, (hcompare _).1 hfirst⟩
  · next hfirst =>
    rw [hcompare, not_lt] at hfirst
    split
    · next hsecond =>
      rw [add_sub_cancel_right]
      exact ⟨hfirst, (hcompare _).1 hsecond⟩
    · next hsecond =>
      rw [hcompare, not_lt] at hsecond
      rw [show (e : ℤ) + 2 - 1 = e + 1 by ring]
      exact ⟨hsecond, hhigh⟩

/-! ## The neighbours on a grid -/

/-- The multiple of `10^g` at or below the value. -/
def floorOn (x : Binary) (g : ℤ) : ℕ :=
  x.m * 2 ^ x.q.toNat * 10 ^ (-g).toNat / (2 ^ (-x.q).toNat * 10 ^ g.toNat)

theorem floorOn_bounds (g : ℤ) :
    x.floorOn g * 10 ^ g ≤ x.value ∧ x.value < (x.floorOn g + 1 : ℕ) * 10 ^ g := by
  let common : ℚ := 10 ^ (-g).toNat * 2 ^ (-x.q).toNat
  have hcommon : 0 < common := by positivity
  have hnum : common * x.value = ((x.m * 2 ^ x.q.toNat * 10 ^ (-g).toNat : ℕ) : ℚ) := by
    have htwo := zpow_mul_toNat (b := 2) (by norm_num) x.q
    unfold value
    push_cast
    rw [← htwo]
    ring
  have hden (c : ℕ) : common * (c * 10 ^ g) =
      ((c * (2 ^ (-x.q).toNat * 10 ^ g.toNat) : ℕ) : ℚ) := by
    have hten := zpow_mul_toNat (b := 10) (by norm_num) g
    push_cast
    rw [← hten]
    ring
  have hpos : 0 < 2 ^ (-x.q).toNat * 10 ^ g.toNat := by positivity
  constructor
  · rw [← mul_le_mul_iff_right₀ hcommon, hnum, hden, Nat.cast_le]
    exact Nat.div_mul_le_self _ _
  · rw [← mul_lt_mul_iff_right₀ hcommon, hnum, hden, Nat.cast_lt]
    exact Nat.lt_mul_of_div_lt (Nat.lt_succ_self _) hpos

/-- On a grid one of the neighbours is found that are rounded to the value. -/
theorem onGrid?_cases (tie : Tie) (g : ℤ) :
    x.onGrid? tie g = none ∧ x.readsBack ⟨x.floorOn g, g⟩ = false ∧
        x.readsBack ⟨x.floorOn g + 1, g⟩ = false ∨
      ∃ c, x.onGrid? tie g = some ⟨c, g⟩ ∧ (c = x.floorOn g ∨ c = x.floorOn g + 1) ∧
        x.readsBack ⟨c, g⟩ = true := by
  have hfloor : x.m * Nat.pow 2 x.q.toNat * Nat.pow 10 (-g).toNat /
      (Nat.pow 2 (-x.q).toNat * Nat.pow 10 g.toNat) = x.floorOn g := rfl
  unfold onGrid?
  simp only [hfloor]
  cases hbelow : x.readsBack ⟨x.floorOn g, g⟩ <;>
    cases habove : x.readsBack ⟨x.floorOn g + 1, g⟩
  · exact Or.inl ⟨rfl, rfl, rfl⟩
  · exact Or.inr ⟨_, rfl, Or.inr rfl, habove⟩
  · exact Or.inr ⟨_, rfl, Or.inl rfl, hbelow⟩
  · -- the nearer one, or the one that the tie rule names
    dsimp only
    split
    · exact Or.inr ⟨_, rfl, Or.inl rfl, hbelow⟩
    · exact Or.inr ⟨_, rfl, Or.inr rfl, habove⟩
    · exact Or.inr ⟨_, rfl, Or.inr rfl, habove⟩
    · split
      · exact Or.inr ⟨_, rfl, Or.inl rfl, hbelow⟩
      · exact Or.inr ⟨_, rfl, Or.inr rfl, habove⟩

/-- If nothing is found on a grid, nothing on it is rounded to the value. -/
theorem IsWhole.not_rounds_of_onGrid? (h : x.IsWhole) {tie : Tie} {g : ℤ}
    (hnone : x.onGrid? tie g = none) (c : ℕ) : ¬x.Rounds (c * 10 ^ g) := by
  intro hc
  obtain ⟨hbelow, habove⟩ := x.floorOn_bounds g
  have hgrid : (0 : ℚ) < 10 ^ g := by positivity
  rcases onGrid?_cases (x := x) tie g with ⟨-, hlow, hhigh⟩ | ⟨_, hsome, -⟩
  · -- the value stands between the multiple and one of its neighbours
    rw [← Bool.not_eq_true, readsBack_iff] at hlow hhigh
    rcases Nat.lt_or_ge (x.floorOn g) c with hlt | hle
    · have hcast : ((x.floorOn g + 1 : ℕ) : ℚ) * 10 ^ g ≤ c * 10 ^ g :=
        mul_le_mul_of_nonneg_right (by exact_mod_cast hlt) hgrid.le
      exact hhigh (h.rounds_value.convex hc habove.le hcast)
    · have hcast : (c : ℚ) * 10 ^ g ≤ x.floorOn g * 10 ^ g :=
        mul_le_mul_of_nonneg_right (by exact_mod_cast hle) hgrid.le
      exact hlow (hc.convex h.rounds_value hcast hbelow)
  · rw [hsome] at hnone
    cases hnone

/-! ## Seventeen digits -/

/-- Seventeen digits always suffice. -/
theorem IsWhole.exists_rounds (h : x.IsWhole) : ∃ c : ℕ, x.Rounds (c * 10 ^ (x.scale - 17)) := by
  obtain ⟨hbelow, habove⟩ := x.floorOn_bounds (x.scale - 17)
  obtain ⟨hscale, -⟩ := h.scale_bounds
  have hunit := unit_pos (x := x)
  have hgrid : (10 : ℚ) ^ 16 * 10 ^ (x.scale - 17) ≤ x.value := by
    refine le_trans (le_of_eq ?_) hscale
    rw [← zpow_natCast, ← zpow_add₀ (by norm_num)]
    congr 1
    push_cast
    ring
  generalize (10 : ℚ) ^ (x.scale - 17) = grid at *
  by_contra hnone
  have hvalue_low : x.low < x.value := by
    rw [low_eq h.pos]
    split <;> linarith
  have hvalue_high : x.value < x.high := by
    rw [high_eq]
    linarith
  -- else the interval would be no wider than the grid
  have hlow : x.floorOn (x.scale - 17) * grid ≤ x.low := by
    by_contra hlt
    exact hnone ⟨_, Or.inl (not_le.1 hlt), Or.inl (hbelow.trans_lt hvalue_high)⟩
  have hhigh : x.high ≤ (x.floorOn (x.scale - 17) + 1 : ℕ) * grid := by
    by_contra hlt
    exact hnone ⟨_, Or.inl (hvalue_low.trans habove), Or.inl (not_le.1 hlt)⟩
  push_cast at hhigh
  rw [low_eq h.pos] at hlow
  rw [high_eq] at hhigh
  split at hlow
  · next hnarrow =>
    have hvalue : x.value = 2 ^ 52 * 2 ^ x.q := by
      rw [value, h.narrow.1 hnarrow]
      norm_num
    linarith
  · have hlt := h.value_lt
    linarith

/-! ## The search -/

theorem value_stripZeros (fuel : ℕ) (d : Decimal) : (stripZeros fuel d).value = d.value := by
  induction fuel generalizing d with
  | zero => rfl
  | succ fuel ih =>
    unfold stripZeros
    split
    · next hzero =>
      have hdigits : (d.digits : ℚ) = 10 * (d.digits / 10 : ℕ) := by
        exact_mod_cast (Nat.mul_div_cancel' (Nat.dvd_of_mod_eq_zero hzero)).symm
      rw [ih, Decimal.value, Decimal.value, hdigits, zpow_add_one₀ (by norm_num)]
      ring
    · rfl

/-- What is found first is found for none before. -/
theorem findSome?_range_eq_some {α : Type} {f : ℕ → Option α} {n : ℕ} {a : α}
    (hfound : (List.range n).findSome? f = some a) :
    ∃ k < n, f k = some a ∧ ∀ j < k, f j = none := by
  induction n with
  | zero => cases hfound
  | succ n ih =>
    rw [List.range_succ, List.findSome?_append, Option.or_eq_some_iff] at hfound
    rcases hfound with hfound | ⟨hnone, hfound⟩
    · obtain ⟨k, hk, hfk, hbefore⟩ := ih hfound
      exact ⟨k, hk.trans n.lt_succ_self, hfk, hbefore⟩
    · refine ⟨n, n.lt_succ_self, by simpa using hfound, fun j hj => ?_⟩
      exact List.findSome?_eq_none_iff.1 hnone j (List.mem_range.2 hj)

/-- On the grid with a digit more than `n` no digit is left out but `n` at most. -/
theorem IsWhole.floorOn_lt (h : x.IsWhole) (n : ℕ) : x.floorOn (x.scale - n) < 10 ^ n := by
  obtain ⟨hbelow, -⟩ := x.floorOn_bounds (x.scale - n)
  have hlt := hbelow.trans_lt h.scale_bounds.2
  have hsplit : (10 : ℚ) ^ x.scale = 10 ^ n * 10 ^ (x.scale - n) := by
    rw [← zpow_natCast, ← zpow_add₀ (by norm_num), add_sub_cancel]
  have hgrid : (0 : ℚ) < 10 ^ (x.scale - n) := by positivity
  rw [hsplit, mul_lt_mul_iff_left₀ hgrid] at hlt
  exact_mod_cast hlt

/-- The shortest decimal of a value is rounded to it, has at most seventeen digits, and no decimal
with fewer digits is rounded to it. -/
theorem IsWhole.shortest_spec (h : x.IsWhole) (tie : Tie) : ∃ n < 17, ∃ c : ℕ, c ≤ 10 ^ (n + 1) ∧
    (x.shortest tie).value = c * 10 ^ (x.scale - (n + 1 : ℕ)) ∧ x.Rounds (x.shortest tie).value ∧
      ∀ j < n, ∀ a : ℕ, ¬x.Rounds (a * 10 ^ (x.scale - (j + 1 : ℕ))) := by
  let search (n : ℕ) : Option Decimal := x.onGrid? tie (x.scale - (n + 1 : ℕ))
  have hsome : ((List.range 17).findSome? search).isSome = true := by
    rw [List.findSome?_isSome_iff]
    refine ⟨16, by decide, ?_⟩
    by_contra hnone
    obtain ⟨c, hc⟩ := h.exists_rounds
    exact h.not_rounds_of_onGrid? (Option.not_isSome_iff_eq_none.1 hnone) c hc
  obtain ⟨d, hd⟩ := Option.isSome_iff_exists.1 hsome
  obtain ⟨n, hn, hfound, hbefore⟩ := findSome?_range_eq_some hd
  have hshortest : x.shortest tie = stripZeros 17 d := by
    have hsearch : (List.range 17).findSome?
        (fun n : ℕ => x.onGrid? tie (x.scale - (n + 1))) = some d := hd
    unfold shortest
    simp only [hsearch]
  rcases onGrid?_cases (x := x) tie (x.scale - (n + 1 : ℕ)) with
    ⟨hnone, -⟩ | ⟨c, hc, hnear, hreads⟩
  · cases hnone.symm.trans hfound
  · obtain rfl : ⟨c, x.scale - (n + 1 : ℕ)⟩ = d := Option.some.inj (hc.symm.trans hfound)
    have hfloor := h.floorOn_lt (n + 1)
    rw [hshortest, value_stripZeros]
    refine ⟨n, hn, c, ?_, rfl, readsBack_iff.1 hreads, ?_⟩
    · rcases hnear with rfl | rfl
      · exact hfloor.le
      · exact hfloor
    · exact fun j hj a => h.not_rounds_of_onGrid? (hbefore j hj) a

/-- The shortest decimal is the only one with up to fifteen digits that is rounded to the value. -/
theorem IsWhole.shortest_eq (h : x.IsWhole) (tie : Tie) {a : ℕ} (hsmall : a < 2 ^ 52) {e : ℤ}
    (ha : x.Rounds (a * 10 ^ e)) : (x.shortest tie).value = a * 10 ^ e := by
  obtain ⟨n, -, c, hc, hvalue, hrounds, hfirst⟩ := h.shortest_spec tie
  rw [hvalue] at hrounds ⊢
  -- a decimal on a grid is one on each finer grid
  have hfiner (b : ℕ) {f g : ℤ} (hle : g ≤ f) :
      (b : ℚ) * 10 ^ f = (b * 10 ^ (f - g).toNat : ℕ) * 10 ^ g := by
    have hzpow : (10 : ℚ) ^ f = 10 ^ (f - g).toNat * 10 ^ g := by
      rw [← zpow_natCast, ← zpow_add₀ (by norm_num)]
      congr 1
      omega
    push_cast
    rw [hzpow, mul_assoc]
  have hpos (g : ℤ) : (0 : ℚ) < 10 ^ g := by positivity
  rcases le_or_gt e (x.scale - (n + 1 : ℕ)) with hle | hlt
  · rw [hfiner c hle] at hrounds ⊢
    rw [← h.eq_of_rounds (hpos e) ha hrounds hsmall]
  · cases n with
    | zero =>
      rw [hfiner a hlt.le] at ha ⊢
      rw [h.eq_of_rounds (hpos _) hrounds ha (by omega)]
    | succ n =>
      have hle : x.scale - (n + 1 : ℕ) ≤ e := by
        push_cast at hlt ⊢
        omega
      rw [hfiner a hle] at ha
      exact absurd ha (hfirst n n.lt_succ_self _)

end Binary

/-- The number has at most `k` significant digits. -/
def HasDigits (k : ℕ) (v : ℚ) : Prop := ∃ c : ℕ, c < 10 ^ k ∧ ∃ e : ℤ, v = c * 10 ^ e

namespace Binary

variable {x : Binary}

theorem IsWhole.hasDigits_shortest (h : x.IsWhole) (tie : Tie) :
    HasDigits 17 (x.shortest tie).value := by
  obtain ⟨n, hn, c, hc, hvalue, -⟩ := h.shortest_spec tie
  have hle : c ≤ 10 ^ 17 := hc.trans (Nat.pow_le_pow_right (by decide) hn)
  rcases hle.lt_or_eq with hlt | rfl
  · exact ⟨c, hlt, _, hvalue⟩
  · refine ⟨1, by decide, x.scale - (n + 1 : ℕ) + 17, ?_⟩
    rw [hvalue, zpow_add₀ (by norm_num)]
    push_cast
    ring

/-! ## A number is rounded to one value -/

/-- The values are in the order of their exponents, and of their digits under one exponent. -/
theorem IsWhole.high_le_low {y : Binary} (hx : x.IsWhole) (hy : y.IsWhole)
    (hlt : x.q < y.q ∨ x.q = y.q ∧ x.m < y.m) :
    x.high ≤ y.low ∧ (x.high = y.low → ¬(x.m % 2 = 0 ∧ y.m % 2 = 0)) := by
  have hxle := hx.le
  have hxlt := hx.lt
  have hyle := hy.le
  have hunit : (0 : ℚ) < 2 ^ (x.q - 2) := by positivity
  -- it is enough to compare what is counted in the unit of the lesser one
  suffices hcount : ∃ k : ℕ, k * 2 ^ (x.q - 2) ≤ y.low ∧ 4 * x.m + 2 ≤ k ∧
      (4 * x.m + 2 = k → ¬(x.m % 2 = 0 ∧ y.m % 2 = 0)) by
    obtain ⟨k, hk, hle, hodd⟩ := hcount
    have hhigh : x.high ≤ k * 2 ^ (x.q - 2) :=
      mul_le_mul_of_nonneg_right (by exact_mod_cast hle) hunit.le
    refine ⟨hhigh.trans hk, fun heq => hodd ?_⟩
    have hsame : x.high = k * 2 ^ (x.q - 2) := le_antisymm hhigh (heq ▸ hk)
    exact_mod_cast mul_right_cancel₀ hunit.ne' hsame
  rcases hlt with hlt | ⟨hq, hlt⟩
  · -- the greatest value under one exponent is odd
    refine ⟨2 * (2 ^ 54 - 1), ?_, by omega, by omega⟩
    have hstep : (2 : ℚ) * 2 ^ (x.q - 2) ≤ 2 ^ (y.q - 2) := by
      rw [mul_comm, ← zpow_add_one₀ (by norm_num)]
      exact zpow_le_zpow_right₀ (by norm_num) (by omega)
    have hlow : (2 ^ 54 - 1 : ℕ) ≤ if y.narrowBelow then 4 * y.m - 1 else 4 * y.m - 2 := by
      have hnarrow := hy.narrow
      split
      · omega
      · next hwide =>
        have : y.m ≠ 2 ^ 52 := fun h => hwide (hnarrow.2 h)
        omega
    calc ((2 * (2 ^ 54 - 1) : ℕ) : ℚ) * 2 ^ (x.q - 2)
        = (2 ^ 54 - 1 : ℕ) * (2 * 2 ^ (x.q - 2)) := by push_cast; ring
      _ ≤ (2 ^ 54 - 1 : ℕ) * 2 ^ (y.q - 2) := mul_le_mul_of_nonneg_left hstep (by positivity)
      _ ≤ y.low := mul_le_mul_of_nonneg_right (by exact_mod_cast hlow) (by positivity)
  · refine ⟨4 * y.m - 2, ?_, by omega, by omega⟩
    have hwide : ¬y.narrowBelow = true := fun h => by
      have := hy.narrow.1 h
      omega
    rw [low, if_neg hwide, hq]

theorem IsWhole.eq_of_rounds_both {y : Binary} (hx : x.IsWhole) (hy : y.IsWhole) {v : ℚ}
    (hxv : x.Rounds v) (hyv : y.Rounds v) : x = y := by
  -- where one is above the other, the number would be the end of both, and both would be even
  have hapart {x y : Binary} (hx : x.IsWhole) (hy : y.IsWhole) (hxv : x.Rounds v)
      (hyv : y.Rounds v) : ¬(x.q < y.q ∨ x.q = y.q ∧ x.m < y.m) := by
    intro hlt
    obtain ⟨hle, hodd⟩ := hx.high_le_low hy hlt
    rcases hxv.2 with hhigh | ⟨hxeven, hhigh⟩
    · rcases hyv.1 with hlow | ⟨-, hlow⟩ <;> linarith
    · rcases hyv.1 with hlow | ⟨hyeven, hlow⟩
      · linarith
      · exact hodd (by linarith) ⟨hxeven, hyeven⟩
  have hxy := hapart hx hy hxv hyv
  have hyx := hapart hy hx hyv hxv
  have hq : x.q = y.q := by omega
  have hm : x.m = y.m := by omega
  have hnarrow : x.narrowBelow = y.narrowBelow := by
    rw [Bool.eq_iff_iff, hx.narrow, hy.narrow, hm]
  cases x
  cases y
  simp_all

/-- From this number on, numbers are rounded to infinity. -/
def limit : ℕ := 2 ^ 1024 - 2 ^ 970

theorem limit_eq : limit = (2 ^ 55 - 2) * 2 ^ 969 := by decide +kernel

theorem IsWhole.lt_limit (h : x.IsWhole) {n : ℕ} (hn : x.Rounds n) : n < limit := by
  have hlt := h.lt
  have hnonneg : (0 : ℚ) ≤ 2 ^ (x.q - 2) := by positivity
  obtain ⟨e, he⟩ : ∃ e : ℕ, e = 969 := ⟨_, rfl⟩
  have hunit : (2 : ℚ) ^ (x.q - 2) ≤ 2 ^ e := by
    have hle := h.le_max
    rw [← zpow_natCast]
    exact zpow_le_zpow_right₀ (by norm_num) (by omega)
  have hpos : (0 : ℚ) < 2 ^ e := by positivity
  have hlimit : (limit : ℚ) = (2 ^ 55 - 2 : ℕ) * 2 ^ e := by
    rw [limit_eq, ← he, Nat.cast_mul, Nat.cast_pow, Nat.cast_two]
  have hbelow {k : ℕ} (hk : 4 * x.m + 2 ≤ k) : x.high ≤ k * 2 ^ e :=
    mul_le_mul (by exact_mod_cast hk) hunit hnonneg k.cast_nonneg
  have hgoal : (n : ℚ) < limit := by
    rw [hlimit]
    rcases hn.2 with hhigh | ⟨heven, hhigh⟩
    · exact hhigh.trans_le (hbelow (by omega))
    · -- the greatest value is odd
      have hless : ((2 ^ 55 - 3 : ℕ) : ℚ) < (2 ^ 55 - 2 : ℕ) := by norm_num
      rw [hhigh]
      exact (hbelow (by omega)).trans_lt (mul_lt_mul_of_pos_right hless hpos)
  exact_mod_cast hgoal

end Binary

end EventReport
