/-
The shortest decimal of a binary number.

A finite binary64 value is `m * 2^q`.  Of all decimals that read back to it, the
ones with the fewest digits are wanted, of those the nearest, and of two equally
near ones the one that the tie rule names.  The search works on exact naturals:
on the grid of `n` digits only the two neighbours of the value can be the
answer, and the first grid on which one of them reads back gives it.
-/

namespace EventReport

/-- A finite non-negative binary64 value `m * 2^q`. -/
structure Binary where
  m : Nat
  q : Int
  /-- The gap to the value below is half the gap to the value above. -/
  narrowBelow : Bool
deriving DecidableEq, Repr

/-- The decimal `digits * 10^exp`. -/
structure Decimal where
  digits : Nat
  exp : Int
deriving DecidableEq, Repr

/-- Which of two equally near neighbours is taken. -/
inductive Tie where
  | toEven
  | up
deriving DecidableEq, Repr

namespace Binary

/-- The magnitude held in the bits of a finite value. -/
def ofBits (bits : UInt64) : Binary :=
  let e := ((bits >>> 52) &&& 0x7FF).toNat
  let f := (bits &&& 0xFFFFFFFFFFFFF).toNat
  if e = 0 then ⟨f, -1074, false⟩
  else ⟨4503599627370496 + f, (e : Int) - 1075, f = 0 && e > 1⟩

/-- Compares `a * 10^i` with `n * 2^j`, exactly. -/
def compareScaled (a : Nat) (i : Int) (n : Nat) (j : Int) : Ordering :=
  compare (a * Nat.pow 10 i.toNat * Nat.pow 2 (-j).toNat)
    (n * Nat.pow 2 j.toNat * Nat.pow 10 (-i).toNat)

/-- The decimal lies among the reals that round to the value; the ends of that interval belong to it
when `m` is even. -/
def readsBack (x : Binary) (d : Decimal) : Bool :=
  let low := if x.narrowBelow then 4 * x.m - 1 else 4 * x.m - 2
  let high := 4 * x.m + 2
  let closed := x.m % 2 == 0
  let atLow := compareScaled d.digits d.exp low (x.q - 2)
  let atHigh := compareScaled d.digits d.exp high (x.q - 2)
  (atLow == .gt || (closed && atLow == .eq)) && (atHigh == .lt || (closed && atHigh == .eq))

/-- The least `k` with `x < 10^k`. The binary logarithm fixes it but for two steps. -/
def scale (x : Binary) : Int :=
  let estimate := ((x.m.log2 : Int) + x.q) * 30103 / 100000
  if compareScaled 1 estimate x.m x.q == .gt then estimate
  else if compareScaled 1 (estimate + 1) x.m x.q == .gt then estimate + 1
  else estimate + 2

/-- The neighbour of the value on the grid of multiples of `10^g` that reads back, if one does. -/
def onGrid? (x : Binary) (tie : Tie) (g : Int) : Option Decimal :=
  let num := x.m * Nat.pow 2 x.q.toNat * Nat.pow 10 (-g).toNat
  let den := Nat.pow 2 (-x.q).toNat * Nat.pow 10 g.toNat
  let below : Decimal := ⟨num / den, g⟩
  let above : Decimal := ⟨num / den + 1, g⟩
  match x.readsBack below, x.readsBack above with
  | true, false => some below
  | false, true => some above
  | false, false => none
  | true, true =>
    match compare (2 * num) ((2 * (num / den) + 1) * den), tie with
    | .lt, _ => some below
    | .gt, _ => some above
    | .eq, .up => some above
    | .eq, .toEven => if num / den % 2 = 0 then some below else some above

/-- The same decimal without trailing zeros; `fuel` bounds their number. -/
def stripZeros : Nat → Decimal → Decimal
  | 0, d => d
  | fuel + 1, d => if d.digits % 10 = 0 then stripZeros fuel ⟨d.digits / 10, d.exp + 1⟩ else d

/-- The shortest decimal of a positive value. Seventeen digits always suffice; if none were found,
the exact value would stand in. -/
def shortest (x : Binary) (tie : Tie) : Decimal :=
  let k := x.scale
  let found := (List.range 17).findSome? fun (n : Nat) => x.onGrid? tie (k - (n + 1))
  match found with
  | some d => stripZeros 17 d
  | none => if x.q ≥ 0 then ⟨x.m * Nat.pow 2 x.q.toNat, 0⟩
    else ⟨x.m * Nat.pow 5 (-x.q).toNat, x.q⟩

end Binary

end EventReport
