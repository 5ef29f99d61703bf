/-
Numbers of JSON text.

A number without point and exponent that fits 64 bits is an integer.  Any other
is read in two roundings: the leading digits that fit 64 bits make a significand,
and that, rounded, is multiplied or divided by one rounded power of ten.
-/
import EventReport.Decimal.Numeral
import EventReport.Json.Value

namespace EventReport.Json

/-- The greatest unsigned number of 64 bits. -/
def maxUnsigned : Nat := 18446744073709551615

/-- Takes digits into a significand while it fits 64 bits; gives the significand and the digits that
are left. -/
def absorb (significand : Nat) : List Char → Nat × List Char
  | [] => (significand, [])
  | d :: ds =>
    let next := 10 * significand + (d.toNat - 48)
    if next ≤ maxUnsigned then absorb next ds else (significand, d :: ds)

/-- Divides by `10^n` in steps that are no greater than `10^308`; `fuel` bounds them. Three steps
bring every significand to zero. -/
def divideByPower : (fuel : Nat) → Float → Nat → Float
  | 0, _, _ => 0
  | fuel + 1, x, n =>
    if n ≤ 308 then x / Float.ofScientific 1 false n
    else divideByPower fuel (x / Float.ofScientific 1 false 308) (n - 308)

/-- The number `significand * 10^exp`, negated if `negative`, unless it is too large. -/
def scaled (negative : Bool) (significand : Nat) (exp : Int) : Json :=
  let x := Float.ofNat significand
  let magnitude : Float :=
    if significand = 0 then 0
    else if exp < 0 then divideByPower 4 x exp.natAbs
    else if exp ≤ 308 then x * Float.ofScientific 1 false exp.toNat
    else 1 / 0
  if magnitude.isInf then fault .numberTooLarge
  else float (if negative then -magnitude else magnitude)

/-- The number of integer digits alone. -/
def integer (negative : Bool) (significand : Nat) : Json :=
  if !negative then int significand
  else if significand = 0 ∨ 9223372036854775808 < significand then
    float (-(Float.ofNat significand))
  else int (-(significand : Int))

/-- Digits at the front, at least one. -/
def digits? (cs : List Char) : Option (List Char × List Char) :=
  match cs.takeWhile Char.isDigit with
  | [] => none
  | ds => some (ds, cs.dropWhile Char.isDigit)

/-- The digits before the point: a zero begins no other number than zero. -/
def wholeDigits? (cs : List Char) : Option (List Char × List Char) := do
  let (ds, rest) ← digits? cs
  if ds.length > 1 ∧ ds.head? = some '0' then none else some (ds, rest)

/-- The digits after a point, if there is one. -/
def fraction? : List Char → Option (List Char × List Char)
  | '.' :: rest => digits? rest
  | rest => some ([], rest)

/-- The exponent, if there is one. -/
def exponent? : List Char → Option (Option Int × List Char)
  | [] => some (none, [])
  | c :: rest =>
    if c = 'e' ∨ c = 'E' then do
      let (negative, rest) := Numeral.sign rest
      let (ds, rest) ← digits? rest
      let n : Int := Numeral.digitsValue ds
      some (some (if negative then -n else n), rest)
    else some (none, c :: rest)

/-- Reads a number off the front of a text. -/
def number? (cs : List Char) : Option (Json × List Char) := do
  let (negative, rest) := match cs with
    | '-' :: rest => (true, rest)
    | rest => (false, rest)
  let (whole, rest) ← wholeDigits? rest
  let (fraction, rest) ← fraction? rest
  let (exponent, rest) ← exponent? rest
  let (significand, dropped) := absorb 0 whole
  if fraction.isEmpty && exponent.isNone && dropped.isEmpty then
    some (integer negative significand, rest)
  else
    let (significand, unread) := absorb significand fraction
    let exp : Int := dropped.length - (fraction.length - unread.length : Nat) + exponent.getD 0
    some (scaled negative significand exp, rest)

end EventReport.Json
