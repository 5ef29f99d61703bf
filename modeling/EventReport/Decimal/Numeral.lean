/-
Reading numerals.

An integer numeral is an optional sign and decimal digits, and is read only if
it fits 64 signed bits.  A decimal numeral has an optional sign, digits with an
optional point (on one side of which digits may be missing) and an optional
exponent; its value is rounded once, to nearest.  The names of infinity and of
what is not a number are numerals too, with no finite value.
-/
import EventReport.Text.Caseless

namespace EventReport.Numeral

/-- The value of a run of digits. -/
def digitsValue (ds : List Char) : Nat := ds.foldl (fun n d => 10 * n + (d.toNat - 48)) 0

/-- Splits off a leading sign; `true` says minus. -/
def sign : List Char → Bool × List Char
  | '-' :: rest => (true, rest)
  | '+' :: rest => (false, rest)
  | rest => (false, rest)

/-- The value of an integer numeral within 64 signed bits. -/
def int? (cs : List Char) : Option Int :=
  let (negative, digits) := sign cs
  if digits.isEmpty || !digits.all Char.isDigit then none
  else
    let value : Int := if negative then -(digitsValue digits : Int) else digitsValue digits
    if -9223372036854775808 ≤ value ∧ value ≤ 9223372036854775807 then some value else none

/-- A decimal numeral: `digits * 10^exp`, negated if `negative`. -/
structure Parts where
  negative : Bool
  digits : Nat
  exp : Int
deriving DecidableEq, Repr

/-- The exponent after its mark: an optional sign and at least one digit. -/
def exponent? (cs : List Char) : Option Int :=
  let (negative, digits) := sign cs
  if digits.isEmpty || !digits.all Char.isDigit then none
  else if negative then some (-(digitsValue digits : Int)) else some (digitsValue digits)

/-- Reads an unsigned decimal numeral. -/
def unsigned? (negative : Bool) (cs : List Char) : Option Parts := do
  let whole := cs.takeWhile Char.isDigit
  let afterWhole := cs.dropWhile Char.isDigit
  let (fraction, afterFraction) := match afterWhole with
    | '.' :: rest => (rest.takeWhile Char.isDigit, rest.dropWhile Char.isDigit)
    | rest => ([], rest)
  if whole.isEmpty && fraction.isEmpty then none
  else
    let e ← match afterFraction with
      | [] => some 0
      | c :: rest => if c = 'e' || c = 'E' then exponent? rest else none
    some ⟨negative, digitsValue (whole ++ fraction), e - fraction.length⟩

/-- The value of the parts, rounded to nearest. Far out of range the answer is known without the
power of ten. -/
def Parts.toFloat (p : Parts) : Float :=
  let size : Int := (toString p.digits).length + p.exp
  let magnitude : Float :=
    if p.digits = 0 then 0
    else if size > 400 then 1 / 0
    else if size < -400 then 0
    else Float.ofScientific p.digits (p.exp < 0) p.exp.natAbs
  if p.negative then -magnitude else magnitude

/-- The names of the values that are no finite numbers. -/
def isSpecialName (cs : List Char) : Bool :=
  ["inf", "infinity", "nan"].any fun name => Text.sameCaseless cs name.toList

/-- The value of a decimal numeral, if it is finite. -/
def decimal? (cs : List Char) : Option Float := do
  let (negative, rest) := sign cs
  let parts ← unsigned? negative rest
  let x := parts.toFloat
  if x.isFinite then some x else none

/-- The value of a decimal numeral or of one of the special names. -/
def extended? (cs : List Char) : Option Float :=
  let (negative, rest) := sign cs
  if Text.sameCaseless rest "nan".toList then some (0 / 0)
  else if isSpecialName rest then some (if negative then -(1 / 0) else 1 / 0)
  else (unsigned? negative rest).map Parts.toFloat

end EventReport.Numeral
