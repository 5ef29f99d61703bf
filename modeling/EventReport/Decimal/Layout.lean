/-
How numbers are laid out as text.

The digits are the shortest ones; a layout says which magnitudes are written
positionally, whether a whole number keeps `.0`, and where a tie between two
shortest decimals goes.  The sign of zero is kept.
-/
import EventReport.Decimal.Shortest

namespace EventReport

/-- The decisions of a number format. -/
structure NumberLayout where
  /-- The exponents of the leading digit that are written positionally, first included and last
  excluded; `none` if all are. -/
  positional : Option (Int × Int)
  /-- Whole numbers written positionally end in `.0`. -/
  pointZero : Bool
  tie : Tie

namespace NumberLayout

/-- Numbers in SQL text and in the list of bound values: never an exponent. -/
def sql : NumberLayout where
  positional := none
  pointZero := false
  tie := .up

/-- Numbers in JSON text: positional from 10^-5 to below 10^16, else with an exponent. -/
def json : NumberLayout where
  positional := some (-5, 16)
  pointZero := true
  tie := .toEven

def zeros (n : Nat) : String := String.ofList (List.replicate n '0')

/-- The decimal in positional notation. -/
def plain (layout : NumberLayout) (d : Decimal) : String :=
  let ds := (toString d.digits).toList
  let whole := if layout.pointZero then ".0" else ""
  if 0 ≤ d.exp then toString d.digits ++ zeros d.exp.toNat ++ whole
  else
    let places := (-d.exp).toNat
    if places < ds.length then
      let lead := ds.length - places
      String.ofList (ds.take lead) ++ "." ++ String.ofList (ds.drop lead)
    else "0." ++ zeros (places - ds.length) ++ toString d.digits

/-- The decimal with one digit before the point and an exponent, whose sign is always written. -/
def scientific (d : Decimal) : String :=
  match (toString d.digits).toList with
  | [] => ""
  | lead :: rest =>
    let e := d.exp + rest.length
    let fraction := if rest.isEmpty then "" else "." ++ String.ofList rest
    let sign := if e < 0 then "e-" else "e+"
    String.singleton lead ++ fraction ++ sign ++ toString e.natAbs

/-- The magnitude of a positive value. -/
def magnitude (layout : NumberLayout) (x : Binary) : String :=
  let d := x.shortest layout.tie
  match layout.positional with
  | none => layout.plain d
  | some (first, last) =>
    let e := d.exp + (toString d.digits).length - 1
    if first ≤ e ∧ e < last then layout.plain d else scientific d

/-- The text of a number. What is not a number, or infinite, has a name in place of digits. -/
def render (layout : NumberLayout) (x : Float) : String :=
  if x.isNaN then "NaN"
  else
    let sign := if x.toBits >>> 63 = 1 then "-" else ""
    if x.isInf then sign ++ "inf"
    else
      let b := Binary.ofBits x.toBits
      if b.m = 0 then sign ++ layout.plain ⟨0, 0⟩
      else sign ++ layout.magnitude b

end NumberLayout

end EventReport
