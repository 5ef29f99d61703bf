/-
Nodes of a YAML text.

A scalar keeps its text as it is written, apart from escapes and folded lines,
and whether it was plain: only a plain scalar can stand for a number, a truth
value or null, and which one it stands for depends on who reads it.
-/
import EventReport.Decimal.Numeral

namespace EventReport.Yaml

inductive Node where
  | scalar (isPlain : Bool) (text : String)
  | seq (items : List Node)
  | map (entries : List (Node × Node))

namespace Node

/-- What is read where nothing is written. -/
def empty : Node := scalar true ""

end Node

/-! ## What a plain scalar stands for -/

namespace Plain

def isNull (text : String) : Bool := ["", "~", "null", "Null", "NULL"].contains text

def isBool (text : String) : Bool :=
  ["true", "True", "TRUE", "false", "False", "FALSE"].contains text

/-- The value of a digit in a base of at most 16. -/
def digit? (base : Nat) (c : Char) : Option Nat :=
  let n :=
    if c.isDigit then c.toNat - 48
    else if 'a' ≤ c ∧ c ≤ 'f' then c.toNat - 87
    else if 'A' ≤ c ∧ c ≤ 'F' then c.toNat - 55
    else base
  if n < base then some n else none

/-- The value of at least one digit, within 64 bits. -/
def digits? (base : Nat) (cs : List Char) : Option Nat :=
  if cs.isEmpty then none
  else do
    let n ← cs.foldlM (fun n c => (digit? base c).map (base * n + ·)) 0
    if n < 18446744073709551616 then some n else none

/-- Digits with a needless zero before them are text. -/
def hasLeadingZero (cs : List Char) : Bool :=
  match (Numeral.sign cs).2 with
  | '0' :: c :: rest => (c :: rest).all Char.isDigit
  | _ => false

/-- The base that a mark at the front names, and the digits after the mark. -/
def radix? : List Char → Option (Nat × List Char)
  | '0' :: 'x' :: rest => some (16, rest)
  | '0' :: 'o' :: rest => some (8, rest)
  | '0' :: 'b' :: rest => some (2, rest)
  | _ => none

/-- The value of an unsigned integer: decimal, or in a base with a mark. A plus may stand before
it. -/
def unsigned? (text : String) : Option Nat :=
  let cs := text.toList
  let digits := match cs with
    | '+' :: rest => rest
    | _ => cs
  match radix? digits with
  | some (base, rest) => digits? base rest
  | none => if hasLeadingZero cs then none else digits? 10 digits

/-- Whether the text is a minus and an integer. -/
def isNegative (text : String) : Bool :=
  match text.toList with
  | '-' :: rest =>
    match radix? rest with
    | some (base, digits) => (digits? base digits).isSome
    | none => !hasLeadingZero rest && !rest.isEmpty && rest.all Char.isDigit
  | _ => false

/-- The names of the numbers that are not finite. -/
def isSpecialNumber (text : String) : Bool :=
  [".inf", ".Inf", ".INF", "+.inf", "+.Inf", "+.INF", "-.inf", "-.Inf", "-.INF", ".nan", ".NaN",
    ".NAN"].contains text

/-- Whether the text is a number of any kind. -/
def isNumber (text : String) : Bool :=
  (unsigned? text).isSome || isNegative text || isSpecialNumber text ||
    (!hasLeadingZero text.toList && (Numeral.decimal? text.toList).isSome)

/-- Whether the text stands for nothing but itself. -/
def isText (text : String) : Bool := !isNull text && !isBool text && !isNumber text

end Plain

end EventReport.Yaml
