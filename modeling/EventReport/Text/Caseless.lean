/-
Comparison of names without regard to case.

SQL keywords and column names are compared with ASCII letters folded.  Operator,
function and type names in a report are lower-cased first, over all of Unicode,
and then looked up among ASCII names; for such a look-up only the characters
whose lower case is ASCII matter, and those are `A` to `Z` and the Kelvin sign.
-/
import EventReport.Text.Blank

namespace EventReport.Text

/-- Two texts are the same but for the case of their ASCII letters. -/
def sameCaseless (a b : List Char) : Bool := a.map Char.toLower == b.map Char.toLower

/-- The lower case of a character, as far as an ASCII name can tell: a character whose lower case
is not ASCII stands for itself. -/
def lowerChar (c : Char) : Char := if c.toNat = 0x212A then 'k' else c.toLower

/-- The form in which a spelled name is looked up: trimmed and lower-cased, with every `hyphen`
written as `dash`. -/
def nameKey (hyphen dash : Char) (spelling : String) : String :=
  String.ofList <| (trimChars spelling.toList).map fun c =>
    let l := lowerChar c
    if l = hyphen then dash else l

end EventReport.Text
