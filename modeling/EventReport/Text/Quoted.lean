/-
Quoted strings of the warehouse's SQL.

A text stands between single quotes with backslash escapes.  The escape of each
character is chosen so that the quoted text stays on one line and the first bare
quote is its last character; NUL has no written form and is left out.
-/
import EventReport.Text.Blank

namespace EventReport.Text

/-- The lower-case hexadecimal digit of a number below 16. -/
def hexDigit (n : Nat) : Char :=
  if n < 10 then Char.ofNat (48 + n) else Char.ofNat (87 + n)

/-- The last four hexadecimal digits of `n`. -/
def hex4 (n : Nat) : List Char :=
  [hexDigit (n / 4096 % 16), hexDigit (n / 256 % 16), hexDigit (n / 16 % 16), hexDigit (n % 16)]

/-- The value of hexadecimal digits, in either case. -/
def hexValue? (ds : List Char) : Option Nat :=
  ds.foldlM (fun n d =>
    if d.isDigit then some (16 * n + (d.toNat - 48))
    else if 'a' ≤ d ∧ d ≤ 'f' then some (16 * n + (d.toNat - 87))
    else if 'A' ≤ d ∧ d ≤ 'F' then some (16 * n + (d.toNat - 55))
    else none) 0

namespace Quoted

/-- How a character is written between the quotes. -/
def escape (c : Char) : List Char :=
  if c.toNat = 0 then []
  else if c = '\\' then ['\\', '\\']
  else if c = '\'' then ['\\', '\'']
  else if c = '\n' then ['\\', 'n']
  else if c = '\r' then ['\\', 'r']
  else if c = '\t' then ['\\', 't']
  else if isControl c then '\\' :: 'u' :: hex4 c.toNat
  else [c]

/-- What stands between the quotes. -/
def body (cs : List Char) : List Char := cs.flatMap escape

/-- The quoted text, quotes included. -/
def chars (cs : List Char) : List Char := '\'' :: body cs ++ ['\'']

theorem body_cons (c : Char) (cs : List Char) : body (c :: cs) = escape c ++ body cs := by
  simp [body]

end Quoted

/-- The text as a quoted string of the warehouse's SQL. -/
def quote (s : String) : String := String.ofList (Quoted.chars s.toList)

theorem toList_quote (s : String) : (quote s).toList = Quoted.chars s.toList := by
  simp [quote]

end EventReport.Text
