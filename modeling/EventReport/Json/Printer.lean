/-
Writing JSON text.

The text is compact: no blanks, members in the order in which they are kept.
Only the quote, the backslash and the control characters below U+0020 are
escaped in strings.
-/
import EventReport.Decimal.Layout
import EventReport.Json.Value
import EventReport.Text.Quoted

namespace EventReport.Json

/-- How a character is written in a string. -/
def escape (c : Char) : List Char :=
  if c = '"' then ['\\', '"']
  else if c = '\\' then ['\\', '\\']
  else if c = '\x08' then ['\\', 'b']
  else if c = '\x0c' then ['\\', 'f']
  else if c = '\n' then ['\\', 'n']
  else if c = '\r' then ['\\', 'r']
  else if c = '\t' then ['\\', 't']
  else if c.toNat < 0x20 then '\\' :: 'u' :: Text.hex4 c.toNat
  else [c]

def quotedChars (s : String) : List Char := '"' :: s.toList.flatMap escape ++ ['"']

mutual

/-- The text of a value. A number that is not finite has none and is written as null, and so is a
value that could not be read. -/
def chars : Json → List Char
  | null => "null".toList
  | bool b => (if b then "true" else "false").toList
  | int i => (toString i).toList
  | float x => (if x.isFinite then NumberLayout.json.render x else "null").toList
  | str s => quotedChars s
  | arr items => '[' :: itemChars items ++ [']']
  | obj members => '\x7b' :: memberChars members ++ ['\x7d']
  | fault _ => "null".toList
  | unnamed v => chars v

def itemChars : List Json → List Char
  | [] => []
  | [v] => chars v
  | v :: vs => chars v ++ ',' :: itemChars vs

def memberChars : List (String × Json) → List Char
  | [] => []
  | [(name, v)] => quotedChars name ++ ':' :: chars v
  | (name, v) :: ms => quotedChars name ++ ':' :: chars v ++ ',' :: memberChars ms

end

def render (v : Json) : String := String.ofList v.chars

end EventReport.Json
