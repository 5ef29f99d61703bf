/-
Plain SQL identifiers, and the identifiers made out of free text.

An identifier is an ASCII letter or underscore followed by ASCII letters, digits
and underscores, so it needs no quoting and holds no character with a meaning in
SQL.  Free text becomes one by replacing every other character.
-/
import EventReport.Text.Blank

namespace EventReport.Text

/-- A character that may stand in an identifier. -/
def isIdentifierChar (c : Char) : Bool := c.isAlphanum || c == '_'

/-- A character that may begin an identifier. -/
def isIdentifierStart (c : Char) : Bool := c.isAlpha || c == '_'

def isIdentifierChars : List Char → Bool
  | [] => false
  | c :: cs => isIdentifierStart c && cs.all isIdentifierChar

def isIdentifier (s : String) : Bool := isIdentifierChars s.toList

/-- The character itself where it may stand in an identifier, and an underscore elsewhere. -/
def identifierChar (c : Char) : Char := if isIdentifierChar c then c else '_'

/-- The identifier made from a trimmed free text, or `none` if nothing but underscores remains. A
leading digit gets an underscore before it. -/
def identifierChars? (cs : List Char) : Option (List Char) :=
  let mapped := (trimChars cs).map identifierChar
  if mapped.all (· == '_') then none
  else match mapped with
    | c :: _ => if c.isDigit then some ('_' :: mapped) else some mapped
    | [] => none

def toIdentifier? (s : String) : Option String :=
  (identifierChars? s.toList).map String.ofList

/-- The identifier fragment for an attribute key: lower-cased, with an underscore in the place of
every character that is not an ASCII letter, digit or underscore. -/
def keyFragment (key : String) : String :=
  String.ofList (key.toList.map fun c => (identifierChar c).toLower)

/-- The name of a table between backticks, without the characters that cannot stand there. -/
def quoteTable (name : String) : String :=
  String.ofList ('\x60' :: name.toList.filter (fun c => c != '\x60' && !isControl c) ++ ['\x60'])

end EventReport.Text
