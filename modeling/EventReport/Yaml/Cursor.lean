/-
Places in a YAML text.

Indentation carries meaning, so a place is known by its line and column.  Line
breaks are made uniform beforehand; blanks, comments and line breaks between two
tokens are skipped together, with tabs only where no indentation can begin.
-/
import EventReport.Text.Blank

namespace EventReport.Yaml

/-! ## Characters -/

/-- A line break, once the text is uniform. The two separators of Unicode are kept apart, because
they survive in the text of a scalar. -/
def isBreak (c : Char) : Bool := c == '\n' || c == '\u2028' || c == '\u2029'

def isBlank (c : Char) : Bool := c == ' ' || c == '\t'

/-- Whether a blank, a line break or nothing follows. -/
def atGap : List Char → Bool
  | [] => true
  | c :: _ => isBlank c || isBreak c

/-- The characters that a text may hold. -/
def isAllowed (c : Char) : Bool :=
  !Text.isControl c && c.toNat != 0xFFFE && c.toNat != 0xFFFF ||
    c == '\t' || c == '\n' || c == '\r' || c.toNat == 0x85

/-- Writes all line breaks but the two separators of Unicode as line feeds. -/
def uniformBreaks : List Char → List Char
  | [] => []
  | '\r' :: '\n' :: rest => '\n' :: uniformBreaks rest
  | c :: rest => (if c = '\r' || c.toNat = 0x85 then '\n' else c) :: uniformBreaks rest

/-- A text without the mark of byte order at its start. -/
def dropMark : List Char → List Char
  | [] => []
  | c :: rest => if c.toNat = 0xFEFF then rest else c :: rest

/-- The text to read, unless it holds a character that it must not. -/
def prepare? (cs : List Char) : Option (List Char) :=
  if cs.all isAllowed then some (uniformBreaks (dropMark cs)) else none

/-- Whether a mark between documents begins here, if the place is at the margin. -/
def isDocumentMark : List Char → Bool
  | '-' :: '-' :: '-' :: rest => atGap rest
  | '.' :: '.' :: '.' :: rest => atGap rest
  | _ => false

/-! ## Places -/

structure Cursor where
  /-- The text from the place on. -/
  rest : List Char
  line : Nat
  column : Nat
deriving DecidableEq, Repr

namespace Cursor

def start (cs : List Char) : Cursor := ⟨cs, 0, 0⟩

/-- The place after the next `n` characters, none of which breaks the line. -/
def advance (c : Cursor) (n : Nat) : Cursor := ⟨c.rest.drop n, c.line, c.column + n⟩

def atEnd (c : Cursor) : Bool := c.rest.isEmpty

def atDocumentMark (c : Cursor) : Bool := c.column == 0 && isDocumentMark c.rest

/-- Skips what may stand between tokens. `tabs` allows tabs before the next line break, and `flow`
also after it; `comment` says that a comment is being skipped. -/
def skipFrom (flow : Bool) : (tabs comment : Bool) → List Char → Nat → Nat → Cursor
  | _, _, [], line, column => ⟨[], line, column⟩
  | tabs, comment, c :: rest, line, column =>
    if isBreak c then skipFrom flow flow false rest (line + 1) 0
    else if comment then skipFrom flow tabs true rest line (column + 1)
    else if c = ' ' || c = '\t' && tabs || c.toNat = 0xFEFF && column = 0 then
      skipFrom flow tabs false rest line (column + 1)
    else if c = '#' then skipFrom flow tabs true rest line (column + 1)
    else ⟨c :: rest, line, column⟩

/-- Skips to the next token of a block. -/
def skip (c : Cursor) (tabs : Bool) : Cursor := skipFrom false tabs false c.rest c.line c.column

/-- Skips to the next token between brackets. -/
def skipInFlow (c : Cursor) : Cursor := skipFrom true true false c.rest c.line c.column

end Cursor

end EventReport.Yaml
