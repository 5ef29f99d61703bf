/-
Scalars of a YAML text.

A scalar may run over several lines; one line break between two of its lines
counts as a space, and of several the first is dropped.  Blanks around a line
break do not count.
-/
import EventReport.Text.Quoted
import EventReport.Yaml.Cursor

namespace EventReport.Yaml

/-- What stands between two pieces of a scalar. -/
inductive Gap where
  | blanks (cs : List Char)
  /-- Line breaks, with the first one apart; it is missing if it was escaped. -/
  | breaks (first : Option Char) (more : List Char)
deriving DecidableEq, Repr

namespace Gap

def none : Gap := blanks []

def addBlank (c : Char) : Gap → Gap
  | blanks cs => blanks (cs ++ [c])
  | breaks first more => breaks first more

def addBreak (c : Char) : Gap → Gap
  | blanks _ => breaks (some c) []
  | breaks first more => breaks first (more ++ [c])

/-- What the gap counts as. -/
def text : Gap → List Char
  | blanks cs => cs
  | breaks (some '\n') [] => [' ']
  | breaks (some '\n') more => more
  | breaks (some c) more => c :: more
  | breaks .none more => more

def hasBreak : Gap → Bool
  | blanks _ => false
  | breaks _ _ => true

end Gap

/-- A scalar that was read: its text, the place after it, and the line on which it ends. The place
may be on a later line. -/
structure Scanned where
  text : List Char
  after : Cursor
  lastLine : Nat
deriving Repr

/-! ## Plain scalars -/

/-- The characters with which no plain scalar begins. -/
def indicators : List Char := "-?:,[]\x7b\x7d#&*!|>'\"%@\x60".toList

/-- The characters that end a plain scalar between brackets. -/
def flowIndicators : List Char := ",[]\x7b\x7d".toList

/-- Whether a plain scalar begins here. -/
def startsPlain (flow : Bool) : List Char → Bool
  | [] => false
  | c :: rest =>
    if c = '-' then !(atGap rest)
    else if (c = '?' || c = ':') && !flow then !(atGap rest)
    else !indicators.contains c && !atGap [c]

/-- Reads a plain scalar. `minColumn` is the least column of its further lines, `text` what was read
so far, `gap` what stands after it, and `last` the line on which it ends so far. -/
def plainFrom (flow : Bool) (minColumn : Nat) (text : List Char) (gap : Gap) (last : Nat) :
    List Char → Nat → Nat → Option Scanned
  | [], line, column => some ⟨text, ⟨[], line, column⟩, last⟩
  | c :: rest, line, column =>
    let stop : Option Scanned := some ⟨text, ⟨c :: rest, line, column⟩, last⟩
    if isBlank c then
      if gap.hasBreak && c == '\t' && column < minColumn then none
      else plainFrom flow minColumn text (gap.addBlank c) last rest line (column + 1)
    else if isBreak c then
      plainFrom flow minColumn text (gap.addBreak c) last rest (line + 1) 0
    else if gap.hasBreak && !flow && column < minColumn then stop
    else if column = 0 && isDocumentMark (c :: rest) then stop
    else if c = '#' && gap != .none then stop
    else if flow && c == ':' && rest.head?.any (fun d => d == '?' || flowIndicators.contains d) then
      none
    else if c = ':' && atGap rest || flow && flowIndicators.contains c then stop
    else plainFrom flow minColumn (text ++ gap.text ++ [c]) .none line rest line (column + 1)

def plain? (flow : Bool) (minColumn : Nat) (c : Cursor) : Option Scanned :=
  plainFrom flow minColumn [] .none c.line c.rest c.line c.column

/-! ## Quoted scalars -/

/-- Reads a scalar between single quotes, after the first one; two quotes stand for one. -/
def singleQuotedFrom (text : List Char) (gap : Gap) :
    List Char → Nat → Nat → Option Scanned
  | [], _, _ => none
  | '\'' :: '\'' :: rest, line, column =>
    singleQuotedFrom (text ++ gap.text ++ ['\'']) .none rest line (column + 2)
  | c :: rest, line, column =>
    if column = 0 && isDocumentMark (c :: rest) then none
    else if c = '\'' then some ⟨text ++ gap.text, ⟨rest, line, column + 1⟩, line⟩
    else if isBlank c then singleQuotedFrom text (gap.addBlank c) rest line (column + 1)
    else if isBreak c then singleQuotedFrom text (gap.addBreak c) rest (line + 1) 0
    else singleQuotedFrom (text ++ gap.text ++ [c]) .none rest line (column + 1)

/-- The character that an escape of two characters stands for. -/
def escaped? (c : Char) : Option Char :=
  match c with
  | '0' => some '\x00'
  | 'a' => some '\x07'
  | 'b' => some '\x08'
  | 't' | '\t' => some '\t'
  | 'n' => some '\n'
  | 'v' => some '\x0b'
  | 'f' => some '\x0c'
  | 'r' => some '\r'
  | 'e' => some '\x1b'
  | ' ' | '"' | '/' | '\\' => some c
  | 'N' => some '\u0085'
  | '_' => some '\u00a0'
  | 'L' => some '\u2028'
  | 'P' => some '\u2029'
  | _ => none

/-- How many hexadecimal digits follow the mark of an escape. -/
def escapeLength? (c : Char) : Option Nat :=
  match c with
  | 'x' => some 2
  | 'u' => some 4
  | 'U' => some 8
  | _ => none

/-- The character with a number, if there is one. -/
def charOfNumber? (n : Nat) : Option Char := if n.isValidChar then some (Char.ofNat n) else none

/-- Reads a scalar between double quotes, after the first one; `fuel` bounds the number of steps. -/
def doubleQuotedFrom : (fuel : Nat) → (text : List Char) → Gap → List Char → Nat → Nat →
    Option Scanned
  | 0, _, _, _, _, _ => none
  | _ + 1, _, _, [], _, _ => none
  | fuel + 1, text, gap, c :: rest, line, column =>
    let joined := text ++ gap.text
    if column = 0 && isDocumentMark (c :: rest) then none
    else if c = '"' then some ⟨joined, ⟨rest, line, column + 1⟩, line⟩
    else if isBlank c then doubleQuotedFrom fuel text (gap.addBlank c) rest line (column + 1)
    else if isBreak c then doubleQuotedFrom fuel text (gap.addBreak c) rest (line + 1) 0
    else if c = '\\' then
      match rest with
      | [] => none
      | e :: rest =>
        if isBreak e then doubleQuotedFrom fuel joined (.breaks .none []) rest (line + 1) 0
        else
          match escapeLength? e with
          | some n =>
            if rest.length < n then none
            else do
              let number ← Text.hexValue? (rest.take n)
              let d ← charOfNumber? number
              doubleQuotedFrom fuel (joined ++ [d]) .none (rest.drop n) line (column + 2 + n)
          | none => do
            let d ← escaped? e
            doubleQuotedFrom fuel (joined ++ [d]) .none rest line (column + 2)
    else doubleQuotedFrom fuel (joined ++ [c]) .none rest line (column + 1)

/-- Reads a scalar between quotes. -/
def quoted? (c : Cursor) : Option Scanned :=
  match c.rest with
  | '\'' :: rest => singleQuotedFrom [] .none rest c.line (c.column + 1)
  | '"' :: rest => doubleQuotedFrom (rest.length + 1) [] .none rest c.line (c.column + 1)
  | _ => none

end EventReport.Yaml
