/-
A statement as lines of text.

Only filters and a few clause words are recognised, and each from its line alone:
a line is a filter or it is not, and it begins an outermost clause if it begins
at the margin with the words of the clause.  Carriage returns at the end of a
line are kept but do not count.
-/
import EventReport.Clause.Reader
import EventReport.Text.Lines

namespace EventReport.Dashboard

open Text

namespace TextLine

/-- The line without the carriage returns at its end. -/
def body (line : List Char) : List Char := (line.reverse.dropWhile (· == '\r')).reverse

/-- The filter that the line is. -/
def clause? (line : List Char) : Option Clause := Clause.read? (body line)

/-- The blanks before the filter. -/
def indent (line : List Char) : List Char := leadingBlanks (body line)

/-- Whether the words are the keywords and perhaps more, in any case. -/
def beginWith : List String → List (List Char) → Bool
  | [], _ => true
  | _ :: _, [] => false
  | keyword :: keywords, word :: words =>
    sameCaseless word keyword.toList && beginWith keywords words

/-- Whether the line begins at the margin, and with the keywords. -/
def startsTopLevel (keywords : List String) (line : List Char) : Bool :=
  !(line.head?.any isBlank) && beginWith keywords (words line)

/-- Whether the line begins a clause that stands after the filters. -/
def startsTail (line : List Char) : Bool :=
  startsTopLevel ["GROUP", "BY"] line || startsTopLevel ["ORDER", "BY"] line ||
    startsTopLevel ["LIMIT"] line

/-- Whether nothing but a semicolon may stand on the line. -/
def isVoid (line : List Char) : Bool := trimChars line == [] || trimChars line == [';']

end TextLine

structure Document where
  lines : List (List Char)
deriving DecidableEq, Repr

namespace Document

def ofText (text : List Char) : Document := ⟨splitLines text⟩

def text (d : Document) : List Char := Text.joinLines d.lines

/-- The place of the first clause after the filters of the outermost statement; without one, the end
of the text but for void lines. -/
def tailStart (d : Document) : Nat :=
  match d.lines.findIdx? TextLine.startsTail with
  | some i => i
  | none => d.lines.length - (d.lines.reverse.takeWhile TextLine.isVoid).length

/-- The lines from the last SELECT at the margin on; all lines if there is none. -/
def fromLastSelect (lines : List (List Char)) : List (List Char) :=
  let after := lines.reverse.takeWhile fun l => !TextLine.startsTopLevel ["SELECT"] l
  lines.drop (lines.length - after.length - 1)

/-- Whether the outermost statement has a WHERE among the first `stop` lines. -/
def hasTopLevelWhere (d : Document) (stop : Nat) : Bool :=
  (fromLastSelect (d.lines.take stop)).any (TextLine.startsTopLevel ["WHERE"])

end Document

end EventReport.Dashboard
