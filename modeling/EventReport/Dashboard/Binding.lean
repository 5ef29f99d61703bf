/-
Variables in the text of a statement.

To bind a variable is to put its placeholder where a filter with a literal stood,
or to add an optional filter where there was none; to unbind it is to take every
filter with its placeholder out.  The filter on the website is never touched, and
a block of filters never loses its WHERE.
-/
import EventReport.Dashboard.Document
import EventReport.Dashboard.Variable
import EventReport.Plan.AttributeRow

namespace EventReport.Dashboard

open Text

namespace Variable

/-- The predicate with the placeholder of the variable, for a filter on a column. -/
def predicate (v : Variable) (column : ColumnName) : Predicate :=
  match v.kind with
  | .fieldFilter _ => .placeholder v.name.toList
  | .text | .number => .equalsPlaceholder column v.name.toList
  | .date => .dateEqualsPlaceholder column v.name.toList

/-! ## Binding -/

/-- The line with its filter in the hands of the variable, if it is a literal filter on the target
column. -/
def boundLine? (v : Variable) (line : List Char) : Option (List Char) := do
  let clause ← TextLine.clause? line
  let column ← clause.predicate.literalColumn?
  if !column.isNamed scopeColumn.toList && column.isNamed v.targetColumn.toList then
    some (TextLine.indent line ++ { clause with predicate := v.predicate column }.render)
  else none

/-- The lines with the first one replaced that can be bound, if there is one. -/
def bindFirst? (v : Variable) : List (List Char) → Option (List (List Char))
  | [] => none
  | line :: lines =>
    match v.boundLine? line with
    | some bound => some (bound :: lines)
    | none => (bindFirst? v lines).map (line :: ·)

/-- An optional filter with the placeholder of the variable. -/
def addedLine (v : Variable) : List Char :=
  let column : ColumnName := ⟨baseName.toList ++ '.' :: v.targetColumn.toList⟩
  "  ".toList ++ Clause.render ⟨.and_, true, v.predicate column⟩

end Variable

/-- A condition that always holds, to carry the WHERE of a block. -/
def alwaysLine (indent : List Char) : List Char := indent ++ "WHERE 1 = 1".toList

namespace Document

/-- Adds the variable's filter after those of the outermost statement. -/
def addFilter (d : Document) (v : Variable) : Document :=
  let place := d.tailStart
  let opening := if d.hasTopLevelWhere place then [] else [alwaysLine []]
  ⟨d.lines.take place ++ opening ++ v.addedLine :: d.lines.drop place⟩

/-- Binds the variable. -/
def bind (d : Document) (v : Variable) : Document :=
  match v.bindFirst? d.lines with
  | some lines => ⟨lines⟩
  | none => d.addFilter v

end Document

/-- Binds a variable into a statement. The text stays as it is if the name of the variable is no
identifier, or if its placeholder occurs already. -/
def bind (sql : String) (v : Variable) : String :=
  if Text.isIdentifier v.name && !Placeholder.occurs v.name.toList sql.toList then
    String.ofList ((Document.ofText sql.toList).bind v).text
  else sql

/-! ## Unbinding -/

namespace TextLine

/-- Whether the line is a filter with the placeholder. -/
def refersTo (name line : List Char) : Bool :=
  match clause? line with
  | some clause => clause.predicate.placeholder? == some name
  | none => false

/-- The indentation of the WHERE that goes when the line is taken out, if one goes. -/
def where? (line : List Char) : Option (List Char) :=
  match clause? line with
  | some clause => if clause.connective = .where_ then some (indent line) else none
  | none => none

/-- The first word of a text, empty if there is none. -/
def firstWord (cs : List Char) : List Char := (words cs).headD []

/-- The lines that stand for `line` once it has to carry a WHERE with the given indentation. An
optional condition cannot, so another one is put before it. -/
def carryWhere (indent line : List Char) : List (List Char) :=
  match clause? line with
  | some clause =>
    if clause.optional then [alwaysLine indent, line]
    else
      match clause.connective with
      | .and_ => [indent ++ { clause with connective := .where_ }.render]
      | .where_ => [line]
  | none =>
    let rest := trimStart line
    if ['[', '['].isPrefixOf rest then [alwaysLine indent, line]
    else if sameCaseless (firstWord rest) "AND".toList then
      [indent ++ "WHERE".toList ++ rest.drop 3]
    else [line]

/-- Takes out the lines with the placeholder. `pending` is the indentation of a WHERE that the next
line must carry. -/
def unbind (name : List Char) :
    (pending : Option (List Char)) → List (List Char) → List (List Char)
  | _, [] => []
  | pending, line :: lines =>
    if refersTo name line then
      match where? line with
      | some indent => unbind name (some indent) lines
      | none => unbind name pending lines
    else
      match pending with
      | some indent => carryWhere indent line ++ unbind name none lines
      | none => line :: unbind name none lines

end TextLine

/-- Takes a variable out of a statement. Its placeholders outside filters become empty texts. -/
def unbind (sql : String) (v : Variable) : String :=
  let name := v.name.toList
  let lines := TextLine.unbind name none (splitLines sql.toList)
  String.ofList (Placeholder.replace name ['\'', '\''] (Text.joinLines lines))

/-! ## Renaming -/

/-- Why a variable cannot be renamed. -/
inductive RenameError where
  | invalidName (name : String)
  | nameTaken (name : String)
deriving DecidableEq, Repr

def RenameError.message : RenameError → String
  | invalidName name => "Invalid variable name '" ++ name ++ "': expected letters, digits and '_'"
  | nameTaken name => "Variable '" ++ name ++ "' already exists in the query"

/-- Renames the placeholders of a variable. -/
def rename (sql fromName toName : String) : Except RenameError String :=
  if !Text.isIdentifier fromName then .error (.invalidName fromName)
  else if !Text.isIdentifier toName then .error (.invalidName toName)
  else if fromName = toName then .ok sql
  else if Placeholder.occurs toName.toList sql.toList then .error (.nameTaken toName)
  else
    let token := Placeholder.write toName.toList
    .ok (String.ofList (Placeholder.replace fromName.toList token sql.toList))

end EventReport.Dashboard
