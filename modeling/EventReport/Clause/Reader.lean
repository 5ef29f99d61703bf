/-
Reading a clause from a line.

Each function takes what it reads off the front of the tokens and gives back the
rest; a line is a clause only if nothing is left.
-/
import EventReport.Clause.Basic
import EventReport.Clause.Token

namespace EventReport

namespace Token

/-- Whether a word is the keyword, in any case. -/
def isKeyword (keyword : String) (spelling : List Char) : Bool :=
  Text.sameCaseless spelling keyword.toList

end Token

open Token (isKeyword)

namespace ColumnName

/-- The further parts of a qualified name, each after a point. -/
def parts? : List Token → Option (List Char × List Token)
  | .symbol ['.'] :: .word w :: rest =>
    (parts? rest).map fun (spelling, rest) => ('.' :: w ++ spelling, rest)
  | .symbol ['.'] :: _ => none
  | rest => some ([], rest)

/-- Words with points between them. -/
def read? : List Token → Option (ColumnName × List Token)
  | .word w :: rest => (parts? rest).map fun (spelling, rest) => (⟨w ++ spelling⟩, rest)
  | _ => none

end ColumnName

namespace Predicate

/-- A quoted literal, a number with or without a minus, or a truth value. -/
def literal? : List Token → Option (List Char × List Token)
  | .quoted s :: rest => some (s, rest)
  | .number n :: rest => some (n, rest)
  | .word w :: rest =>
    if isKeyword "TRUE" w || isKeyword "FALSE" w then some (w, rest) else none
  | .symbol ['-'] :: .number n :: rest => some ('-' :: n, rest)
  | _ => none

theorem length_literal? {ts rest : List Token} {l : List Char}
    (h : literal? ts = some (l, rest)) : rest.length < ts.length := by
  unfold literal? at h
  grind

/-- The further literals of a list, each after a comma. -/
def moreLiterals? : List Token → Option (List (List Char) × List Token)
  | .symbol [','] :: rest =>
    match _h : literal? rest with
    | none => none
    | some (l, rest) => (moreLiterals? rest).map fun (ls, rest) => (l :: ls, rest)
  | rest => some ([], rest)
termination_by ts => ts.length
decreasing_by
  have := length_literal? _h
  simp
  omega

/-- At least one literal, with commas between them. -/
def literals? (ts : List Token) : Option (List (List Char) × List Token) := do
  let (l, rest) ← literal? ts
  let (ls, rest) ← moreLiterals? rest
  return (l :: ls, rest)

/-- What a column is compared with. -/
def comparison? (column : ColumnName) : List Token → Option (Predicate × List Token)
  | .symbol ['='] :: .placeholder name :: rest => some (.equalsPlaceholder column name, rest)
  | .symbol ['='] :: rest => (literal? rest).map fun (l, rest) => (.equals column l, rest)
  | .word w :: rest =>
    if isKeyword "LIKE" w then (literal? rest).map fun (l, rest) => (.like column l, rest)
    else if isKeyword "IN" w then
      match rest with
      | .symbol ['('] :: rest =>
        match literals? rest with
        | some (ls, .symbol [')'] :: rest) => some (.oneOf column ls, rest)
        | _ => none
      | _ => none
    else none
  | _ => none

/-- The rest of a comparison of a date, after the opening parenthesis. -/
def dateComparison? (ts : List Token) : Option (Predicate × List Token) := do
  let (column, rest) ← ColumnName.read? ts
  match rest with
  | .symbol [')'] :: .symbol ['='] :: .placeholder name :: rest =>
    some (.dateEqualsPlaceholder column name, rest)
  | _ => none

def read? : List Token → Option (Predicate × List Token)
  | .placeholder name :: rest => some (.placeholder name, rest)
  | .word w :: .symbol ['('] :: rest => if isKeyword "DATE" w then dateComparison? rest else none
  | ts => do
    let (column, rest) ← ColumnName.read? ts
    comparison? column rest

end Predicate

namespace Connective

def read? : List Token → Option (Connective × List Token)
  | .word w :: rest =>
    if isKeyword "WHERE" w then some (.where_, rest)
    else if isKeyword "AND" w then some (.and_, rest)
    else none
  | _ => none

end Connective

namespace Clause

/-- The clause that the tokens make up. -/
def ofTokens? : List Token → Option Clause
  | .openOptional :: ts => do
    let (connective, rest) ← Connective.read? ts
    let (predicate, rest) ← Predicate.read? rest
    if rest = [.closeOptional] then some ⟨connective, true, predicate⟩ else none
  | ts => do
    let (connective, rest) ← Connective.read? ts
    let (predicate, rest) ← Predicate.read? rest
    if rest = [] then some ⟨connective, false, predicate⟩ else none

/-- The clause that a line consists of. -/
def read? (line : List Char) : Option Clause := (tokenize line).bind ofTokens?

end Clause

end EventReport
