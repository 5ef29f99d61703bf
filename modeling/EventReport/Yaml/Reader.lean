/-
Reading a YAML text.

A text is one document in block or flow style, with plain and quoted scalars and
comments.  What a document may hold beyond that (anchors, tags, block scalars,
explicit keys) is not read.  A key stands on one line with its colon; the entries
of a block stand at one column, further right than what the block belongs to.
-/
import EventReport.Yaml.Node
import EventReport.Yaml.Scalar

namespace EventReport.Yaml

/-- A node that was read, the place after it, and the line on which it ends. -/
structure Parsed where
  node : Node
  after : Cursor
  lastLine : Nat

/-- The place after the node, skipped to the next token, if that is on a later line or there is
none. -/
def Parsed.endLine? (p : Parsed) : Option Cursor :=
  let c := p.after.skip true
  if c.atEnd || c.line != p.lastLine then some c else none

/-- A scalar as a node. -/
def scalar? (flow : Bool) (minColumn : Nat) (c : Cursor) : Option Parsed :=
  match c.rest with
  | '\'' :: _ | '"' :: _ =>
    (quoted? c).map fun s => ⟨.scalar false (String.ofList s.text), s.after, s.lastLine⟩
  | _ =>
    if startsPlain flow c.rest then
      (plain? flow minColumn c).map fun s =>
        ⟨.scalar true (String.ofList s.text), s.after, s.lastLine⟩
    else none

/-! ## Flow style -/

mutual

/-- Reads a node between brackets; `minColumn` is the least column of tabs in it. -/
def flowNode? (minColumn : Nat) : (fuel : Nat) → Cursor → Option Parsed
  | 0, _ => none
  | fuel + 1, c =>
    match c.rest with
    | '[' :: _ => flowItems? minColumn fuel [] (c.advance 1)
    | '\x7b' :: _ => flowEntries? minColumn fuel [] (c.advance 1)
    | _ => if c.atDocumentMark then none else scalar? true minColumn c

/-- Reads the value of a key, after the colon; it may be missing. -/
def flowValue? (minColumn : Nat) : (fuel : Nat) → Cursor → Option (Node × Cursor)
  | 0, _ => none
  | fuel + 1, c =>
    let c := c.skipInFlow
    match c.rest with
    | ',' :: _ | ']' :: _ | '\x7d' :: _ => some (.empty, c)
    | _ => (flowNode? minColumn fuel c).map fun p => (p.node, p.after.skipInFlow)

/-- Reads the items of a sequence up to its end. An item may be a single key with its value. -/
def flowItems? (minColumn : Nat) : (fuel : Nat) → (items : List Node) → Cursor →
    Option Parsed
  | 0, _, _ => none
  | fuel + 1, items, c => do
    let c := c.skipInFlow
    match c.rest with
    | ']' :: _ => some ⟨.seq items.reverse, c.advance 1, c.line⟩
    | _ =>
      let p ← flowNode? minColumn fuel c
      let d := p.after.skipInFlow
      let (item, d) ← match d.rest with
        | ':' :: _ =>
          if d.line = c.line then
            (flowValue? minColumn fuel (d.advance 1)).map fun (v, d) => (Node.map [(p.node, v)], d)
          else none
        | _ => some (p.node, d)
      match d.rest with
      | ',' :: _ => flowItems? minColumn fuel (item :: items) (d.advance 1)
      | ']' :: _ => some ⟨.seq (item :: items).reverse, d.advance 1, d.line⟩
      | _ => none

/-- Reads the entries of a mapping up to its end. -/
def flowEntries? (minColumn : Nat) : (fuel : Nat) → (entries : List (Node × Node)) → Cursor →
    Option Parsed
  | 0, _, _ => none
  | fuel + 1, entries, c => do
    let c := c.skipInFlow
    match c.rest with
    | '\x7d' :: _ => some ⟨.map entries.reverse, c.advance 1, c.line⟩
    | _ =>
      let p ← flowNode? minColumn fuel c
      let d := p.after.skipInFlow
      let (value, d) ← match d.rest with
        | ':' :: _ => if d.line = c.line then flowValue? minColumn fuel (d.advance 1) else none
        | _ => some (.empty, d)
      match d.rest with
      | ',' :: _ => flowEntries? minColumn fuel ((p.node, value) :: entries) (d.advance 1)
      | '\x7d' :: _ => some ⟨.map ((p.node, value) :: entries).reverse, d.advance 1, d.line⟩
      | _ => none

end

/-! ## Block style -/

/-- Whether an item of a block sequence begins here. -/
def atItem (c : Cursor) : Bool :=
  match c.rest with
  | '-' :: rest => atGap rest
  | _ => false

/-- Whether the colon of a key stands here. -/
def atColon (c : Cursor) : Bool :=
  match c.rest with
  | ':' :: rest => atGap rest
  | _ => false

/-- Reads a scalar or a node in brackets. -/
def inlineNode? (minColumn : Nat) (c : Cursor) : Option Parsed :=
  match c.rest with
  | '[' :: _ | '\x7b' :: _ => flowNode? minColumn (2 * c.rest.length + 2) c
  | _ => scalar? false minColumn c

/-- Reads a key with its colon, and gives the place after the colon. -/
def key? (minColumn : Nat) (c : Cursor) : Option (Node × Cursor) := do
  let p ← inlineNode? minColumn c
  let d := p.after.skip true
  if atColon d && d.line = c.line then some (p.node, d.advance 1) else none

mutual

/-- Reads a block node that begins here; `minColumn` is the least column of its lines. Only where
`opens` says so may a sequence or mapping begin. The place after the node is the next token. -/
def blockNode? : (fuel : Nat) → (minColumn : Nat) → (opens : Bool) → Cursor →
    Option (Node × Cursor)
  | 0, _, _, _ => none
  | fuel + 1, minColumn, opens, c =>
    if atItem c then
      if opens then blockItems? fuel c.column false [] c else none
    else do
      let p ← inlineNode? minColumn c
      let d := p.after.skip true
      if atColon d && d.line = c.line then
        if opens then blockEntries? fuel c.column [] p.node (d.advance 1) else none
      else (p.endLine?).map fun e => (p.node, e)

/-- Reads the items of a sequence at a column, beginning with the one that begins here. A sequence
that stands at the column of the key that it belongs to is `flush`, and ends where the next key
begins. -/
def blockItems? : (fuel : Nat) → (column : Nat) → (flush : Bool) → (items : List Node) →
    Cursor → Option (Node × Cursor)
  | 0, _, _, _, _ => none
  | fuel + 1, column, flush, items, c => do
    let d := (c.advance 1).skip false
    let (item, d) ←
      if d.atEnd || d.atDocumentMark || d.line ≠ c.line && d.column ≤ column then
        some (.empty, d)
      else blockNode? fuel (column + 1) true d
    let items := item :: items
    if d.atEnd || d.atDocumentMark || d.column < column then some (.seq items.reverse, d)
    else if d.column > column then none
    else if atItem d then blockItems? fuel column flush items d
    else if flush then some (.seq items.reverse, d)
    else none

/-- Reads the entries of a mapping at a column, beginning after the colon of a key. -/
def blockEntries? : (fuel : Nat) → (column : Nat) → (entries : List (Node × Node)) →
    (key : Node) → Cursor → Option (Node × Cursor)
  | 0, _, _, _, _ => none
  | fuel + 1, column, entries, key, c => do
    let d := c.skip true
    let isNewLine := d.line ≠ c.line
    let (value, d) ←
      if d.atEnd || d.atDocumentMark then some (.empty, d)
      else if isNewLine && d.column = column && atItem d then
        blockItems? fuel column true [] d
      else if isNewLine && d.column ≤ column then some (.empty, d)
      else blockNode? fuel (column + 1) isNewLine d
    let entries := (key, value) :: entries
    if d.atEnd || d.atDocumentMark || d.column < column then some (.map entries.reverse, d)
    else if d.column > column then none
    else do
      let (key, d) ← key? (column + 1) d
      blockEntries? fuel column entries key d

end

/-! ## Documents -/

/-- Whether nothing more than a mark of the end stands here. -/
def atStreamEnd (c : Cursor) : Bool :=
  match c.rest with
  | [] => true
  | '.' :: _ => c.atDocumentMark && ((c.advance 3).skip true).atEnd
  | _ => false

/-- Reads the node of a document that begins here. -/
def document? (opens : Bool) (c : Cursor) : Option Node := do
  let (node, d) ←
    if c.atEnd || c.atDocumentMark then some (.empty, c)
    else blockNode? (2 * c.rest.length + 2) 0 opens c
  if atStreamEnd d then some node else none

/-- Reads a text that holds one document. -/
def read? (text : String) : Option Node := do
  let cs ← prepare? text.toList
  let c := (Cursor.start cs).skip false
  match c.rest with
  | [] => none
  | '-' :: _ =>
    if c.atDocumentMark then
      let d := (c.advance 3).skip true
      document? (d.line ≠ c.line) d
    else document? true c
  | _ => document? true c

end EventReport.Yaml
