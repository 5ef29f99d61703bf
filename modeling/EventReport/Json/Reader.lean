/-
Reading JSON text.

The text is first cut into tokens, up to the first place where that is not
possible, and the tokens are then put together: containers that are open are
kept in a list, innermost first, and whatever is wrong becomes a fault in the
innermost one.
-/
import EventReport.Json.Number
import EventReport.Text.Quoted

namespace EventReport.Json

inductive Token where
  | openArr
  | closeArr
  | openObj
  | closeObj
  | colon
  | comma
  | atom (v : Json)
  | bad

/-! ## Strings -/

/-- A piece of a string: a character, or a number of 16 bits behind an escape. -/
inductive CodeUnit where
  | char (c : Char)
  | escaped (n : Nat)
deriving DecidableEq, Repr

/-- The character that an escape of two characters stands for. -/
def escapedChar? (c : Char) : Option Char :=
  match c with
  | '"' | '\\' | '/' => some c
  | 'b' => some '\x08'
  | 'f' => some '\x0c'
  | 'n' => some '\n'
  | 'r' => some '\r'
  | 't' => some '\t'
  | _ => none

/-- The pieces up to the closing quote, and the text after it. -/
def stringUnits? : List Char → Option (List CodeUnit × List Char)
  | [] => none
  | '"' :: rest => some ([], rest)
  | '\\' :: 'u' :: a :: b :: c :: d :: rest => do
    let n ← Text.hexValue? [a, b, c, d]
    let (units, after) ← stringUnits? rest
    some (.escaped n :: units, after)
  | '\\' :: c :: rest => do
    let e ← escapedChar? c
    let (units, after) ← stringUnits? rest
    some (.char e :: units, after)
  | ['\\'] => none
  | c :: rest =>
    if c.toNat < 0x20 then none
    else do
      let (units, after) ← stringUnits? rest
      some (.char c :: units, after)

def isHighSurrogate (n : Nat) : Bool := 0xD800 ≤ n && n < 0xDC00

def isLowSurrogate (n : Nat) : Bool := 0xDC00 ≤ n && n < 0xE000

/-- The text of the pieces, unless half of a surrogate pair is left over. -/
def textOfUnits? : List CodeUnit → Option (List Char)
  | [] => some []
  | .char c :: rest => (textOfUnits? rest).map (c :: ·)
  | .escaped high :: .escaped low :: rest =>
    if isHighSurrogate high then
      if isLowSurrogate low then
        (textOfUnits? rest).map
          (Char.ofNat (0x10000 + (high - 0xD800) * 0x400 + (low - 0xDC00)) :: ·)
      else none
    else if isLowSurrogate high then none
    else (textOfUnits? (.escaped low :: rest)).map (Char.ofNat high :: ·)
  | .escaped n :: rest =>
    if isHighSurrogate n || isLowSurrogate n then none
    else (textOfUnits? rest).map (Char.ofNat n :: ·)

/-- The string of the pieces. -/
def stringOfUnits (units : List CodeUnit) : Json :=
  match textOfUnits? units with
  | some cs => str (String.ofList cs)
  | none => fault .unpairedSurrogate

/-! ## Tokens -/

/-- The blanks between tokens. -/
def isBlank (c : Char) : Bool := c == ' ' || c == '\t' || c == '\n' || c == '\r'

/-- What is left of a text after a word at its front. -/
def afterWord? (word : String) (cs : List Char) : Option (List Char) :=
  if word.toList.isPrefixOf cs then some (cs.drop word.length) else none

/-- The token that begins with `c`, which is not blank, and the text after it. -/
def nextToken? (c : Char) (rest : List Char) : Option (Token × List Char) :=
  match c with
  | '[' => some (.openArr, rest)
  | ']' => some (.closeArr, rest)
  | '\x7b' => some (.openObj, rest)
  | '\x7d' => some (.closeObj, rest)
  | ':' => some (.colon, rest)
  | ',' => some (.comma, rest)
  | '"' => (stringUnits? rest).map fun (units, after) => (.atom (stringOfUnits units), after)
  | 'n' => (afterWord? "ull" rest).map fun after => (.atom null, after)
  | 't' => (afterWord? "rue" rest).map fun after => (.atom (bool true), after)
  | 'f' => (afterWord? "alse" rest).map fun after => (.atom (bool false), after)
  | _ => (number? (c :: rest)).map fun (v, after) => (.atom v, after)

/-- The tokens of a text; at most as many as `fuel` says, which the length of the text is enough
for. -/
def tokens : (fuel : Nat) → List Char → List Token
  | 0, _ => []
  | _ + 1, [] => []
  | fuel + 1, c :: rest =>
    if isBlank c then tokens fuel rest
    else
      match nextToken? c rest with
      | some (t, after) => t :: tokens fuel after
      | none => [.bad]

/-! ## Values -/

/-- A container that is open, its parts so far last one first; an object also with the name of the
member that is being read, as far as it could be. -/
inductive Frame where
  | arr (items : List Json)
  | obj (members : List (String × Json)) (name : Option String)

namespace Frame

def push (v : Json) : Frame → Frame
  | arr items => arr (v :: items)
  | obj members (some name) => obj ((name, v) :: members) none
  | obj members none => obj (("", unnamed v) :: members) none

def close : Frame → Json
  | arr items => .arr items.reverse
  | obj members _ => .obj members.reverse

end Frame

/-- What may come next. -/
inductive Expected where
  | value
  | valueOrClose
  | name
  | nameOrClose
  | colon
  | commaOrClose
deriving DecidableEq, Repr

/-- A value that was read, and whether nothing was left over. -/
structure Reading where
  value : Json
  complete : Bool

/-- The open containers with a fault in the innermost one. -/
def breakOff (frames : List Frame) : Reading :=
  ⟨frames.foldl (fun v f => (f.push v).close) (fault .broken), true⟩

/-- What is expected after a comma. -/
def Frame.next : Frame → Expected
  | arr _ => .value
  | obj _ _ => .name

/-- Puts the tokens together. -/
def build : Expected → List Frame → List Token → Reading
  | _, frames, [] => breakOff frames
  | expected, frames, t :: ts =>
    match expected, t, frames with
    | .value, .atom v, [] | .valueOrClose, .atom v, [] => ⟨v, ts.isEmpty⟩
    | .value, .atom v, f :: fs | .valueOrClose, .atom v, f :: fs =>
      build .commaOrClose (f.push v :: fs) ts
    | .value, .openArr, fs | .valueOrClose, .openArr, fs => build .valueOrClose (.arr [] :: fs) ts
    | .value, .openObj, fs | .valueOrClose, .openObj, fs =>
      build .nameOrClose (.obj [] none :: fs) ts
    | .name, .atom (.str s), .obj members _ :: fs
    | .nameOrClose, .atom (.str s), .obj members _ :: fs =>
      build .colon (.obj members (some s) :: fs) ts
    | .name, .atom (.fault .unpairedSurrogate), .obj members _ :: fs
    | .nameOrClose, .atom (.fault .unpairedSurrogate), .obj members _ :: fs =>
      build .colon (.obj members none :: fs) ts
    | .colon, .colon, fs => build .value fs ts
    | .commaOrClose, .comma, f :: fs => build f.next (f :: fs) ts
    | .valueOrClose, .closeArr, .arr items :: fs | .commaOrClose, .closeArr, .arr items :: fs =>
      match fs with
      | [] => ⟨(Frame.arr items).close, ts.isEmpty⟩
      | f :: fs => build .commaOrClose (f.push (Frame.arr items).close :: fs) ts
    | .nameOrClose, .closeObj, .obj members n :: fs
    | .commaOrClose, .closeObj, .obj members n :: fs =>
      match fs with
      | [] => ⟨(Frame.obj members n).close, ts.isEmpty⟩
      | f :: fs => build .commaOrClose (f.push (Frame.obj members n).close :: fs) ts
    | _, _, _ => breakOff frames

/-- Reads a text as far as it goes. -/
def read (text : String) : Reading :=
  let cs := text.toList
  build .value [] (tokens (cs.length + 1) cs)

end EventReport.Json
