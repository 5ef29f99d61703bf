/-
Values of JSON text.

The members of an object are kept in the order of the text, repeated names
included.  A text that breaks off or goes wrong is read as far as it goes, and
the place where it does is a value too; so what is wrong earlier in a text is
found before what is wrong later, whatever it is.  A name that is no string, or
a string that no text holds, is noted at the value that it names.
-/

namespace EventReport

/-- Why a value cannot be had. -/
inductive JsonFault where
  /-- The text goes wrong here, and what follows is not read. -/
  | broken
  /-- A string with half of a surrogate pair, which no text holds. -/
  | unpairedSurrogate
  /-- A number beyond the greatest finite one. -/
  | numberTooLarge
deriving DecidableEq, Repr

inductive Json where
  | null
  | bool (b : Bool)
  /-- A number written without point and exponent, within 64 bits. -/
  | int (i : Int)
  /-- Any other number. -/
  | float (x : Float)
  | str (s : String)
  | arr (items : List Json)
  | obj (members : List (String × Json))
  | fault (f : JsonFault)
  /-- The value of a member without a name that can be read, which stands under the empty name. -/
  | unnamed (v : Json)

namespace Json

mutual

/-- Whether the value has no fault of the given kinds. A name that cannot be read counts as half of
a surrogate pair; where the text goes wrong at the name, its value is broken besides. -/
def isFree (faults : List JsonFault) : Json → Bool
  | arr items => areFree faults items
  | obj members => membersAreFree faults members
  | fault f => !faults.contains f
  | unnamed v => !faults.contains .unpairedSurrogate && isFree faults v
  | _ => true

def areFree (faults : List JsonFault) : List Json → Bool
  | [] => true
  | v :: vs => isFree faults v && areFree faults vs

def membersAreFree (faults : List JsonFault) : List (String × Json) → Bool
  | [] => true
  | (_, v) :: ms => isFree faults v && membersAreFree faults ms

end

/-- Whether a value may stand where it is not looked at. -/
def isIgnorable (v : Json) : Bool := v.isFree [.broken]

/-- Whether a value may stand under a name that says nothing. -/
def isIgnorableMember : Json → Bool
  | unnamed _ => false
  | v => v.isIgnorable

/-- Whether a value may be kept. -/
def isSound (v : Json) : Bool := v.isFree [.broken, .unpairedSurrogate, .numberTooLarge]

mutual

/-- How deep arrays and objects are nested. -/
def depth : Json → Nat
  | arr items => 1 + depthOfItems items
  | obj members => 1 + depthOfMembers members
  | unnamed v => depth v
  | _ => 0

def depthOfItems : List Json → Nat
  | [] => 0
  | v :: vs => max (depth v) (depthOfItems vs)

def depthOfMembers : List (String × Json) → Nat
  | [] => 0
  | (_, v) :: ms => max (depth v) (depthOfMembers ms)

end

/-- Puts a member into a list of members with ascending names, unless its name is there. -/
def insertMember (name : String) (v : Json) : List (String × Json) → List (String × Json)
  | [] => [(name, v)]
  | (n, w) :: ms =>
    if name < n then (name, v) :: (n, w) :: ms
    else if name = n then (n, w) :: ms
    else (n, w) :: insertMember name v ms

mutual

/-- The value with the members of every object in the order of their names; of several members with
one name the last stays. -/
def sorted : Json → Json
  | arr items => arr (sortedItems items)
  | obj members => obj (sortedMembers members)
  | unnamed v => unnamed (sorted v)
  | v => v

def sortedItems : List Json → List Json
  | [] => []
  | v :: vs => sorted v :: sortedItems vs

def sortedMembers : List (String × Json) → List (String × Json)
  | [] => []
  | (name, v) :: ms => insertMember name (sorted v) (sortedMembers ms)

end

/-- The member of an object, or `none` if there is none or the value is no object. -/
def get? (v : Json) (name : String) : Option Json :=
  match v with
  | obj members => members.lookup name
  | _ => none

end Json

end EventReport
