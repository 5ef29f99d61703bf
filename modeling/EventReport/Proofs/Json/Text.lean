/-
# A value is read back from its text

Text is read in two steps, first cut into tokens and then put together, with the open
containers in a list.  A value without numbers is written so that both steps can be said in
advance: its text is cut into the tokens of the value, and these, whatever is open and
whatever comes after, are put together to the value.

## What is proved

`read_render`: a value of nulls, truth values, strings, arrays and objects is what its text
is read as, and nothing is left over.

## What it is NOT

Numbers are left out.  A float is written with the fewest digits that read back, and read
in two roundings, so its text may come to a neighbour.
-/
import EventReport.Json.Reader
import EventReport.Json.Printer
import EventReport.Proofs.Text.Quoted

namespace EventReport.Json

open Text (hex4 hexValue?_hex4)

/-! ## Strings -/

/-- A piece of a string stands for a character. -/
inductive CodeUnit.Stands : CodeUnit → Char → Prop
  | char (c : Char) : Stands (.char c) c
  | escaped {c : Char} : c.toNat < 0x20 → Stands (.escaped c.toNat) c

theorem textOfUnits?_cons {u : CodeUnit} {c : Char} (h : u.Stands c) (us : List CodeUnit) :
    textOfUnits? (u :: us) = (textOfUnits? us).map (c :: ·) := by
  cases h with
  | char => rw [textOfUnits?]
  | escaped hc =>
    have hhigh : isHighSurrogate c.toNat = false := by simp [isHighSurrogate]; omega
    have hlow : isLowSurrogate c.toNat = false := by simp [isLowSurrogate]; omega
    -- a number after an escape is read together with the next one
    cases us with
    | nil => simp [textOfUnits?, hhigh, hlow]
    | cons v us => cases v <;> simp [textOfUnits?, hhigh, hlow]

/-- A character is written as itself, behind a backslash by a letter, or by its number. -/
theorem escape_cases (c : Char) :
    (escape c = [c] ∧ c ≠ '"' ∧ c ≠ '\\' ∧ ¬c.toNat < 0x20) ∨
      (∃ mark, escape c = ['\\', mark] ∧ mark ≠ 'u' ∧ escapedChar? mark = some c) ∨
      (escape c = '\\' :: 'u' :: hex4 c.toNat ∧ c.toNat < 0x20) := by
  by_cases hmark : c ∈ ['"', '\\', '\x08', '\x0c', '\n', '\r', '\t']
  · right; left
    simp only [List.mem_cons, List.not_mem_nil, or_false] at hmark
    rcases hmark with rfl | rfl | rfl | rfl | rfl | rfl | rfl
    all_goals exact ⟨_, rfl, by decide, rfl⟩
  · simp only [List.mem_cons, List.not_mem_nil, or_false, not_or] at hmark
    obtain ⟨hquote, hback, hrest⟩ := hmark
    by_cases hc : c.toNat < 0x20
    · right; right
      exact ⟨by simp [escape, hquote, hback, hrest, hc], hc⟩
    · left
      exact ⟨by simp [escape, hquote, hback, hrest, hc], hquote, hback, hc⟩

theorem exists_unit (c : Char) (rest : List Char) :
    ∃ u : CodeUnit, u.Stands c ∧ stringUnits? (escape c ++ rest) =
      (stringUnits? rest).map fun (us, after) => (u :: us, after) := by
  rcases escape_cases c with ⟨hc, hquote, hback, hcontrol⟩ | ⟨mark, hc, hu, hmark⟩ | ⟨hc, hcontrol⟩
  · refine ⟨.char c, .char c, ?_⟩
    rw [hc]
    cases hrest : stringUnits? rest <;> simp [stringUnits?, hback, hcontrol, hrest]
  · refine ⟨.char c, .char c, ?_⟩
    rw [hc]
    cases hrest : stringUnits? rest <;> simp [stringUnits?, hu, hmark, hrest]
  · refine ⟨.escaped c.toNat, .escaped hcontrol, ?_⟩
    have hvalue := hexValue?_hex4 (n := c.toNat) (by omega)
    rw [hc]
    simp only [hex4, List.cons_append, List.nil_append] at hvalue ⊢
    cases hrest : stringUnits? rest <;> simp [stringUnits?, hvalue, hrest]

/-- The quote that ends a string is found, and what is before it stands for the string. -/
theorem exists_units (cs rest : List Char) :
    ∃ us, stringUnits? (cs.flatMap escape ++ '"' :: rest) = some (us, rest) ∧
      textOfUnits? us = some cs := by
  induction cs with
  | nil => exact ⟨[], by simp [stringUnits?], rfl⟩
  | cons c cs ih =>
    obtain ⟨us, hus, htext⟩ := ih
    obtain ⟨u, hu, hunit⟩ := exists_unit c (cs.flatMap escape ++ '"' :: rest)
    refine ⟨u :: us, ?_, ?_⟩
    · rw [List.flatMap_cons, List.append_assoc, hunit, hus]
      rfl
    · rw [textOfUnits?_cons hu, htext]
      rfl

/-! ## Tokens -/

/-- The text is cut into the tokens, whatever comes after it. -/
structure Spells (cs : List Char) (ts : List Token) : Prop where
  length_le : ts.length ≤ cs.length
  tokens_append : ∀ fuel rest, tokens (fuel + ts.length) (cs ++ rest) = ts ++ tokens fuel rest

namespace Spells

theorem nil : Spells [] [] := ⟨le_rfl, fun _ _ => rfl⟩

variable {cs ds : List Char} {ts us : List Token}

theorem append (h : Spells cs ts) (h' : Spells ds us) : Spells (cs ++ ds) (ts ++ us) := by
  constructor
  · simpa using Nat.add_le_add h.length_le h'.length_le
  · intro fuel rest
    have hfuel : fuel + (ts ++ us).length = (fuel + us.length) + ts.length := by
      rw [List.length_append]
      omega
    rw [hfuel, List.append_assoc, h.tokens_append, h'.tokens_append, List.append_assoc]

/-- One token is read, and the rest is left. -/
theorem one {c : Char} {t : Token} (hc : isBlank c = false)
    (hnext : ∀ rest, nextToken? c (cs ++ rest) = some (t, rest)) : Spells (c :: cs) [t] := by
  constructor
  · simp
  · intro fuel rest
    show tokens (fuel + 1) (c :: (cs ++ rest)) = _
    rw [tokens, hc, hnext]
    rfl

theorem string (s : String) : Spells (quotedChars s) [.atom (.str s)] := by
  have hquoted : quotedChars s = '"' :: (s.toList.flatMap escape ++ ['"']) := rfl
  rw [hquoted]
  refine one (by decide) fun rest => ?_
  obtain ⟨us, hus, htext⟩ := exists_units s.toList rest
  rw [List.append_assoc, List.singleton_append]
  simp [nextToken?, hus, stringOfUnits, htext]

end Spells

/-! ## The tokens of a value -/

mutual

/-- Whether the value is made without numbers, and nothing in it is at fault. -/
def isNumberless : Json → Bool
  | null | bool _ | str _ => true
  | arr items => areNumberless items
  | obj members => membersAreNumberless members
  | _ => false

def areNumberless : List Json → Bool
  | [] => true
  | v :: vs => isNumberless v && areNumberless vs

def membersAreNumberless : List (String × Json) → Bool
  | [] => true
  | (_, v) :: ms => isNumberless v && membersAreNumberless ms

end

mutual

/-- The tokens that a value is written with. -/
def written : Json → List Token
  | arr items => .openArr :: writtenItems items ++ [.closeArr]
  | obj members => .openObj :: writtenMembers members ++ [.closeObj]
  | v => [.atom v]

def writtenItems : List Json → List Token
  | [] => []
  | [v] => written v
  | v :: vs => written v ++ .comma :: writtenItems vs

def writtenMembers : List (String × Json) → List Token
  | [] => []
  | [(name, v)] => .atom (.str name) :: .colon :: written v
  | (name, v) :: ms => .atom (.str name) :: .colon :: written v ++ .comma :: writtenMembers ms

end

theorem spells_word (word : String) {c : Char} {v : Json} (hc : isBlank c = false)
    (hnext : ∀ rest, nextToken? c rest = (afterWord? word rest).map fun after => (.atom v, after)) :
    Spells (c :: word.toList) [.atom v] := by
  refine Spells.one hc fun rest => ?_
  have hlength : word.toList.length = word.length := String.length_toList
  rw [hnext, afterWord?, if_pos (by simp), List.drop_left' hlength]
  rfl

/-- A bracket, a colon or a comma is a token of its own. -/
theorem spells_mark {c : Char} {t : Token} (hc : isBlank c = false)
    (hnext : ∀ rest, nextToken? c rest = some (t, rest)) : Spells [c] [t] :=
  Spells.one hc hnext

theorem spells_comma : Spells [','] [.comma] := spells_mark (by decide) fun _ => rfl

theorem spells_member {name : String} {cs : List Char} {ts : List Token} (h : Spells cs ts) :
    Spells (quotedChars name ++ ':' :: cs) (.atom (.str name) :: .colon :: ts) :=
  (Spells.string name).append ((spells_mark (c := ':') (by decide) fun _ => rfl).append h)

mutual

theorem spells_written : ∀ v : Json, v.isNumberless = true → Spells v.chars v.written
  | null, _ => spells_word "ull" (c := 'n') (by decide) fun _ => rfl
  | bool true, _ => spells_word "rue" (c := 't') (by decide) fun _ => rfl
  | bool false, _ => spells_word "alse" (c := 'f') (by decide) fun _ => rfl
  | str s, _ => Spells.string s
  | arr items, h => by
    have hopen : Spells ['['] [.openArr] := spells_mark (by decide) fun _ => rfl
    have hclose : Spells [']'] [.closeArr] := spells_mark (by decide) fun _ => rfl
    exact (hopen.append (spells_writtenItems items h)).append hclose
  | obj members, h => by
    have hopen : Spells ['\x7b'] [.openObj] := spells_mark (by decide) fun _ => rfl
    have hclose : Spells ['\x7d'] [.closeObj] := spells_mark (by decide) fun _ => rfl
    exact (hopen.append (spells_writtenMembers members h)).append hclose

theorem spells_writtenItems : ∀ vs : List Json, areNumberless vs = true →
    Spells (itemChars vs) (writtenItems vs)
  | [], _ => .nil
  | [v], h => by
    rw [areNumberless, Bool.and_eq_true] at h
    exact spells_written v h.1
  | v :: w :: vs, h => by
    rw [areNumberless, Bool.and_eq_true] at h
    exact (spells_written v h.1).append (spells_comma.append (spells_writtenItems (w :: vs) h.2))

theorem spells_writtenMembers : ∀ ms : List (String × Json), membersAreNumberless ms = true →
    Spells (memberChars ms) (writtenMembers ms)
  | [], _ => .nil
  | [(name, v)], h => by
    rw [membersAreNumberless, Bool.and_eq_true] at h
    exact spells_member (spells_written v h.1)
  | (name, v) :: m :: ms, h => by
    rw [membersAreNumberless, Bool.and_eq_true] at h
    exact (spells_member (spells_written v h.1)).append
      (spells_comma.append (spells_writtenMembers (m :: ms) h.2))

end

/-! ## Putting the tokens together -/

/-- What is done with a value that has been read. -/
def goOn (frames : List Frame) (v : Json) (ts : List Token) : Reading :=
  match frames with
  | [] => ⟨v, ts.isEmpty⟩
  | f :: fs => build .commaOrClose (f.push v :: fs) ts

theorem build_closeArr (before : List Json) (frames : List Frame) (ts : List Token) :
    build .commaOrClose (.arr before :: frames) (.closeArr :: ts) =
      goOn frames (.arr before.reverse) ts := by
  cases frames <;> rfl

theorem build_closeObj (before : List (String × Json)) (name : Option String)
    (frames : List Frame) (ts : List Token) :
    build .commaOrClose (.obj before name :: frames) (.closeObj :: ts) =
      goOn frames (.obj before.reverse) ts := by
  cases frames <;> rfl

/-- The name of a member, and the colon behind it. -/
theorem build_name {expected : Expected} (hexpected : expected = .name ∨ expected = .nameOrClose)
    (before : List (String × Json)) (n : Option String) (name : String) (frames : List Frame)
    (ts : List Token) :
    build expected (.obj before n :: frames) (.atom (.str name) :: .colon :: ts) =
      build .value (.obj before (some name) :: frames) ts := by
  rcases hexpected with rfl | rfl <;> rfl

mutual

theorem build_written : ∀ v : Json, v.isNumberless = true →
    ∀ {expected : Expected}, expected = .value ∨ expected = .valueOrClose →
    ∀ (frames : List Frame) (ts : List Token),
      build expected frames (v.written ++ ts) = goOn frames v ts
  | null, _, _, hexpected, frames, ts => by
    rcases hexpected with rfl | rfl <;> cases frames <;> rfl
  | bool b, _, _, hexpected, frames, ts => by
    rcases hexpected with rfl | rfl <;> cases frames <;> rfl
  | str s, _, _, hexpected, frames, ts => by
    rcases hexpected with rfl | rfl <;> cases frames <;> rfl
  | arr items, h, expected, hexpected, frames, ts => by
    have hopen : build expected frames ((arr items).written ++ ts) =
        build .valueOrClose (.arr [] :: frames) (writtenItems items ++ .closeArr :: ts) := by
      rw [written, List.cons_append, List.cons_append, List.append_assoc]
      rcases hexpected with rfl | rfl <;> rfl
    rw [hopen]
    cases items with
    | nil => cases frames <;> rfl
    | cons v vs => exact build_writtenItems (v :: vs) h (by simp) (.inr rfl) [] frames ts
  | obj members, h, expected, hexpected, frames, ts => by
    have hopen : build expected frames ((obj members).written ++ ts) =
        build .nameOrClose (.obj [] none :: frames)
          (writtenMembers members ++ .closeObj :: ts) := by
      rw [written, List.cons_append, List.cons_append, List.append_assoc]
      rcases hexpected with rfl | rfl <;> rfl
    rw [hopen]
    cases members with
    | nil => cases frames <;> rfl
    | cons m ms => exact build_writtenMembers (m :: ms) h (by simp) (.inr rfl) [] none frames ts

theorem build_writtenItems : ∀ vs : List Json, areNumberless vs = true → vs ≠ [] →
    ∀ {expected : Expected}, expected = .value ∨ expected = .valueOrClose →
    ∀ (before : List Json) (frames : List Frame) (ts : List Token),
      build expected (.arr before :: frames) (writtenItems vs ++ .closeArr :: ts) =
        goOn frames (.arr (before.reverse ++ vs)) ts
  | [v], h, _, _, hexpected, before, frames, ts => by
    rw [areNumberless, Bool.and_eq_true] at h
    show build _ _ (v.written ++ .closeArr :: ts) = _
    rw [build_written v h.1 hexpected, ← List.reverse_cons]
    exact build_closeArr (v :: before) frames ts
  | v :: w :: vs, h, _, _, hexpected, before, frames, ts => by
    rw [areNumberless, Bool.and_eq_true] at h
    show build _ _ (v.written ++ .comma :: writtenItems (w :: vs) ++ .closeArr :: ts) = _
    rw [List.append_assoc, build_written v h.1 hexpected, List.append_cons before.reverse,
      ← List.reverse_cons]
    exact build_writtenItems (w :: vs) h.2 (by simp) (.inl rfl) (v :: before) frames ts

theorem build_writtenMembers : ∀ ms : List (String × Json), membersAreNumberless ms = true →
    ms ≠ [] → ∀ {expected : Expected}, expected = .name ∨ expected = .nameOrClose →
    ∀ (before : List (String × Json)) (n : Option String) (frames : List Frame) (ts : List Token),
      build expected (.obj before n :: frames) (writtenMembers ms ++ .closeObj :: ts) =
        goOn frames (.obj (before.reverse ++ ms)) ts
  | [(name, v)], h, _, _, hexpected, before, n, frames, ts => by
    rw [membersAreNumberless, Bool.and_eq_true] at h
    show build _ _ (.atom (.str name) :: .colon :: (v.written ++ .closeObj :: ts)) = _
    rw [build_name hexpected, build_written v h.1 (.inl rfl), ← List.reverse_cons]
    exact build_closeObj ((name, v) :: before) none frames ts
  | (name, v) :: m :: ms, h, _, _, hexpected, before, n, frames, ts => by
    rw [membersAreNumberless, Bool.and_eq_true] at h
    show build _ _ (.atom (.str name) :: .colon ::
      (v.written ++ .comma :: writtenMembers (m :: ms) ++ .closeObj :: ts)) = _
    rw [build_name hexpected, List.append_assoc, build_written v h.1 (.inl rfl),
      List.append_cons before.reverse, ← List.reverse_cons]
    exact build_writtenMembers (m :: ms) h.2 (by simp) (.inl rfl) ((name, v) :: before) none
      frames ts

end

/-- A value without numbers is what its text is read as, and nothing of the text is left over. -/
theorem read_render {v : Json} (h : v.isNumberless = true) : read v.render = ⟨v, true⟩ := by
  have hspells := spells_written v h
  have hfuel : v.chars.length + 1 = (v.chars.length + 1 - v.written.length) + v.written.length := by
    have := hspells.length_le
    omega
  have htokens : tokens (v.chars.length + 1) v.chars = v.written := by
    have happend := hspells.tokens_append (v.chars.length + 1 - v.written.length) []
    rw [← hfuel, List.append_nil] at happend
    rw [happend]
    cases v.chars.length + 1 - v.written.length <;> simp [tokens]
  have hbuild := build_written v h (.inl rfl) [] []
  rw [List.append_nil] at hbuild
  rw [read, render]
  simp only [String.toList_ofList]
  rw [htokens, hbuild]
  rfl

end EventReport.Json
