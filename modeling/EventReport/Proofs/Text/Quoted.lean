/-
# A quoted text is one literal, and it reads back

The warehouse reads a literal from its opening quote to the first bare quote, where a
backslash takes the next character with it (`Quoted.front?`).  It then reads what stands
between the quotes, each escape as the character that it stands for (`Quoted.decode?`).

## What is proved

`quote_isOneLiteral`: whatever text comes after a quoted text, the literal that is read off
the front is the quoted text and no more; it holds no control character, so it stands on
one line; it reads back as its source without the NUL characters; and it is one token to
the clause reader.

## What it is NOT

The warehouse knows escapes that are never written, of octal digits for one.  `decode?`
refuses them, so nothing is said of literals that come from elsewhere.

## Shape of the proof

Both readers go through the text character by character, and the text is written character
by character, so there is one lemma for each reader that says what it does with the escape
of one character in front of any text.
-/
import EventReport.Proofs.Clause.Spelling

namespace EventReport.Text

/-! ## Reading hexadecimal digits -/

/-- A digit more is the number times sixteen and the value of the digit. -/
theorem hexValue?_concat (ds : List Char) {n : Nat} (hn : n < 16) :
    hexValue? (ds ++ [hexDigit n]) = (hexValue? ds).map (16 * · + n) := by
  have hdigits : ∀ m : Fin 16,
      ((hexDigit m).isDigit = true ∧ (hexDigit m).toNat - 48 = m) ∨
        ((hexDigit m).isDigit = false ∧ ('a' ≤ hexDigit m ∧ hexDigit m ≤ 'f') ∧
          (hexDigit m).toNat - 87 = m) := by decide
  rw [hexValue?, List.foldlM_append, ← hexValue?]
  cases hexValue? ds with
  | none => rfl
  | some m =>
    rcases hdigits ⟨n, hn⟩ with ⟨hdigit, hvalue⟩ | ⟨hdigit, hletter, hvalue⟩
    · simp [hdigit, hvalue]
    · simp [hdigit, hletter, hvalue]

/-- Four digits are enough for a number of sixteen bits. -/
theorem hexValue?_hex4 {n : Nat} (hn : n < 65536) : hexValue? (hex4 n) = some n := by
  have hsixteen (k : Nat) : k % 16 < 16 := Nat.mod_lt k (by decide)
  have hsplit : hex4 n = [] ++ [hexDigit (n / 4096 % 16)] ++ [hexDigit (n / 256 % 16)] ++
      [hexDigit (n / 16 % 16)] ++ [hexDigit (n % 16)] := rfl
  have hnone : hexValue? [] = some 0 := rfl
  rw [hsplit, hexValue?_concat _ (hsixteen _), hexValue?_concat _ (hsixteen _),
    hexValue?_concat _ (hsixteen _), hexValue?_concat _ (hsixteen _), hnone]
  simp only [Option.map_some, Option.some.injEq]
  omega

namespace Quoted

/-! ## Where a literal ends -/

/-- The text before the first bare quote, and the text after it. -/
def upToQuote? : List Char → Option (List Char × List Char)
  | [] => none
  | '\'' :: after => some ([], after)
  | '\\' :: c :: rest => (upToQuote? rest).map fun (body, after) => ('\\' :: c :: body, after)
  | c :: rest => (upToQuote? rest).map fun (body, after) => (c :: body, after)

/-- What stands between the quotes of the literal that a text begins with, and the text after the
literal. -/
def front? : List Char → Option (List Char × List Char)
  | '\'' :: rest => upToQuote? rest
  | _ => none

theorem upToQuote?_plain {ds : List Char} (h : ∀ d ∈ ds, d ≠ '\\' ∧ d ≠ '\'') (rest : List Char) :
    upToQuote? (ds ++ rest) =
      (upToQuote? rest).map fun (body, after) => (ds ++ body, after) := by
  induction ds with
  | nil => simp
  | cons d ds ih =>
    have ⟨hback, hquote⟩ := h d List.mem_cons_self
    have ih := ih fun e he => h e (List.mem_cons_of_mem d he)
    simp [upToQuote?, hback, ih, Function.comp_def]

/-- No escape ends a literal, nor does it take anything of the text after it. -/
theorem upToQuote?_escape (c : Char) (rest : List Char) :
    upToQuote? (escape c ++ rest) =
      (upToQuote? rest).map fun (body, after) => (escape c ++ body, after) := by
  rcases escape_cases c with ⟨-, hc⟩ | ⟨hc, -, hback, hquote⟩ | ⟨mark, digits, hc, -, -, hdigits⟩
  · simp [hc]
  · rw [hc]
    exact upToQuote?_plain (by simp [hback, hquote]) rest
  · have hplain : ∀ d ∈ digits, d ≠ '\\' ∧ d ≠ '\'' := by
      intro d hd
      obtain ⟨n, hn, rfl⟩ := hdigits d hd
      exact ⟨(hexDigit_ne hn).1, (hexDigit_ne hn).2.1⟩
    rw [hc]
    simp only [List.cons_append, upToQuote?]
    rw [upToQuote?_plain hplain]
    simp [Function.comp_def]

theorem upToQuote?_body (cs rest : List Char) :
    upToQuote? (body cs ++ '\'' :: rest) = some (body cs, rest) := by
  induction cs with
  | nil => rfl
  | cons c cs ih =>
    rw [body_cons, List.append_assoc, upToQuote?_escape, ih]
    rfl

theorem front?_chars (cs rest : List Char) : front? (chars cs ++ rest) = some (body cs, rest) := by
  have hchars : chars cs ++ rest = '\'' :: (body cs ++ '\'' :: rest) := by simp [chars]
  rw [hchars]
  exact upToQuote?_body cs rest

/-! ## What a literal stands for -/

/-- The character for which a backslash and a mark stand. -/
def marked? : Char → Option Char
  | '\\' => some '\\'
  | '\'' => some '\''
  | 'n' => some '\n'
  | 'r' => some '\r'
  | 't' => some '\t'
  | _ => none

/-- The text for which the characters between the quotes stand. A number after `\u` has four
digits, whatever follows. -/
def decode? : List Char → Option (List Char)
  | [] => some []
  | '\\' :: 'u' :: d₁ :: d₂ :: d₃ :: d₄ :: rest => do
    let n ← hexValue? [d₁, d₂, d₃, d₄]
    let cs ← decode? rest
    if n.isValidChar then some (Char.ofNat n :: cs) else none
  | '\\' :: mark :: rest => do
    let c ← marked? mark
    let cs ← decode? rest
    some (c :: cs)
  | c :: rest =>
    if c = '\\' ∨ c = '\'' ∨ isControl c then none else (decode? rest).map (c :: ·)

/-- The text for which a literal stands, if the literal is the whole of what is given. -/
def value? (cs : List Char) : Option (List Char) :=
  match front? cs with
  | some (body, []) => decode? body
  | _ => none

theorem decode?_control {c : Char} (hc : isControl c = true) (rest : List Char) :
    decode? ('\\' :: 'u' :: hex4 c.toNat ++ rest) = (decode? rest).map (c :: ·) := by
  have hnumber : c.toNat < 65536 := by
    simp only [isControl, Bool.or_eq_true, Bool.and_eq_true, decide_eq_true_eq] at hc
    omega
  have hvalid : c.toNat.isValidChar := c.valid
  have hread := hexValue?_hex4 hnumber
  rw [hex4] at hread ⊢
  cases hrest : decode? rest <;> simp [decode?, hread, hrest, hvalid]

theorem decode?_marked {mark c : Char} (h : marked? mark = some c) (rest : List Char) :
    decode? ('\\' :: mark :: rest) = (decode? rest).map (c :: ·) := by
  have hnumber : mark ≠ 'u' := by
    rintro rfl
    cases h
  cases hrest : decode? rest <;> simp [decode?, hnumber, h, hrest]

/-- The escape of a character reads back as the character, and that of NUL as nothing. -/
theorem decode?_escape (c : Char) (rest : List Char) :
    decode? (escape c ++ rest) = (decode? rest).map ([c].filter (· != '\x00') ++ ·) := by
  have hkept (h : c.toNat ≠ 0) : [c].filter (· != '\x00') = [c] := by
    have hc : c ≠ '\x00' := fun heq => h (by rw [heq]; rfl)
    simp [hc]
  unfold escape
  split
  · next hnul =>
    obtain rfl : c = '\x00' := Char.toNat_inj.1 hnul
    simp
  · next hnul =>
    rw [hkept hnul]
    split
    · next hc =>
      subst hc
      exact decode?_marked rfl rest
    split
    · next hc =>
      subst hc
      exact decode?_marked rfl rest
    split
    · next hc =>
      subst hc
      exact decode?_marked rfl rest
    split
    · next hc =>
      subst hc
      exact decode?_marked rfl rest
    split
    · next hc =>
      subst hc
      exact decode?_marked rfl rest
    split
    · next hcontrol => exact decode?_control hcontrol rest
    · next hback hquote _ _ _ hcontrol => simp [decode?, hback, hquote, hcontrol]

/-- What is written between the quotes reads back as its source, NUL left out. -/
theorem decode?_body (cs : List Char) : decode? (body cs) = some (cs.filter (· != '\x00')) := by
  induction cs with
  | nil => rfl
  | cons c cs ih =>
    rw [body_cons, decode?_escape, ih, Option.map_some, ← List.filter_append]
    rfl

/-- A text without NUL is what its literal stands for. -/
theorem value?_quote {s : String} (h : '\x00' ∉ s.toList) :
    value? (quote s).toList = some s.toList := by
  have hfront : front? (chars s.toList) = some (body s.toList, []) := by
    simpa using front?_chars s.toList []
  have hkept : s.toList.filter (· != '\x00') = s.toList := by
    rw [List.filter_eq_self]
    intro c hc
    simpa using fun heq : c = '\x00' => h (heq ▸ hc)
  rw [toList_quote, value?, hfront]
  exact (decode?_body s.toList).trans (by rw [hkept])

end Quoted

/-! ## The literal of a text -/

/-- A quoted text is one literal to every reader, and it reads back as its source. -/
theorem quote_isOneLiteral (s : String) (rest : List Char) :
    ∃ body, (quote s).toList = '\'' :: body ++ ['\''] ∧
      Quoted.front? ((quote s).toList ++ rest) = some (body, rest) ∧
      (∀ c ∈ (quote s).toList, isControl c = false) ∧
      splitLines (quote s).toList = [(quote s).toList] ∧
      Quoted.decode? body = some (s.toList.filter (· != '\x00')) ∧
      tokenize (quote s).toList = some [.quoted (quote s).toList] := by
  rw [toList_quote]
  have hneat : isNeat (Quoted.chars s.toList) = true := isNeat_quoted s.toList
  have htoken := tokenize_quoted s.toList []
  rw [List.append_nil, tokenize_nil, Option.map_some] at htoken
  refine ⟨Quoted.body s.toList, rfl, Quoted.front?_chars s.toList rest, ?_, ?_,
    Quoted.decode?_body s.toList, htoken⟩
  · intro c hc
    exact isControl_of_isNeat hneat hc
  · exact splitLines_of_not_mem (newline_not_mem_of_isNeat hneat)

/-- The digits of an escape end after the fourth, and a backslash at the end escapes no quote. -/
example : Quoted.front? "'\\u001b41\\\\' OR 1".toList =
    some ("\\u001b41\\\\".toList, " OR 1".toList) ∧
    Quoted.decode? "\\u001b41\\\\".toList = some ['\x1b', '4', '1', '\\'] := by decide

end EventReport.Text
