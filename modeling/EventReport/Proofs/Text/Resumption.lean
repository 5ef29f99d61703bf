/-
# Going on with a text

To scan two texts one after the other is to scan the first, and then the second as
what it is a continuation of: either nothing is pending, or two opening braces of
the first text still wait for their end.  `leavesOpen` tells the two apart.

## What is proved

`replaceFrom_append`: replacing goes through the two texts one after the other,
provided that no brace of the one meets a brace of the other, and that no placeholder
of the name begins in the first and ends in the second.  For the second proviso it
is enough that what stands on one side could be no part of a name and the blanks
around it (`IsPadded`).

That a placeholder occurs is the same as that replacing it by nothing makes the text
shorter (`occurs_iff_length`), so the lemma tells where placeholders occur, too.
-/
import EventReport.Proofs.Text.Lines
import EventReport.Proofs.Text.Placeholder

namespace EventReport.Text

/-! ## Names and the blanks around them -/

/-- A text that may stand between the braces of a placeholder, or a part of such a text. -/
def IsPadded (cs : List Char) : Prop :=
  ∃ before name after, cs = before ++ (name ++ after) ∧ (∀ c ∈ before, isBlank c = true) ∧
    (∀ c ∈ name, isIdentifierChar c = true) ∧ ∀ c ∈ after, isBlank c = true

theorem isPadded_of_trimChars {name cs : List Char} (hname : isIdentifierChars name = true)
    (h : trimChars cs = name) : IsPadded cs := by
  refine ⟨leadingBlanks cs, name, ((trimStart cs).reverse.takeWhile isBlank).reverse, ?_,
    fun c hc => List.mem_takeWhile_imp hc, fun c hc => isIdentifierChar_of_mem hname hc,
    fun c hc => List.mem_takeWhile_imp (List.mem_reverse.1 hc)⟩
  have hend : trimChars cs ++ ((trimStart cs).reverse.takeWhile isBlank).reverse = trimStart cs := by
    rw [trimChars, trimEnd, ← List.reverse_append, List.takeWhile_append_dropWhile,
      List.reverse_reverse]
  rw [← h, hend]
  exact (leadingBlanks_append_trimStart cs).symm

theorem trimChars_identifier {w : List Char} (hw : isIdentifierChars w = true) :
    trimChars w = w := by
  have h : ∀ c ∈ w, isBlank c = false := fun c hc =>
    isBlank_of_isIdentifierChar (isIdentifierChar_of_mem hw hc)
  have hstart : trimStart w = w := by
    obtain ⟨c, cs, rfl, -, -⟩ := isIdentifierChars_iff.1 hw
    simp [trimStart, h c (by simp)]
  rw [trimChars, hstart, trimEnd]
  cases hr : w.reverse with
  | nil => simpa using congrArg List.reverse hr.symm
  | cons c cs =>
    have hc : isBlank c = false := h c (by rw [← List.mem_reverse, hr]; simp)
    simpa [hc] using congrArg List.reverse hr.symm

namespace IsPadded

variable {cs ds : List Char}

theorem of_cons {c : Char} (h : IsPadded (c :: cs)) : IsPadded cs := by
  obtain ⟨before, name, after, heq, hbefore, hname, hafter⟩ := h
  cases before with
  | cons b before =>
    obtain ⟨-, rfl⟩ := List.cons.inj heq
    exact ⟨before, name, after, rfl, fun d hd => hbefore d (List.mem_cons_of_mem b hd), hname,
      hafter⟩
  | nil =>
    cases name with
    | cons n name =>
      obtain ⟨-, rfl⟩ := List.cons.inj heq
      exact ⟨[], name, after, rfl, by simp, fun d hd => hname d (List.mem_cons_of_mem n hd), hafter⟩
    | nil =>
      cases after with
      | nil => cases heq
      | cons a after =>
        obtain ⟨-, rfl⟩ := List.cons.inj heq
        exact ⟨[], [], cs, rfl, by simp, by simp,
          fun d hd => hafter d (List.mem_cons_of_mem a hd)⟩

theorem reverse (h : IsPadded cs) : IsPadded cs.reverse := by
  obtain ⟨before, name, after, rfl, hbefore, hname, hafter⟩ := h
  exact ⟨after.reverse, name.reverse, before.reverse, by simp,
    fun c hc => hafter c (List.mem_reverse.1 hc), fun c hc => hname c (List.mem_reverse.1 hc),
    fun c hc => hbefore c (List.mem_reverse.1 hc)⟩

theorem suffix (h : IsPadded (cs ++ ds)) : IsPadded ds := by
  induction cs with
  | nil => exact h
  | cons c cs ih => exact ih h.of_cons

theorem prefix_ (h : IsPadded (cs ++ ds)) : IsPadded cs := by
  have hreverse := h.reverse
  rw [List.reverse_append] at hreverse
  have hcs := hreverse.suffix.reverse
  rwa [List.reverse_reverse] at hcs

theorem blank_or_identifierChar (h : IsPadded cs) {c : Char} (hc : c ∈ cs) :
    isBlank c = true ∨ isIdentifierChar c = true := by
  obtain ⟨before, name, after, rfl, hbefore, hname, hafter⟩ := h
  rcases List.mem_append.1 hc with hc | hc
  · exact .inl (hbefore c hc)
  rcases List.mem_append.1 hc with hc | hc
  · exact .inr (hname c hc)
  · exact .inl (hafter c hc)

end IsPadded

/-- A character that stands neither in a name nor around it. -/
def isMark (c : Char) : Bool := !isBlank c && !isIdentifierChar c

theorem not_isPadded_of_mem {cs : List Char} {c : Char} (hmark : isMark c = true) (hc : c ∈ cs) :
    ¬IsPadded cs := by
  intro h
  simp only [isMark, Bool.and_eq_true, Bool.not_eq_true'] at hmark
  rcases h.blank_or_identifierChar hc with hblank | hchar
  · rw [hmark.1] at hblank
    cases hblank
  · rw [hmark.2] at hchar
    cases hchar

/-! ## What a text leaves behind -/

namespace Placeholder

/-- Whether the last two opening braces of a text still wait for their end. -/
def leavesOpen : List Char → Bool
  | [] => false
  | [_] => false
  | c :: d :: rest =>
    if c = '\x7b' ∧ d = '\x7b' then
      match _h : splitAtClose? rest with
      | some (_, after) => leavesOpen after
      | none => true
    else leavesOpen (d :: rest)
termination_by cs => cs.length
decreasing_by
  · have := congrArg List.length (eq_of_splitAtClose? _h)
    simp at this ⊢
    omega
  · simp

/-- The same of a text that begins with such braces behind it. -/
def leavesOpenAfterOpen (cs : List Char) : Bool :=
  match splitAtClose? cs with
  | some (_, after) => leavesOpen after
  | none => true

/-- Replaces in a text that begins inside a placeholder. -/
def replaceAfterClose (name r cs : List Char) : List Char :=
  match splitAtClose? cs with
  | some (inner, after) => inner ++ '\x7d' :: '\x7d' :: replace name r after
  | none => cs

theorem replaceAfterClose_some {name r cs inner after : List Char}
    (h : splitAtClose? cs = some (inner, after)) :
    replaceAfterClose name r cs = inner ++ '\x7d' :: '\x7d' :: replace name r after := by
  simp [replaceAfterClose, h]

theorem replaceAfterClose_none {name r cs : List Char} (h : splitAtClose? cs = none) :
    replaceAfterClose name r cs = cs := by
  simp [replaceAfterClose, h]

/-- Replaces in a text that goes on with another; `inside` says whether braces are pending. -/
def replaceFrom (inside : Bool) (name r cs : List Char) : List Char :=
  if inside then replaceAfterClose name r cs else replace name r cs

/-- Whether braces are pending after a text that goes on with another. -/
def endsInside (inside : Bool) (cs : List Char) : Bool :=
  if inside then leavesOpenAfterOpen cs else leavesOpen cs

theorem leavesOpen_cons {c : Char} {cs : List Char} (h : c = '\x7b' → cs.head? ≠ some '\x7b') :
    leavesOpen (c :: cs) = leavesOpen cs := by
  cases cs with
  | nil => simp [leavesOpen]
  | cons d cs =>
    have hopen : ¬(c = '\x7b' ∧ d = '\x7b') := by
      rintro ⟨hc, rfl⟩
      exact h hc rfl
    rw [leavesOpen, if_neg hopen]

theorem leavesOpen_hole {cs inner after : List Char} (h : splitAtClose? cs = some (inner, after)) :
    leavesOpen ('\x7b' :: '\x7b' :: cs) = leavesOpen after := by
  rw [leavesOpen, if_pos ⟨rfl, rfl⟩]
  split
  · next hs =>
    rw [h] at hs
    obtain ⟨rfl, rfl⟩ := by simpa using hs
    rfl
  · next hs =>
    rw [h] at hs
    cases hs

theorem leavesOpen_open {cs : List Char} (h : splitAtClose? cs = none) :
    leavesOpen ('\x7b' :: '\x7b' :: cs) = true := by
  rw [leavesOpen, if_pos ⟨rfl, rfl⟩]
  split
  · next hs =>
    rw [h] at hs
    cases hs
  · rfl

theorem leavesOpen_of_not_mem {cs : List Char} (h : '\x7b' ∉ cs) : leavesOpen cs = false := by
  induction cs with
  | nil => simp [leavesOpen]
  | cons c cs ih =>
    rw [List.mem_cons, not_or] at h
    rw [leavesOpen_cons fun hc => absurd hc.symm h.1]
    exact ih h.2

/-! ## One text after another -/

/-- No brace that ends the first text stands next to the same brace at the beginning of the second. -/
def Separate (cs ds : List Char) : Prop :=
  ∀ c ∈ cs.getLast?, ∀ d ∈ ds.head?, ¬(c = '\x7b' ∧ d = '\x7b') ∧ ¬(c = '\x7d' ∧ d = '\x7d')

/-- No text between braces that reach from the first text into the second is the name with blanks. -/
def NoneAcross (name cs ds : List Char) : Prop :=
  ∀ before inner inner' after, cs = before ++ '\x7b' :: '\x7b' :: inner →
    ds = inner' ++ '\x7d' :: '\x7d' :: after → trimChars (inner ++ inner') ≠ name

theorem Separate.of_cons {c : Char} {cs ds : List Char} (h : Separate (c :: cs) ds) :
    Separate cs ds := by
  intro a ha
  cases cs with
  | nil => cases ha
  | cons b cs => exact h a (by simpa [List.getLast?_cons] using ha)

theorem Separate.of_append {bs cs ds : List Char} (h : Separate (bs ++ cs) ds) :
    Separate cs ds := by
  induction bs with
  | nil => exact h
  | cons b bs ih => exact ih h.of_cons

/-- A text that begins with no brace may stand after any text. -/
theorem separate_cons {d : Char} (hopen : d ≠ '\x7b') (hclose : d ≠ '\x7d') (cs ds : List Char) :
    Separate cs (d :: ds) := by
  intro c _ e he
  obtain rfl : d = e := by simpa using he
  exact ⟨fun h => hopen h.2, fun h => hclose h.2⟩

theorem NoneAcross.of_cons {name : List Char} {c : Char} {cs ds : List Char}
    (h : NoneAcross name (c :: cs) ds) : NoneAcross name cs ds := by
  intro before inner inner' after hcs hds
  refine h (c :: before) inner inner' after ?_ hds
  rw [hcs, List.cons_append]

theorem NoneAcross.of_append {name bs cs ds : List Char} (h : NoneAcross name (bs ++ cs) ds) :
    NoneAcross name cs ds := by
  induction bs with
  | nil => exact h
  | cons b bs ih => exact ih h.of_cons

theorem splitAtClose?_append_none {cs ds : List Char} (h : splitAtClose? cs = none)
    (hsep : Separate cs ds) :
    splitAtClose? (cs ++ ds) =
      (splitAtClose? ds).map fun (inner, after) => (cs ++ inner, after) := by
  fun_induction splitAtClose? cs with
  | case1 => simp
  | case2 c =>
    cases ds with
    | nil => rfl
    | cons d ds =>
      have hbraces := (hsep c rfl d rfl).2
      rw [List.cons_append, List.nil_append, splitAtClose?, if_neg hbraces]
      rfl
  | case3 => cases h
  | case4 c d cs hc ih =>
    have hcs : splitAtClose? (d :: cs) = none := by simpa using h
    have ih := ih hcs hsep.of_cons
    rw [List.cons_append] at ih
    rw [List.cons_append, List.cons_append, splitAtClose?, if_neg hc, ih, Option.map_map]
    rfl

section Append

variable {name r cs ds : List Char}

theorem replace_append (hsep : Separate cs ds) (hnone : NoneAcross name cs ds) :
    replace name r (cs ++ ds) =
      replace name r cs ++ replaceFrom (leavesOpen cs) name r ds := by
  fun_induction scan cs with
  | case1 => rw [leavesOpen_of_not_mem List.not_mem_nil, replace_nil]; rfl
  | case2 c =>
    have hopen : leavesOpen [c] = false := by simp [leavesOpen]
    have hchar : replace name r [c] = [c] := by rw [replace_cons (by simp), replace_nil]
    rw [hopen, hchar, List.cons_append, replace_cons ?_]
    · rfl
    · rintro rfl hhead
      exact (hsep '\x7b' rfl '\x7b' hhead).1 ⟨rfl, rfl⟩
  | case3 c d cs hopen inner after hs ih =>
    obtain ⟨rfl, rfl⟩ := hopen
    have hcs : '\x7b' :: '\x7b' :: cs =
        ('\x7b' :: '\x7b' :: inner ++ ['\x7d', '\x7d']) ++ after := by
      simp [eq_of_splitAtClose? hs]
    have hsep : Separate after ds := Separate.of_append (hcs ▸ hsep)
    have hnone : NoneAcross name after ds := NoneAcross.of_append (hcs ▸ hnone)
    rw [replace_hole hs, leavesOpen_hole hs, List.cons_append, List.cons_append,
      replace_hole (splitAtClose?_append ds hs), ih hsep hnone, List.append_assoc]
  | case4 c d cs hopen hs =>
    obtain ⟨rfl, rfl⟩ := hopen
    have hsplit := splitAtClose?_append_none hs hsep.of_cons.of_cons
    rw [replace_open hs, leavesOpen_open hs, List.cons_append, List.cons_append, replaceFrom,
      if_pos rfl]
    cases hds : splitAtClose? ds with
    | none =>
      rw [hds] at hsplit
      rw [replace_open hsplit, replaceAfterClose_none hds]
      rfl
    | some ia =>
      obtain ⟨inner, after⟩ := ia
      rw [hds] at hsplit
      have hkept := hnone [] cs inner after rfl (eq_of_splitAtClose? hds)
      rw [replace_hole hsplit, if_neg hkept, replaceAfterClose_some hds]
      simp [write]
  | case5 c d cs hopen ih =>
    have hc : c = '\x7b' → (d :: cs).head? ≠ some '\x7b' :=
      fun hc he => hopen ⟨hc, by simpa using he⟩
    rw [replace_cons hc, leavesOpen_cons hc, List.cons_append, replace_cons (by simpa using hc),
      ih hsep.of_cons hnone.of_cons, List.cons_append]

theorem replaceFrom_append (hsep : Separate cs ds) (hnone : NoneAcross name cs ds) (inside : Bool) :
    replaceFrom inside name r (cs ++ ds) =
      replaceFrom inside name r cs ++ replaceFrom (endsInside inside cs) name r ds := by
  cases inside with
  | false => exact replace_append hsep hnone
  | true =>
    show replaceAfterClose name r (cs ++ ds) =
      replaceAfterClose name r cs ++ replaceFrom (leavesOpenAfterOpen cs) name r ds
    cases hs : splitAtClose? cs with
    | none =>
      have hsplit := splitAtClose?_append_none hs hsep
      have hopen : leavesOpenAfterOpen cs = true := by rw [leavesOpenAfterOpen, hs]
      rw [hopen, replaceFrom, if_pos rfl, replaceAfterClose_none hs]
      cases hds : splitAtClose? ds with
      | none =>
        rw [hds] at hsplit
        rw [replaceAfterClose_none hsplit, replaceAfterClose_none hds]
      | some ia =>
        rw [hds] at hsplit
        rw [replaceAfterClose_some hsplit, replaceAfterClose_some hds, List.append_assoc]
    | some ia =>
      obtain ⟨inner, after⟩ := ia
      have hcs : cs = (inner ++ ['\x7d', '\x7d']) ++ after := by
        simp [eq_of_splitAtClose? hs]
      have hsep : Separate after ds := Separate.of_append (hcs ▸ hsep)
      have hnone : NoneAcross name after ds := NoneAcross.of_append (hcs ▸ hnone)
      have hopen : leavesOpenAfterOpen cs = leavesOpen after := by rw [leavesOpenAfterOpen, hs]
      rw [hopen, replaceAfterClose_some hs, replaceAfterClose_some (splitAtClose?_append ds hs),
        replace_append hsep hnone]
      simp

theorem replaceFrom_cons {c : Char} (hopen : c ≠ '\x7b') (hclose : c ≠ '\x7d') (inside : Bool) :
    replaceFrom inside name r (c :: cs) = c :: replaceFrom inside name r cs := by
  cases inside with
  | false => exact replace_cons fun hc => absurd hc hopen
  | true =>
    show replaceAfterClose name r _ = c :: replaceAfterClose name r cs
    have hsplit := splitAtClose?_cons hclose cs
    cases hcs : splitAtClose? cs with
    | none =>
      rw [hcs] at hsplit
      rw [replaceAfterClose_none hsplit, replaceAfterClose_none hcs]
    | some ia =>
      rw [hcs] at hsplit
      rw [replaceAfterClose_some hsplit, replaceAfterClose_some hcs, List.cons_append]

/-- A text without the placeholder stays as it is, whatever is pending before it. -/
theorem replaceFrom_eq_self (hnone : occurs name cs = false) (inside : Bool) :
    replaceFrom inside name r cs = cs := by
  cases inside with
  | false => exact replace_eq_self hnone
  | true =>
    show replaceAfterClose name r cs = cs
    cases hs : splitAtClose? cs with
    | none => exact replaceAfterClose_none hs
    | some ia =>
      obtain ⟨inner, after⟩ := ia
      have hafter : occurs name after = false := by
        rw [← Bool.not_eq_true]
        intro hoccurs
        rw [occurs_of_splitAtClose? hs hoccurs] at hnone
        cases hnone
      rw [replaceAfterClose_some hs, replace_eq_self hafter]
      exact (eq_of_splitAtClose? hs).symm

theorem leavesOpen_append (hsep : Separate cs ds) :
    leavesOpen (cs ++ ds) = endsInside (leavesOpen cs) ds := by
  fun_induction scan cs with
  | case1 => rw [leavesOpen_of_not_mem List.not_mem_nil]; rfl
  | case2 c =>
    have hopen : leavesOpen [c] = false := by simp [leavesOpen]
    rw [hopen, List.cons_append, leavesOpen_cons ?_]
    · rfl
    · rintro rfl hhead
      exact (hsep '\x7b' rfl '\x7b' hhead).1 ⟨rfl, rfl⟩
  | case3 c d cs hopen inner after hs ih =>
    obtain ⟨rfl, rfl⟩ := hopen
    have hcs : '\x7b' :: '\x7b' :: cs =
        ('\x7b' :: '\x7b' :: inner ++ ['\x7d', '\x7d']) ++ after := by
      simp [eq_of_splitAtClose? hs]
    rw [leavesOpen_hole hs, List.cons_append, List.cons_append,
      leavesOpen_hole (splitAtClose?_append ds hs), ih (Separate.of_append (hcs ▸ hsep))]
  | case4 c d cs hopen hs =>
    obtain ⟨rfl, rfl⟩ := hopen
    have hsplit := splitAtClose?_append_none hs hsep.of_cons.of_cons
    rw [leavesOpen_open hs, List.cons_append, List.cons_append, endsInside, if_pos rfl,
      leavesOpenAfterOpen]
    cases hds : splitAtClose? ds with
    | none =>
      rw [hds] at hsplit
      exact leavesOpen_open hsplit
    | some ia =>
      rw [hds] at hsplit
      exact leavesOpen_hole hsplit
  | case5 c d cs hopen ih =>
    have hc : c = '\x7b' → (d :: cs).head? ≠ some '\x7b' :=
      fun hc he => hopen ⟨hc, by simpa using he⟩
    rw [leavesOpen_cons hc, List.cons_append, leavesOpen_cons (by simpa using hc), ih hsep.of_cons]

end Append

/-! ## Where a placeholder occurs -/

section Occurs

variable {name cs ds : List Char}

theorem occurs_of_not_mem (h : '\x7b' ∉ cs) : occurs name cs = false := by
  have hpass : occurs name (cs ++ []) = occurs name [] := occurs_append h []
  rw [List.append_nil] at hpass
  rw [hpass, occurs, names, scan_nil]
  rfl

theorem length_replace_le (name cs : List Char) : (replace name [] cs).length ≤ cs.length := by
  cases h : occurs name cs with
  | true => exact Nat.le_of_lt (length_replace_lt h (by simp))
  | false => rw [replace_eq_self h]

theorem occurs_iff_length :
    occurs name cs = true ↔ (replace name [] cs).length < cs.length := by
  constructor
  · exact fun h => length_replace_lt h (by simp)
  · intro h
    rw [← Bool.not_eq_false]
    intro hnone
    rw [replace_eq_self hnone] at h
    exact Nat.lt_irrefl _ h

/-- After a text that leaves no braces open a placeholder is found where it is written; after any
other text its own braces end what was pending. -/
theorem occurs_append_write (hname : isIdentifierChars name = true)
    (hcs : cs.getLast? ≠ some '\x7b') :
    occurs name (cs ++ (write name ++ ds)) =
      (!leavesOpen cs || occurs name cs || occurs name ds) := by
  have hsep : Separate cs (write name ++ ds) := by
    intro c hc d hd
    obtain rfl : '\x7b' = d := by simpa [write] using hd
    refine ⟨?_, fun h => absurd h.2 (by decide)⟩
    rintro ⟨rfl, -⟩
    exact hcs hc
  have hacross : NoneAcross name cs (write name ++ ds) := by
    intro before inner inner' after _ hds htrim
    cases inner' with
    | nil => simp [write] at hds
    | cons c inner' =>
      obtain rfl : '\x7b' = c := by simpa [write] using (List.cons.inj hds).1
      exact not_isPadded_of_mem (by decide) (List.mem_append_right inner List.mem_cons_self)
        (isPadded_of_trimChars hname htrim)
  have hname' : '\x7d' ∉ name := fun hmem => absurd (isIdentifierChar_of_mem hname hmem) (by decide)
  have hsplit := splitAtClose?_plain hname' ds
  have hwrite : write name ++ ds = '\x7b' :: '\x7b' :: (name ++ '\x7d' :: '\x7d' :: ds) := by
    simp [write]
  have hpending : splitAtClose? (write name ++ ds) = some ('\x7b' :: '\x7b' :: name, ds) := by
    rw [hwrite, splitAtClose?_cons (by decide), splitAtClose?_cons (by decide), hsplit]
    rfl
  have hlength : (write name).length = name.length + 4 := by simp [write]
  have hle := length_replace_le name cs
  have hle' := length_replace_le name ds
  rw [Bool.eq_iff_iff, occurs_iff_length, Bool.or_eq_true, Bool.or_eq_true, occurs_iff_length,
    occurs_iff_length, replace_append hsep hacross]
  cases leavesOpen cs with
  | false =>
    have hhole : replace name [] (write name ++ ds) = replace name [] ds := by
      rw [hwrite, replace_hole hsplit, if_pos (trimChars_identifier hname), List.nil_append]
    simp only [replaceFrom, Bool.false_eq_true, if_false, hhole, List.length_append, hlength]
    simp
    omega
  | true =>
    simp only [replaceFrom, if_true, replaceAfterClose_some hpending, List.length_append,
      List.length_cons, hlength]
    simp
    omega

end Occurs

end Placeholder

end EventReport.Text
