/-
# Texts in which no placeholder begins

A text is *clear* if no placeholder begins in it, whatever comes after it: each
opening brace in it is followed by something else than an opening brace.  Clear parts
make clear texts, so a statement is clear if the parts that it is written from are.

## Quoted texts

A quoted text is clear if no two opening braces stand in a row in what is quoted.
There is one catch, in both ways of quoting: they leave characters out, and so bring
together what was apart.  So the condition is on the characters that are left
(`IsHarmless`, for texts between single quotes).
-/
import EventReport.Proofs.Text.Closed
import EventReport.Text.Pattern

namespace EventReport.Text

open Placeholder (Apart scan leavesOpen occurs write)

/-! ## Clear texts -/

/-- No two opening braces come together in the text, nor would they if one came after it. -/
def IsClear (cs : List Char) : Prop := (cs ++ ['\x7b']).IsChain Apart

theorem isClear_iff {cs : List Char} :
    IsClear cs ↔ cs.IsChain Apart ∧ cs.getLast? ≠ some '\x7b' := by
  rw [IsClear, List.isChain_append]
  constructor
  · rintro ⟨hchain, -, hlast⟩
    exact ⟨hchain, fun h => hlast _ h _ rfl rfl rfl⟩
  · rintro ⟨hchain, hlast⟩
    refine ⟨hchain, .singleton _, ?_⟩
    rintro c hc d - rfl
    exact absurd hc hlast

theorem isClear_of_not_mem {cs : List Char} (h : '\x7b' ∉ cs) : IsClear cs :=
  isClear_iff.2 ⟨Placeholder.isChain_apart fun hbraces => h (hbraces.subset List.mem_cons_self),
    fun hlast => h (List.mem_of_getLast? hlast)⟩

theorem isClear_identifier {w : List Char} (hw : isIdentifierChars w = true) : IsClear w :=
  isClear_of_not_mem fun hmem => absurd (isIdentifierChar_of_mem hw hmem) (by decide)

theorem Placeholder.not_infix_of_isChain {cs : List Char} (h : cs.IsChain Apart) :
    ¬['\x7b', '\x7b'] <:+: cs := by
  rintro ⟨before, after, rfl⟩
  have hopened := h.left_of_append.right_of_append
  exact (List.isChain_cons_cons.1 hopened).1 rfl rfl

theorem Placeholder.leavesOpen_of_isChain {cs : List Char} (h : cs.IsChain Apart) :
    leavesOpen cs = false := by
  fun_induction leavesOpen cs with
  | case1 => rfl
  | case2 => rfl
  | case3 c d rest hopen => exact absurd hopen.2 ((List.isChain_cons_cons.1 h).1 hopen.1)
  | case4 c d rest hopen => exact absurd hopen.2 ((List.isChain_cons_cons.1 h).1 hopen.1)
  | case5 c d rest _ ih => exact ih (List.isChain_cons_cons.1 h).2

namespace IsClear

variable {cs ds : List Char}

theorem append (hcs : IsClear cs) (hds : IsClear ds) : IsClear (cs ++ ds) := by
  obtain ⟨hchain, hlast⟩ := isClear_iff.1 hcs
  rw [IsClear, List.append_assoc]
  refine hchain.append hds ?_
  rintro c hc d - rfl
  exact absurd hc hlast

theorem cons {c : Char} (hc : c ≠ '\x7b') (h : IsClear cs) : IsClear (c :: cs) := by
  have hone : IsClear [c] := isClear_of_not_mem (by simpa using hc.symm)
  exact hone.append h

/-- Two clear texts with a character between them. -/
theorem sep {c : Char} (hcs : IsClear cs) (hc : c ≠ '\x7b') (hds : IsClear ds) :
    IsClear (cs ++ c :: ds) := hcs.append (hds.cons hc)

/-- Two clear texts with a blank between them. -/
theorem space (hcs : IsClear cs) (hds : IsClear ds) : IsClear (cs ++ ' ' :: ds) :=
  hcs.sep (by decide) hds

theorem occurs (h : IsClear cs) (name : List Char) : Placeholder.occurs name cs = false :=
  Placeholder.occurs_of_isChain (isClear_iff.1 h).1

theorem leavesOpen (h : IsClear cs) : Placeholder.leavesOpen cs = false :=
  Placeholder.leavesOpen_of_isChain (isClear_iff.1 h).1

end IsClear

/-! ## Texts with one placeholder -/

/-- There is one placeholder in the text, that of the name. -/
def HoldsOnly (name cs : List Char) : Prop :=
  ∃ start finish, '\x7b' ∉ start ∧ '\x7b' ∉ finish ∧ cs = start ++ (write name ++ finish)

namespace HoldsOnly

variable {name cs : List Char} (hname : isIdentifierChars name = true) (h : HoldsOnly name cs)

include hname h

theorem leavesOpen : Placeholder.leavesOpen cs = false := by
  have hclose : '\x7d' ∉ name := fun hmem => absurd (isIdentifierChar_of_mem hname hmem) (by decide)
  obtain ⟨start, finish, hstart, hfinish, rfl⟩ := h
  induction start with
  | nil =>
    have hwrite : write name ++ finish = '\x7b' :: '\x7b' :: (name ++ '\x7d' :: '\x7d' :: finish) := by
      simp [write]
    rw [List.nil_append, hwrite,
      Placeholder.leavesOpen_hole (Placeholder.splitAtClose?_plain hclose finish)]
    exact Placeholder.leavesOpen_of_not_mem hfinish
  | cons c start ih =>
    rw [List.mem_cons, not_or] at hstart
    rw [List.cons_append, Placeholder.leavesOpen_cons fun hc => absurd hc.symm hstart.1]
    exact ih hstart.2

theorem occurs_iff {other : List Char} : Placeholder.occurs other cs = true ↔ other = name := by
  have hclose : '\x7d' ∉ name := fun hmem => absurd (isIdentifierChar_of_mem hname hmem) (by decide)
  obtain ⟨start, finish, hstart, hfinish, rfl⟩ := h
  have hwrite : write name ++ finish = '\x7b' :: '\x7b' :: (name ++ '\x7d' :: '\x7d' :: finish) := by
    simp [write]
  have hfinish' : scan finish = finish.map .char := by
    have hscan := Placeholder.scan_append hfinish []
    rwa [List.append_nil, Placeholder.scan_nil, List.append_nil] at hscan
  rw [Placeholder.occurs_append hstart, hwrite, Placeholder.occurs_iff,
    Placeholder.scan_hole (Placeholder.splitAtClose?_plain hclose finish), hfinish']
  simp [Placeholder.Segment.name?, trimChars_identifier hname, eq_comm]

end HoldsOnly

/-! ## Quoted texts -/

/-- No two opening braces stand in a row in the text, where NUL is left out. -/
def IsHarmless (s : String) : Prop :=
  ¬['\x7b', '\x7b'] <:+: s.toList.filter (· != '\x00')

/-- Without NUL nothing is left out. -/
theorem isHarmless_of_not_mem {s : String} (hnul : '\x00' ∉ s.toList)
    (hopen : ¬['\x7b', '\x7b'] <:+: s.toList) : IsHarmless s := by
  have hkept : s.toList.filter (· != '\x00') = s.toList := by
    refine List.filter_eq_self.2 fun c hc => bne_iff_ne.2 ?_
    rintro rfl
    exact hnul hc
  rw [IsHarmless, hkept]
  exact hopen

/-- What is written for each character brings no braces together, if it holds a brace only for a
brace. -/
theorem isChain_flatMap {f : Char → List Char}
    (hf : ∀ c, '\x7b' ∈ f c → c = '\x7b' ∧ f c = ['\x7b']) {cs : List Char}
    (hne : ∀ c ∈ cs, f c ≠ []) (h : cs.IsChain Apart) : (cs.flatMap f).IsChain Apart := by
  have hnil : [] ∉ cs.map f := by
    intro hmem
    obtain ⟨c, hc, hnil⟩ := List.mem_map.1 hmem
    exact hne c hc hnil
  have hnext : ∀ c d, Apart c d → ∀ x ∈ (f c).getLast?, ∀ y ∈ (f d).head?, Apart x y := by
    rintro c d hapart x hx y hy rfl rfl
    exact hapart (hf c (List.mem_of_getLast? hx)).1 (hf d (List.mem_of_head? hy)).1
  rw [List.flatMap_def, List.isChain_flatten hnil, List.isChain_map]
  refine ⟨fun l hl => ?_, h.imp hnext⟩
  obtain ⟨c, -, rfl⟩ := List.mem_map.1 hl
  by_cases hbrace : '\x7b' ∈ f c
  · rw [(hf c hbrace).2]
    exact .singleton _
  · exact Placeholder.isChain_apart fun hbraces => hbrace (hbraces.subset List.mem_cons_self)

/-- Characters for which nothing is written may be left out before. -/
theorem flatMap_filter {f : Char → List Char} {p : Char → Bool} {cs : List Char}
    (h : ∀ c ∈ cs, p c = false → f c = []) : cs.flatMap f = (cs.filter p).flatMap f := by
  induction cs with
  | nil => rfl
  | cons c cs ih =>
    have ih := ih fun d hd => h d (List.mem_cons_of_mem c hd)
    cases hc : p c with
    | true => rw [List.filter_cons_of_pos hc, List.flatMap_cons, List.flatMap_cons, ih]
    | false =>
      rw [List.filter_cons_of_neg (by simp [hc]), List.flatMap_cons,
        h c List.mem_cons_self hc, List.nil_append, ih]

theorem isClear_quoted {cs : List Char} (h : (cs.filter (· != '\x00')).IsChain Apart) :
    IsClear (Quoted.chars cs) := by
  have hnul : ∀ c, (c != '\x00') = false → Quoted.escape c = [] := by
    intro c hc
    obtain rfl : c = '\x00' := by simpa using hc
    rfl
  have hne : ∀ c ∈ cs.filter (· != '\x00'), Quoted.escape c ≠ [] := by
    intro c hc hescape
    have hchar := (List.mem_filter.1 hc).2
    rcases Quoted.escape_cases c with ⟨rfl, -⟩ | ⟨he, -⟩ | ⟨mark, digits, he, -⟩
    · cases hchar
    · rw [he] at hescape
      cases hescape
    · rw [he] at hescape
      cases hescape
  have hbody : (Quoted.body cs).IsChain Apart := by
    rw [Quoted.body, flatMap_filter fun c _ => hnul c]
    exact isChain_flatMap (fun c => eq_of_brace_mem_escape) hne h
  have hclose : (Quoted.body cs ++ ['\'']).IsChain Apart := by
    refine hbody.append (.singleton _) ?_
    rintro c - d hd - rfl
    exact absurd (Option.some.inj hd) (by decide)
  have hclear : IsClear (Quoted.body cs ++ ['\'']) :=
    isClear_iff.2 ⟨hclose, by rw [List.getLast?_concat]; decide⟩
  exact hclear.cons (by decide)

theorem IsHarmless.isClear {s : String} (h : IsHarmless s) : IsClear (quote s).toList := by
  rw [toList_quote]
  exact isClear_quoted (Placeholder.isChain_apart h)

theorem isChain_append {cs ds : List Char} (hcs : cs.IsChain Apart) (hds : ds.IsChain Apart)
    (h : '\x7b' ∉ cs ∨ '\x7b' ∉ ds) : (cs ++ ds).IsChain Apart := by
  refine hcs.append hds ?_
  rintro c hc d hd rfl rfl
  exact h.elim (fun h => h (List.mem_of_getLast? hc)) fun h => h (List.mem_of_head? hd)

/-- A name in which no character is left out stands between backticks as it is. -/
theorem not_braces_quoteTable {name : String}
    (hkept : (name.toList.all fun c => c != '\x60' && !isControl c) = true)
    (hopen : ¬['\x7b', '\x7b'] <:+: name.toList) :
    ¬['\x7b', '\x7b'] <:+: (quoteTable name).toList := by
  have hname : name.toList.filter (fun c => c != '\x60' && !isControl c) = name.toList :=
    List.filter_eq_self.2 (List.all_eq_true.1 hkept)
  have hmark : ['\x60'].IsChain Apart := .singleton _
  have hchain : ('\x60' :: name.toList ++ ['\x60']).IsChain Apart :=
    isChain_append (isChain_append hmark (Placeholder.isChain_apart hopen) (.inl (by decide))) hmark
      (.inr (by decide))
  rw [quoteTable, String.toList_ofList, hname]
  exact Placeholder.not_infix_of_isChain hchain

/-- A table between backticks is clear if its quoted name has no two opening braces in a row. -/
theorem isClear_quoteTable {name : String}
    (h : ¬['\x7b', '\x7b'] <:+: (quoteTable name).toList) : IsClear (quoteTable name).toList := by
  refine isClear_iff.2 ⟨Placeholder.isChain_apart h, ?_⟩
  rw [quoteTable, String.toList_ofList, List.getLast?_concat]
  decide

/-! ## Patterns -/

namespace Pattern

/-- How a character is written in a pattern. -/
def escape (c : Char) : List Char := if isSpecial c then ['\\', c] else [c]

theorem literal_eq_flatMap (cs : List Char) : literal cs = cs.flatMap escape := by
  induction cs with
  | nil => rfl
  | cons c cs ih =>
    rw [literal, List.flatMap_cons, ← ih, escape]
    split <;> rfl

theorem eq_of_mem_escape {c d : Char} (h : d ∈ escape c) : d = '\\' ∨ d = c := by
  rw [escape] at h
  split at h
  · simpa using h
  · exact .inr (List.mem_singleton.1 h)

theorem mem_escape (c : Char) : c ∈ escape c := by
  rw [escape]
  split <;> simp

theorem isChain_literal {cs : List Char} (h : (cs.filter (· != '\x00')).IsChain Apart) :
    ((literal cs).filter (· != '\x00')).IsChain Apart := by
  have hbrace : ∀ c, '\x7b' ∈ (escape c).filter (· != '\x00') →
      c = '\x7b' ∧ (escape c).filter (· != '\x00') = ['\x7b'] := by
    intro c hc
    rcases eq_of_mem_escape (List.mem_filter.1 hc).1 with hslash | rfl
    · exact absurd hslash (by decide)
    · exact ⟨rfl, by decide⟩
  have hnul : ∀ c ∈ cs, (c != '\x00') = false → (escape c).filter (· != '\x00') = [] := by
    intro c _ hc
    obtain rfl : c = '\x00' := by simpa using hc
    decide
  rw [literal_eq_flatMap, List.filter_flatMap, flatMap_filter hnul]
  refine isChain_flatMap hbrace (fun c hc hnil => ?_) h
  have hkept : c ∈ (escape c).filter (· != '\x00') :=
    List.mem_filter.2 ⟨mem_escape c, (List.mem_filter.1 hc).2⟩
  rw [hnil] at hkept
  cases hkept

end Pattern

/-- The patterns that a text is matched with are as harmless as the text. -/
theorem IsHarmless.isClear_pattern {s : String} (h : IsHarmless s) {p : String}
    (hp : p = Pattern.containing s ∨ p = Pattern.startingWith s ∨ p = Pattern.endingWith s) :
    IsClear (quote p).toList := by
  have hliteral := Pattern.isChain_literal (Placeholder.isChain_apart h)
  have hwildcard : ['%'].IsChain Apart := .singleton _
  have hbefore : ('%' :: (Pattern.literal s.toList).filter (· != '\x00')).IsChain Apart :=
    isChain_append hwildcard hliteral (.inl (by decide))
  rw [toList_quote]
  refine isClear_quoted ?_
  rcases hp with rfl | rfl | rfl
  · rw [Pattern.containing, String.toList_ofList, List.filter_append]
    exact isChain_append hbefore hwildcard (.inr (by decide))
  · rw [Pattern.startingWith, String.toList_ofList, List.filter_append]
    exact isChain_append hliteral hwildcard (.inr (by decide))
  · rw [Pattern.endingWith, String.toList_ofList]
    exact hbefore

end EventReport.Text
