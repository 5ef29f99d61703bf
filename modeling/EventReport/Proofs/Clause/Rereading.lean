/-
# A clause that has been read is read again

A clause keeps the spelling of its column and of its literals, and it is written in
one way only; so the line that is written from it may differ from the line it was
read from.  It is read as the same clause, though (`Clause.read?_render`), and that
stays so if the connective is exchanged, or the predicate for another one that is
read back by itself (`Predicate.IsWritten`).

The tokens of a clause are lexemes of its line, and so they are read from what is written
of them, too.  Here is added what is needed to put the text back on a line: it has no line
feed, and does not end with a carriage return (`ReadsAs`).
-/
import EventReport.Proofs.Clause.Column

namespace EventReport

open Text
open Token (isKeyword)

/-! ## Tokens on other lines -/

namespace Token

/-- A token that is neither a placeholder nor a brace. -/
def isPlain : Token → Bool
  | placeholder _ => false
  | symbol s => s != ['\x7b'] && s != ['\x7d']
  | _ => true

/-- A token that may stand for another: it is the same one, or both are words without braces. -/
def Similar (t u : Token) : Prop :=
  t = u ∨ ∃ v w, t = word v ∧ u = word w ∧ (∀ c ∈ v, c ≠ '\x7b' ∧ c ≠ '\x7d') ∧
    ∀ c ∈ w, c ≠ '\x7b' ∧ c ≠ '\x7d'

theorem similar_refl (ts : List Token) : List.Forall₂ Similar ts ts :=
  List.forall₂_same.2 fun _ _ => .inl rfl

/-- A keyword has no braces, in any case. -/
theorem similar_keyword {keyword : String} {w : List Char} (h : isKeyword keyword w = true)
    (hkeyword : (keyword.toList.map Char.toLower).all isIdentifierChar = true) :
    Similar (word w) (word keyword.toList) := by
  have hbrace : ∀ {cs : List Char}, (cs.map Char.toLower).all isIdentifierChar = true →
      ∀ c ∈ cs, c ≠ '\x7b' ∧ c ≠ '\x7d' := by
    intro cs hcs c hc
    have hlower := List.all_eq_true.1 hcs _ (List.mem_map_of_mem hc)
    refine ⟨?_, ?_⟩
    · rintro rfl
      exact absurd hlower (by decide)
    · rintro rfl
      exact absurd hlower (by decide)
  rw [isKeyword, sameCaseless, beq_iff_eq] at h
  exact .inr ⟨w, keyword.toList, rfl, rfl, hbrace (h ▸ hkeyword), hbrace hkeyword⟩

end Token

/-! ## Texts that are read back -/

/-- The text has the tokens, whatever stands behind it. -/
structure ReadsAs (cs : List Char) (ts : List Token) : Prop where
  tokenize : ∀ rest, Ends rest → tokenize (cs ++ rest) = (tokenize rest).map (ts ++ ·)
  last : cs.getLast? ≠ some '\r'
  newline : '\n' ∉ cs

/-- A text that is read back, behind another one. -/
theorem ReadsAs.behind {cs ds : List Char} {ts us : List Token} (hds : ReadsAs ds us)
    (hlast : cs.getLast? ≠ some '\r') (hnewline : '\n' ∉ cs) (h : HasTokens (cs ++ ds) ts) :
    ReadsAs (cs ++ ds) ts where
  tokenize := h
  last := by
    have hdlast := hds.last
    rw [List.getLast?_append]
    cases hm : ds.getLast? with
    | none => simpa using hlast
    | some d => simpa [hm] using hdlast
  newline := by simp [hnewline, hds.newline]

theorem Token.Lexeme.readsAs {t : Token} {s : List Char} (h : t.Lexeme s)
    (hs : t.spelling? = some s) (hnewline : '\n' ∉ s) : ReadsAs s [t] where
  tokenize := h.hasTokens (by rintro x rfl; cases hs)
  last := by
    intro hlast
    have hmem := List.mem_of_getLast? hlast
    have hreturn : isWordStart '\r' = false ∧ isWordChar '\r' = false := by decide
    cases h with
    | @quoted quote body hquote _ hbody =>
      rw [List.getLast?_cons, hbody, Option.getD_some, Option.some.injEq] at hlast
      exact absurd (hlast ▸ hquote) (by decide)
    | backticked _ hbody =>
      rw [List.getLast?_cons, hbody] at hlast
      exact absurd hlast (by decide)
    | number hdigit hcs =>
      rcases List.mem_cons.1 hmem with rfl | hmem
      · exact absurd hdigit (by decide)
      · exact absurd (hcs _ hmem) (by decide)
    | word hstart _ hcs =>
      rcases List.mem_cons.1 hmem with rfl | hmem
      · rw [hreturn.1] at hstart
        cases hstart
      · have hchar := hcs _ hmem
        rw [hreturn.2] at hchar
        cases hchar
    | placeholder | openOptional | closeOptional | pair | symbol => cases hs
  newline := hnewline

/-- The tokens have lexemes, and none of these holds a line feed. -/
def InLine (ts : List Token) : Prop := ∀ t ∈ ts, ∃ s, t.Lexeme s ∧ '\n' ∉ s

namespace InLine

variable {ts us : List Token}

theorem subset (h : InLine ts) (hus : us ⊆ ts) : InLine us := fun t ht => h t (hus ht)

theorem lexeme (h : InLine ts) : ∀ t ∈ ts, ∃ s, t.Lexeme s :=
  fun t ht => (h t ht).imp fun _ hs => hs.1

/-- Words and literals are read back. -/
theorem readsAs (h : InLine ts) {t : Token} (ht : t ∈ ts) {s : List Char}
    (hs : t.spelling? = some s) : ReadsAs s [t] := by
  obtain ⟨s', hlexeme, hnewline⟩ := h t ht
  obtain rfl := hlexeme.eq_of_spelling? hs
  exact hlexeme.readsAs hs hnewline

end InLine

theorem inLine_of_tokenize {line : List Char} {ts : List Token} (hline : '\n' ∉ line)
    (h : tokenize line = some ts) : InLine ts := by
  intro t ht
  obtain ⟨s, hs, hlexeme⟩ := Token.exists_lexeme_of_mem h ht
  exact ⟨s, hlexeme, fun hmem => hline (hs.subset hmem)⟩

namespace Grammar

theorem IsColumn.readsAs {ts : List Token} {c : ColumnName} (h : IsColumn ts c)
    (hts : InLine ts) : ReadsAs c.spelling ts := by
  induction h with
  | word w => exact hts.readsAs List.mem_cons_self rfl
  | @part w ts c hc ih =>
    have hw := hts.readsAs (t := .word w) List.mem_cons_self rfl
    have htokens := (IsColumn.part w hc).hasTokens hts.lexeme
    have hchars : w ++ '.' :: c.spelling = w ++ ['.'] ++ c.spelling := by simp
    simp only [hchars] at htokens ⊢
    exact (ih (hts.subset fun t ht => by simp [ht])).behind (by simp) (by simp [hw.newline]) htokens

theorem IsColumn.isPlain {ts : List Token} {c : ColumnName} (h : IsColumn ts c) :
    ∀ t ∈ ts, t.isPlain = true := by
  induction h with
  | word w => simp [Token.isPlain]
  | part w _ ih => simpa [Token.isPlain] using ih

theorem IsLiteral.readsAs {ts : List Token} {l : List Char} (h : IsLiteral ts l)
    (hts : InLine ts) : ReadsAs l ts := by
  have htokens := h.hasTokens hts.lexeme
  cases h with
  | quoted | number | truth => exact hts.readsAs List.mem_cons_self rfl
  | negative n =>
    have hn := hts.readsAs (t := .number n) (by simp) rfl
    have hminus : ReadsAs (['-'] ++ n) [.symbol ['-'], .number n] :=
      hn.behind (by decide) (by decide) htokens
    exact hminus

theorem IsLiteral.isPlain {ts : List Token} {l : List Char} (h : IsLiteral ts l) :
    ∀ t ∈ ts, t.isPlain = true := by
  cases h <;> simp [Token.isPlain]

theorem IsList.readsAs {ts : List Token} {ls : List (List Char)} (h : IsList ts ls)
    (hts : InLine ts) : ReadsAs ([',', ' '].intercalate ls) ts := by
  induction h with
  | one hl =>
    rw [List.intercalate_singleton]
    exact hl.readsAs hts
  | @more ts us l ls hl hls ih =>
    have hfirst := hl.readsAs (hts.subset (List.subset_append_left _ _))
    have hrest := ih (hts.subset fun t ht => by simp [ht])
    have htokens := (IsList.more hl hls).hasTokens hts.lexeme
    have hne : ls ≠ [] := by cases hls <;> simp
    rw [List.intercalate_cons_of_ne_nil hne] at htokens ⊢
    exact hrest.behind (by simp) (by simp [hfirst.newline]) htokens

theorem IsList.isPlain {ts : List Token} {ls : List (List Char)} (h : IsList ts ls) :
    ∀ t ∈ ts, t.isPlain = true := by
  induction h with
  | one hl => exact hl.isPlain
  | more hl _ ih =>
    intro t ht
    rcases List.mem_append.1 ht with ht | ht
    · exact hl.isPlain t ht
    rcases List.mem_cons.1 ht with rfl | ht
    · rfl
    · exact ih t ht

end Grammar

namespace ColumnName

/-- The column is read back, by itself and at the beginning of a comparison. -/
structure IsSpelled (c : ColumnName) (ts : List Token) : Prop where
  readsAs : ReadsAs c.spelling ts
  read? : ∀ rest, rest.head? ≠ some (.symbol ['.']) → ColumnName.read? (ts ++ rest) = some (c, rest)
  predicate : ∀ rest, rest.head? ≠ some (.symbol ['.']) → rest.head? ≠ some (.symbol ['(']) →
    Predicate.read? (ts ++ rest) = Predicate.comparison? c rest
  plain : ∀ t ∈ ts, t.isPlain = true

theorem isSpelled_of_isColumn {c : ColumnName} {ts : List Token} (h : Grammar.IsColumn ts c)
    (hts : InLine ts) : c.IsSpelled ts :=
  ⟨h.readsAs hts, fun _ hrest => h.read? hrest,
    fun _ hpoint hparen => h.read?_predicate hpoint hparen, h.isPlain⟩

/-- What a comparison of the column begins with. -/
theorem IsSpelled.front {c : ColumnName} {ts : List Token} (h : c.IsSpelled ts) (text : String)
    (hlast : text.toList.getLast? = some ' ') (hnewline : '\n' ∉ text.toList) :
    (c.spelling ++ text.toList).getLast? ≠ some '\r' ∧ '\n' ∉ c.spelling ++ text.toList :=
  ⟨by rw [List.getLast?_append, hlast]; simp, by simp [h.readsAs.newline, hnewline]⟩

end ColumnName

/-! ## Predicates -/

namespace Predicate

/-- The predicate is read back. -/
structure IsWritten (p : Predicate) (ts : List Token) : Prop where
  readsAs : ReadsAs p.render ts
  read? : ∀ rest, Predicate.read? (ts ++ rest) = some (p, rest)

theorem readsAs_write {name : List Char} (hname : isIdentifierChars name = true) :
    ReadsAs (Placeholder.write name) [.placeholder name] :=
  ⟨hasTokens_identifier hname, by simp [Placeholder.write, List.getLast?_cons],
    newline_not_mem_of_isNeat (isNeat_write hname)⟩

theorem isWritten_placeholder {name : List Char} (hname : isIdentifierChars name = true) :
    (Predicate.placeholder name).IsWritten [.placeholder name] :=
  ⟨readsAs_write hname, fun _ => rfl⟩

section Column

variable {c : ColumnName} {us : List Token} (hc : c.IsSpelled us)

include hc

theorem isWritten_equalsPlaceholder {name : List Char} (hname : isIdentifierChars name = true) :
    (equalsPlaceholder c name).IsWritten (us ++ [.symbol ['='], .placeholder name]) := by
  obtain ⟨hlast, hnewline⟩ := hc.front " = " (by decide) (by decide)
  refine ⟨(readsAs_write hname).behind hlast hnewline
    (Grammar.hasTokens_equals hc.readsAs.tokenize (hasTokens_identifier hname)), fun rest => ?_⟩
  rw [List.append_assoc, List.cons_append, hc.predicate _ (by simp) (by simp)]
  rfl

theorem isWritten_dateEqualsPlaceholder {name : List Char}
    (hname : isIdentifierChars name = true) :
    (dateEqualsPlaceholder c name).IsWritten (.word "DATE".toList :: .symbol ['('] ::
      (us ++ [.symbol [')'], .symbol ['='], .placeholder name])) := by
  have hkeyword : isKeyword "DATE" "DATE".toList = true := by decide
  refine ⟨(readsAs_write hname).behind ?_ ?_
    (Grammar.hasTokens_dateEquals hc.readsAs.tokenize (hasTokens_identifier hname)), fun rest => ?_⟩
  · have hequals : ") = ".toList.getLast? = some ' ' := by decide
    rw [List.getLast?_append, hequals]
    simp
  · simp [hc.readsAs.newline]
  · have hread := hc.read? (.symbol [')'] :: .symbol ['='] :: .placeholder name :: rest) (by simp)
    rw [List.cons_append, List.cons_append, List.append_assoc, Predicate.read?, hkeyword,
      if_pos rfl]
    show (ColumnName.read?
      (us ++ .symbol [')'] :: .symbol ['='] :: .placeholder name :: rest)).bind _ = _
    rw [hread]
    rfl

end Column

/-! ## Literal predicates that have been read -/

/-- The predicate is read back from tokens like those that it was read from. -/
structure IsReread (p : Predicate) (front us : List Token) : Prop where
  isWritten : p.IsWritten us
  similar : List.Forall₂ Token.Similar front us
  plain : ∀ t ∈ us, t.isPlain = true

/-- The literal predicates of a line are read back, with their keywords as they are written. -/
theorem isReread_of_isPredicate {us : List Token} {p : Predicate} {column : ColumnName}
    (h : Grammar.IsPredicate us p) (hus : InLine us) (hcolumn : p.literalColumn? = some column) :
    ∃ vs, p.IsReread us vs := by
  have hsimilar : ∀ {ts : List Token} {t u : Token} (vs : List Token), t.Similar u →
      List.Forall₂ Token.Similar (ts ++ t :: vs) (ts ++ u :: vs) := fun vs htu =>
    List.rel_append (Token.similar_refl _) (.cons htu (Token.similar_refl vs))
  have hplain : ∀ {ts vs : List Token} {t : Token}, (∀ u ∈ ts, u.isPlain = true) →
      t.isPlain = true → (∀ u ∈ vs, u.isPlain = true) → ∀ u ∈ ts ++ t :: vs, u.isPlain = true := by
    intro ts vs t hts ht hvs u hu
    rcases List.mem_append.1 hu with hu | hu
    · exact hts u hu
    rcases List.mem_cons.1 hu with rfl | hu
    · exact ht
    · exact hvs u hu
  cases h with
  | placeholder | equalsPlaceholder | dateEqualsPlaceholder => cases hcolumn
  | equals hc hl =>
    have hspelled := ColumnName.isSpelled_of_isColumn hc (hus.subset (List.subset_append_left _ _))
    have hliteral := hl.readsAs (hus.subset fun t ht => by simp [ht])
    obtain ⟨hlast, hnewline⟩ := hspelled.front " = " (by decide) (by decide)
    have hreads := hliteral.behind hlast hnewline
      (Grammar.hasTokens_equals hspelled.readsAs.tokenize hliteral.tokenize)
    exact ⟨_, ⟨hreads, (Grammar.IsPredicate.equals hc hl).read?⟩, Token.similar_refl _,
      hplain hc.isPlain rfl hl.isPlain⟩
  | like hc hw hl =>
    have hspelled := ColumnName.isSpelled_of_isColumn hc (hus.subset (List.subset_append_left _ _))
    have hliteral := hl.readsAs (hus.subset fun t ht => by simp [ht])
    obtain ⟨hlast, hnewline⟩ := hspelled.front " LIKE " (by decide) (by decide)
    have hreads := hliteral.behind hlast hnewline
      (Grammar.hasTokens_like hspelled.readsAs.tokenize hliteral.tokenize)
    exact ⟨_, ⟨hreads, (Grammar.IsPredicate.like hc (by decide) hl).read?⟩,
      hsimilar _ (Token.similar_keyword hw rfl), hplain hc.isPlain rfl hl.isPlain⟩
  | @oneOf ts vs w c ls hc hw hls =>
    have hspelled := ColumnName.isSpelled_of_isColumn hc (hus.subset (List.subset_append_left _ _))
    have hlist := hls.readsAs (hus.subset fun t ht => by simp [ht])
    have hclose : ReadsAs [')'] [.symbol [')']] :=
      ⟨fun rest _ => tokenize_solo rest (by decide), by decide, by decide⟩
    have hfront :
        (c.spelling ++ " IN (".toList ++ [',', ' '].intercalate ls).getLast? ≠ some '\r' := by
      have hlast := hlist.last
      have hopen : " IN (".toList.getLast? = some '(' := by decide
      rw [List.getLast?_append, List.getLast?_append, hopen]
      cases hm : ([',', ' '].intercalate ls).getLast? with
      | none => simp
      | some d => simpa [hm] using hlast
    have hreads := hclose.behind hfront (by simp [hspelled.readsAs.newline, hlist.newline])
      (Grammar.hasTokens_oneOf hspelled.readsAs.tokenize hlist.tokenize)
    refine ⟨_, ⟨hreads, (Grammar.IsPredicate.oneOf hc (by decide) hls).read?⟩,
      hsimilar _ (Token.similar_keyword hw rfl), hplain hc.isPlain rfl
        (List.forall_mem_cons.2 ⟨rfl, fun t ht => ?_⟩)⟩
    rcases List.mem_append.1 ht with ht | ht
    · exact hls.isPlain t ht
    · rw [List.mem_singleton.1 ht]
      rfl

end Predicate

/-! ## Clauses -/

namespace Clause

theorem tokenize_render {c : Clause} {us : List Token} (h : c.predicate.IsWritten us)
    {indent : List Char} (hindent : ∀ d ∈ indent, isBlank d = true) :
    tokenize (indent ++ c.render) = some (c.tokens us) :=
  tokenize_indent_render h.readsAs.tokenize hindent

/-- A clause with a predicate that is read back is read back, with any indentation. -/
theorem read?_render {c : Clause} {us : List Token} (h : c.predicate.IsWritten us)
    {indent : List Char} (hindent : ∀ d ∈ indent, isBlank d = true) :
    read? (indent ++ c.render) = some c :=
  read?_indent_render h.readsAs.tokenize hindent h.read?

/-- The tokens of a literal filter are those that it would be written with, but for keywords. -/
theorem exists_of_read? {line : List Char} {c : Clause} {column : ColumnName}
    (hline : '\n' ∉ line) (h : read? line = some c)
    (hcolumn : c.predicate.literalColumn? = some column) :
    (∃ ts us, tokenize line = some ts ∧ List.Forall₂ Token.Similar ts (c.tokens us) ∧
      c.predicate.IsWritten us ∧ ∀ t ∈ us, t.isPlain = true) ∧ ∃ us, column.IsSpelled us := by
  obtain ⟨ts, htokens, hclause⟩ := Option.bind_eq_some_iff.1 h
  have hts := inLine_of_tokenize hline htokens
  have hkeyword : ∀ {t k}, Grammar.IsConnective t k → t.Similar (.word k.keyword.toList) := by
    rintro t k (hw | hw)
    · exact Token.similar_keyword hw rfl
    · exact Token.similar_keyword hw rfl
  have hspelled : ∃ us, column.IsSpelled us := by
    obtain ⟨us, hus, hp⟩ := (Grammar.ofTokens?_iff.1 hclause).exists_predicate
    obtain ⟨vs, hvs, hc⟩ := hp.exists_column hcolumn
    exact ⟨vs, ColumnName.isSpelled_of_isColumn hc ((hts.subset hus).subset hvs)⟩
  refine ⟨?_, hspelled⟩
  cases Grammar.ofTokens?_iff.1 hclause with
  | bare ht hp =>
    obtain ⟨vs, hvs⟩ := Predicate.isReread_of_isPredicate hp
      (hts.subset (List.subset_cons_self _ _)) hcolumn
    exact ⟨_, vs, htokens, .cons (hkeyword ht) hvs.similar, hvs.isWritten, hvs.plain⟩
  | optional ht hp =>
    obtain ⟨vs, hvs⟩ := Predicate.isReread_of_isPredicate hp
      (hts.subset fun t ht => by simp [ht]) hcolumn
    exact ⟨_, vs, htokens, .cons (.inl rfl) (.cons (hkeyword ht)
      (List.rel_append hvs.similar (Token.similar_refl _))), hvs.isWritten, hvs.plain⟩

end Clause

end EventReport
