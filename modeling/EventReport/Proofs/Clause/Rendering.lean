/-
# A clause that is written is read back

A clause is written in one way, and the line it was read from may have been another:
keywords in small letters, blanks elsewhere, a list without any.  What the two lines have
in common is what the grammar keeps, the column, the literals and the name.

## What is proved

`Grammar.IsPredicate.exists_hasTokens`: a predicate that is derived from lexemes is derived
from the tokens of its rendering too.  There is one case for each rule, and none of them
asks how the line was read.

`Clause.read?_render_of_read?`: so every clause that a line is read as is read back from
its rendering, with any indentation, and also when a variable takes the place of its
literals.  One thing is asked of the name of a placeholder, that it does not end with a
closing brace: `{{a} }}` has the name `a}`, and what is written from it, `{{a}}}`, has the
name `a` and a brace too many.
-/
import EventReport.Proofs.Clause.Grammar
import EventReport.Proofs.Clause.Lexeme

namespace EventReport

open Text

/-- Blanks in front of a line hold no token. -/
theorem tokenize_blanks {indent : List Char} (h : ∀ c ∈ indent, isBlank c = true)
    (cs : List Char) : tokenize (indent ++ cs) = tokenize cs := by
  induction indent with
  | nil => rfl
  | cons c indent ih =>
    rw [List.cons_append, tokenize_blank _ (h c List.mem_cons_self)]
    exact ih fun d hd => h d (List.mem_cons_of_mem c hd)

/-- A keyword or an operator between two blanks. -/
theorem HasTokens.operator (text : String) {spaced : String} {t : Token} {x : List Char}
    {vs : List Token} (hspaced : spaced.toList = ' ' :: (text.toList ++ [' ']))
    (htext : tokenize text.toList = some [t]) (hx : HasTokens x vs) : HasTokens (spaced.toList ++ x) (t :: vs) := by
  have hchars : spaced.toList ++ x = ' ' :: (text.toList ++ ' ' :: x) := by simp [hspaced]
  rw [hchars]
  exact (HasTokens.separated htext (by decide) hx).solo (by decide)

theorem hasTokens_identifier {name : List Char} (h : isIdentifierChars name = true) :
    HasTokens (Placeholder.write name) [.placeholder name] :=
  fun rest _ => tokenize_placeholder h rest

namespace Grammar

theorem IsColumn.hasTokens {ts : List Token} {c : ColumnName} (h : IsColumn ts c)
    (hts : ∀ t ∈ ts, ∃ s, t.Lexeme s) : HasTokens c.spelling ts := by
  induction h with
  | word w =>
    obtain ⟨s, hs⟩ := hts _ List.mem_cons_self
    obtain rfl := hs.eq_of_spelling? rfl
    exact hs.hasTokens (by simp)
  | @part w ts c _ ih =>
    obtain ⟨s, hs⟩ := hts _ List.mem_cons_self
    obtain rfl := hs.eq_of_spelling? rfl
    intro rest hrest
    have hpoint : ∀ d ∈ ('.' :: (c.spelling ++ rest)).head?, (Token.word s).goesOn d = false := by
      intro d hd
      obtain rfl : '.' = d := by simpa using hd
      show Token.isWordChar '.' = false
      decide
    have ih := ih (fun t ht => hts t (by simp [ht])) rest hrest
    rw [List.append_assoc, List.cons_append, hs.tokenize (by simp) hpoint, tokenize_point, ih]
    simp [Function.comp_def]

theorem IsLiteral.hasTokens {ts : List Token} {l : List Char} (h : IsLiteral ts l)
    (hts : ∀ t ∈ ts, ∃ s, t.Lexeme s) : HasTokens l ts := by
  have hone : ∀ {t : Token} {x : List Char}, t ∈ ts → t.spelling? = some x → HasTokens x [t] := by
    intro t x ht hx
    obtain ⟨s, hs⟩ := hts t ht
    obtain rfl := hs.eq_of_spelling? hx
    refine hs.hasTokens ?_
    rintro y rfl
    cases hx
  cases h with
  | quoted | number | truth => exact hone List.mem_cons_self rfl
  | negative n =>
    have hn := hone (t := .number n) (by simp) rfl
    obtain ⟨s, hs⟩ := hts (.number n) (by simp)
    obtain ⟨c, cs, rfl, hdigit⟩ := hs.exists_digit
    intro rest hrest
    rw [List.cons_append, List.cons_append, tokenize_minus _ hdigit, ← List.cons_append,
      hn rest hrest]
    simp [Function.comp_def]

theorem IsList.hasTokens {ts : List Token} {ls : List (List Char)} (h : IsList ts ls)
    (hts : ∀ t ∈ ts, ∃ s, t.Lexeme s) : HasTokens ([',', ' '].intercalate ls) ts := by
  induction h with
  | one hl =>
    rw [List.intercalate_singleton]
    exact hl.hasTokens hts
  | @more ts us l ls hl hls ih =>
    have hne : ls ≠ [] := by cases hls <;> simp
    have hchars : [',', ' '].intercalate (l :: ls) =
        l ++ ',' :: ' ' :: [',', ' '].intercalate ls := by
      rw [List.intercalate_cons_of_ne_nil hne]
      simp
    rw [hchars]
    have hrest := (ih fun t ht => hts t (by simp [ht])).solo (c := ' ') (by decide)
    exact (hl.hasTokens fun t ht => hts t (by simp [ht])).append (hrest.solo (c := ',') (by decide))
      fun _ => ends_cons (by decide) (by decide) _

section Column

variable {ts vs : List Token} {c : ColumnName} {x : List Char}

/-- A comparison of a column. -/
theorem hasTokens_comparison (hc : HasTokens c.spelling ts) (text : String) {spaced : String}
    {t : Token} (hspaced : spaced.toList = ' ' :: (text.toList ++ [' ']))
    (htext : tokenize text.toList = some [t]) (hx : HasTokens x vs) : HasTokens (c.spelling ++ spaced.toList ++ x) (ts ++ t :: vs) := by
  rw [List.append_assoc]
  refine hc.append (hx.operator text hspaced htext) fun rest => ?_
  rw [hspaced]
  exact ends_cons (by decide) (by decide) _

theorem hasTokens_equals (hc : HasTokens c.spelling ts) (hx : HasTokens x vs) :
    HasTokens (c.spelling ++ " = ".toList ++ x) (ts ++ .symbol ['='] :: vs) :=
  hasTokens_comparison hc "=" (by decide) (tokenize_of_within (by decide)) hx

theorem hasTokens_like (hc : HasTokens c.spelling ts) (hx : HasTokens x vs) :
    HasTokens (c.spelling ++ " LIKE ".toList ++ x) (ts ++ .word "LIKE".toList :: vs) :=
  hasTokens_comparison hc "LIKE" (by decide) (tokenize_of_within (by decide)) hx

theorem hasTokens_oneOf (hc : HasTokens c.spelling ts) (hx : HasTokens x vs) :
    HasTokens (c.spelling ++ " IN (".toList ++ x ++ [')'])
      (ts ++ .word "IN".toList :: .symbol ['('] :: (vs ++ [.symbol [')']])) := by
  have hchars : c.spelling ++ " IN (".toList ++ x ++ [')'] =
      c.spelling ++ " IN ".toList ++ '(' :: (x ++ [')']) := by
    have hopen : " IN (".toList = " IN ".toList ++ ['('] := by decide
    rw [hopen]
    simp
  have hclose : HasTokens [')'] [.symbol [')']] := fun rest _ => tokenize_solo rest (by decide)
  have hparens : HasTokens ('(' :: (x ++ [')'])) (.symbol ['('] :: (vs ++ [.symbol [')']])) :=
    (hx.append hclose fun _ => ends_cons (by decide) (by decide) _).solo (by decide)
  rw [hchars]
  exact hasTokens_comparison hc "IN" (by decide) (tokenize_of_within (by decide)) hparens

theorem hasTokens_dateEquals (hc : HasTokens c.spelling ts) (hx : HasTokens x vs) :
    HasTokens ("DATE(".toList ++ c.spelling ++ ") = ".toList ++ x)
      (.word "DATE".toList :: .symbol ['('] :: (ts ++ .symbol [')'] :: .symbol ['='] :: vs)) := by
  have hchars : "DATE(".toList ++ c.spelling ++ ") = ".toList ++ x =
      "DATE".toList ++ '(' :: (c.spelling ++ ')' :: (" = ".toList ++ x)) := by
    have hopen : "DATE(".toList = "DATE".toList ++ ['('] := by decide
    have hclose : ") = ".toList = ')' :: " = ".toList := by decide
    rw [hopen, hclose]
    simp
  have hdate : tokenize "DATE".toList = some [.word "DATE".toList] := tokenize_of_within (by decide)
  have hequals : HasTokens (" = ".toList ++ x) (.symbol ['='] :: vs) :=
    hx.operator "=" (by decide) (tokenize_of_within (by decide))
  rw [hchars]
  exact HasTokens.separated hdate (by decide) <|
    hc.append (hequals.solo (c := ')') (by decide)) fun _ => ends_cons (by decide) (by decide) _

/-- The predicates that a variable gives a column are read back by their rules. -/
theorem exists_hasTokens_variable (hc : IsColumn ts c) (htokens : HasTokens c.spelling ts)
    {name : List Char} (hname : HasTokens (Placeholder.write name) [.placeholder name]) :
    ∀ p ∈ [Predicate.placeholder name, .equalsPlaceholder c name, .dateEqualsPlaceholder c name],
      ∃ us, IsPredicate us p ∧ HasTokens p.render us := by
  simp only [List.forall_mem_cons, List.not_mem_nil, false_implies, implies_true, and_true]
  exact ⟨⟨_, .placeholder name, hname⟩,
    ⟨_, .equalsPlaceholder name hc, hasTokens_equals htokens hname⟩,
    ⟨_, .dateEqualsPlaceholder name (by decide) hc, hasTokens_dateEquals htokens hname⟩⟩

end Column

/-- A predicate of lexemes is derived from the tokens of its rendering. -/
theorem IsPredicate.exists_hasTokens {us : List Token} {p : Predicate} (h : IsPredicate us p)
    (hus : ∀ t ∈ us, ∃ s, t.Lexeme s)
    (hlast : ∀ name, p.placeholder? = some name → name.getLast? ≠ some '\x7d') :
    ∃ vs, IsPredicate vs p ∧ HasTokens p.render vs := by
  have hwrite : ∀ {name : List Char}, .placeholder name ∈ us → p.placeholder? = some name →
      HasTokens (Placeholder.write name) [.placeholder name] := by
    intro name hmem hname
    obtain ⟨s, hs⟩ := hus _ hmem
    exact (hs.write (hlast name hname)).hasTokens (by simp)
  cases h with
  | placeholder name => exact ⟨_, .placeholder name, hwrite (by simp) rfl⟩
  | equalsPlaceholder name hc =>
    have htokens := hc.hasTokens fun t ht => hus t (by simp [ht])
    exact exists_hasTokens_variable hc htokens (hwrite (by simp) rfl) _ (by simp)
  | dateEqualsPlaceholder name hw hc =>
    have htokens := hc.hasTokens fun t ht => hus t (by simp [ht])
    exact exists_hasTokens_variable hc htokens (hwrite (by simp) rfl) _ (by simp)
  | equals hc hl =>
    have htokens := hc.hasTokens fun t ht => hus t (by simp [ht])
    exact ⟨_, .equals hc hl,
      hasTokens_equals htokens (hl.hasTokens fun t ht => hus t (by simp [ht]))⟩
  | like hc hw hl =>
    have htokens := hc.hasTokens fun t ht => hus t (by simp [ht])
    exact ⟨_, .like hc (by decide) hl,
      hasTokens_like htokens (hl.hasTokens fun t ht => hus t (by simp [ht]))⟩
  | oneOf hc hw hls =>
    have htokens := hc.hasTokens fun t ht => hus t (by simp [ht])
    exact ⟨_, .oneOf hc (by decide) hls,
      hasTokens_oneOf htokens (hls.hasTokens fun t ht => hus t (by simp [ht]))⟩

end Grammar

namespace Clause

/-- The tokens of a clause that is written with a predicate of the given tokens. -/
def tokens (c : Clause) (us : List Token) : List Token :=
  if c.optional then
    .openOptional :: .word c.connective.keyword.toList :: (us ++ [.closeOptional])
  else .word c.connective.keyword.toList :: us

section Render

variable {c : Clause} {us : List Token} (htokens : HasTokens c.predicate.render us)
  {indent : List Char} (hindent : ∀ d ∈ indent, isBlank d = true)

include htokens hindent

theorem tokenize_indent_render : tokenize (indent ++ c.render) = some (c.tokens us) := by
  obtain ⟨k, optional, p⟩ := c
  have hkeyword : tokenize k.keyword.toList = some [.word k.keyword.toList] := by
    cases k <;> exact tokenize_identifier (by decide)
  have hbare : HasTokens (k.keyword.toList ++ ' ' :: p.render) (.word k.keyword.toList :: us) :=
    HasTokens.separated hkeyword (by decide) htokens
  rw [tokenize_blanks hindent]
  cases optional with
  | false =>
    have hrender : render ⟨k, false, p⟩ = k.keyword.toList ++ ' ' :: p.render := by
      simp [render]
    rw [hrender, hbare.tokenize_eq]
    rfl
  | true =>
    have hrender : render ⟨k, true, p⟩ =
        ['[', '['] ++ (k.keyword.toList ++ ' ' :: p.render ++ [']', ']']) := by
      simp [render]
    have hclose : HasTokens [']', ']'] [.closeOptional] :=
      Token.Lexeme.closeOptional.hasTokens (by simp)
    have hinside := (hbare.append hclose fun _ => ends_cons (by decide) (by decide) _).tokenize_eq
    rw [hrender, Token.Lexeme.openOptional.tokenize (by simp) fun _ _ => rfl, hinside]
    rfl

/-- A clause is read back if its predicate is, whatever comes after that. -/
theorem read?_indent_render
    (hread : ∀ rest, Predicate.read? (us ++ rest) = some (c.predicate, rest)) :
    read? (indent ++ c.render) = some c := by
  rw [read?, tokenize_indent_render htokens hindent]
  obtain ⟨k, optional, p⟩ := c
  have hconnective : ∀ us, Connective.read? (.word k.keyword.toList :: us) = some (k, us) := by
    intro us
    cases k <;> rfl
  cases optional with
  | false =>
    have hpredicate := hread []
    rw [List.append_nil] at hpredicate
    simp [tokens, ofTokens?, hconnective, hpredicate]
  | true => simp [tokens, ofTokens?, hconnective, hread]

end Render

end Clause

/-- A clause that a line is read as is read from its rendering, with any indentation; and so is a
clause of literals in which a variable has taken their place. -/
theorem Clause.read?_render_of_read? {line : List Char} {c : Clause} (h : Clause.read? line = some c)
    (hlast : ∀ name, c.predicate.placeholder? = some name → name.getLast? ≠ some '\x7d')
    {indent : List Char} (hindent : ∀ d ∈ indent, isBlank d = true) :
    Clause.read? (indent ++ c.render) = some c ∧
      ∀ column name, c.predicate.literalColumn? = some column → isIdentifierChars name = true →
        ∀ p ∈ [Predicate.placeholder name, .equalsPlaceholder column name,
            .dateEqualsPlaceholder column name],
          Clause.read? (indent ++ Clause.render { c with predicate := p }) =
            some { c with predicate := p } := by
  obtain ⟨ts, hts, hclause⟩ := Option.bind_eq_some_iff.1 h
  have hlexeme : ∀ t ∈ ts, ∃ s, t.Lexeme s := fun t ht =>
    (Token.exists_lexeme_of_mem hts ht).imp fun _ hs => hs.2
  -- the brackets and the connective do not matter from here on
  obtain ⟨us, hus, hp⟩ := (Grammar.ofTokens?_iff.1 hclause).exists_predicate
  obtain ⟨vs, hvs, htokens⟩ := hp.exists_hasTokens (fun t ht => hlexeme t (hus ht)) hlast
  refine ⟨Clause.read?_indent_render htokens hindent hvs.read?,
    fun column name hcolumn hname p hmem => ?_⟩
  obtain ⟨ws, hws, hc⟩ := hp.exists_column hcolumn
  obtain ⟨xs, hxs, hvariable⟩ := Grammar.exists_hasTokens_variable hc
    (hc.hasTokens fun t ht => hlexeme t (hus (hws ht))) (hasTokens_identifier hname) p hmem
  exact Clause.read?_indent_render hvariable hindent hxs.read?

theorem Clause.read?_render_of_read?_list :
    Clause.read? ([' ', ' '] ++ Clause.render ⟨.and_, true, .oneOf ⟨"t.x".toList⟩
        ["'a'".toList, "-1".toList]⟩) =
      some ⟨.and_, true, .oneOf ⟨"t.x".toList⟩ ["'a'".toList, "-1".toList]⟩ ∧
    Clause.read? ([' ', ' '] ++ Clause.render ⟨.and_, true, .dateEqualsPlaceholder ⟨"t.x".toList⟩
        "day".toList⟩) =
      some ⟨.and_, true, .dateEqualsPlaceholder ⟨"t.x".toList⟩ "day".toList⟩ := by
  have htokens : tokenize "[[and t.x in('a',-1)]]".toList = some [.openOptional,
      .word "and".toList, .word ['t'], .symbol ['.'], .word ['x'], .word "in".toList, .symbol ['('],
      .quoted "'a'".toList, .symbol [','], .symbol ['-'], .number ['1'], .symbol [')'],
      .closeOptional] := tokenize_of_within (by decide)
  have hread : Clause.read? "[[and t.x in('a',-1)]]".toList =
      some ⟨.and_, true, .oneOf ⟨"t.x".toList⟩ ["'a'".toList, "-1".toList]⟩ := by
    rw [Clause.read?, htokens]
    exact Grammar.ofTokens?_iff.2 (.optional (.and_ (by decide)) (.oneOf (.part ['t'] (.word ['x']))
      (by decide) (.more (.quoted _) (.one (.negative _)))))
  have hindent : ∀ d ∈ [' ', ' '], isBlank d = true := List.all_eq_true.1 (by decide)
  obtain ⟨hliteral, hvariable⟩ :=
    Clause.read?_render_of_read? hread (by simp [Predicate.placeholder?]) hindent
  have hname : isIdentifierChars "day".toList = true := by decide
  exact ⟨hliteral, hvariable ⟨"t.x".toList⟩ "day".toList rfl hname
    (.dateEqualsPlaceholder ⟨"t.x".toList⟩ "day".toList) (by simp)⟩

end EventReport
