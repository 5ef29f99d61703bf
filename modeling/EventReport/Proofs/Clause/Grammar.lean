/-
# The grammar of clauses

What a clause is can be said without a reader, by what its tokens are:

    clause    ::=  '[[' connective predicate ']]'  |  connective predicate
    connective::=  WHERE | AND
    predicate ::=  placeholder
                |  column '=' placeholder
                |  DATE '(' column ')' '=' placeholder
                |  column '=' literal
                |  column LIKE literal
                |  column IN '(' literal (',' literal)* ')'
    column    ::=  word ('.' word)*
    literal   ::=  string | number | '-' number | TRUE | FALSE

Keywords are words in any case of their ASCII letters, and a keyword may be a column.

## What is proved

`Clause.read?_iff_isClause`: the reader, which goes through the tokens once and never back,
accepts what the grammar derives and nothing else, with the clause that is derived; and no
tokens derive two clauses.  For each rule there are two lemmas: what is read is derived, and
what is derived is read, whatever comes after it.  A column and a list are read as far
as they go, so for these what comes after must not go on with them.

`IsPredicate.read?_after_connective` says why a clause holds one predicate only: in a
predicate no other one comes after a word that is a connective.
-/
import EventReport.Clause.Reader
import EventReport.Proofs.Clause.Boundary
import Mathlib.Tactic.Common

namespace EventReport

open Token (isKeyword)

namespace Grammar

inductive IsLiteral : List Token → List Char → Prop
  | quoted (s : List Char) : IsLiteral [.quoted s] s
  | number (n : List Char) : IsLiteral [.number n] n
  | negative (n : List Char) : IsLiteral [.symbol ['-'], .number n] ('-' :: n)
  | truth {w : List Char} :
      isKeyword "TRUE" w = true ∨ isKeyword "FALSE" w = true → IsLiteral [.word w] w

inductive IsList : List Token → List (List Char) → Prop
  | one {ts : List Token} {l : List Char} : IsLiteral ts l → IsList ts [l]
  | more {ts us : List Token} {l : List Char} {ls : List (List Char)} :
      IsLiteral ts l → IsList us ls → IsList (ts ++ .symbol [','] :: us) (l :: ls)

inductive IsColumn : List Token → ColumnName → Prop
  | word (w : List Char) : IsColumn [.word w] ⟨w⟩
  | part (w : List Char) {ts : List Token} {c : ColumnName} :
      IsColumn ts c → IsColumn (.word w :: .symbol ['.'] :: ts) ⟨w ++ '.' :: c.spelling⟩

inductive IsPredicate : List Token → Predicate → Prop
  | placeholder (name : List Char) : IsPredicate [.placeholder name] (.placeholder name)
  | equalsPlaceholder {ts : List Token} {c : ColumnName} (name : List Char) :
      IsColumn ts c →
      IsPredicate (ts ++ [.symbol ['='], .placeholder name]) (.equalsPlaceholder c name)
  | dateEqualsPlaceholder {w : List Char} {ts : List Token} {c : ColumnName} (name : List Char) :
      isKeyword "DATE" w = true → IsColumn ts c →
      IsPredicate
        (.word w :: .symbol ['('] :: (ts ++ [.symbol [')'], .symbol ['='], .placeholder name]))
        (.dateEqualsPlaceholder c name)
  | equals {ts us : List Token} {c : ColumnName} {l : List Char} :
      IsColumn ts c → IsLiteral us l → IsPredicate (ts ++ .symbol ['='] :: us) (.equals c l)
  | like {ts us : List Token} {w : List Char} {c : ColumnName} {l : List Char} :
      IsColumn ts c → isKeyword "LIKE" w = true → IsLiteral us l →
      IsPredicate (ts ++ .word w :: us) (.like c l)
  | oneOf {ts us : List Token} {w : List Char} {c : ColumnName} {ls : List (List Char)} :
      IsColumn ts c → isKeyword "IN" w = true → IsList us ls →
      IsPredicate (ts ++ .word w :: .symbol ['('] :: (us ++ [.symbol [')']])) (.oneOf c ls)

inductive IsConnective : Token → Connective → Prop
  | where_ {w : List Char} : isKeyword "WHERE" w = true → IsConnective (.word w) .where_
  | and_ {w : List Char} : isKeyword "AND" w = true → IsConnective (.word w) .and_

inductive IsClause : List Token → Clause → Prop
  | bare {t : Token} {ts : List Token} {k : Connective} {p : Predicate} :
      IsConnective t k → IsPredicate ts p → IsClause (t :: ts) ⟨k, false, p⟩
  | optional {t : Token} {ts : List Token} {k : Connective}
      {p : Predicate} :
      IsConnective t k → IsPredicate ts p →
      IsClause (.openOptional :: t :: (ts ++ [.closeOptional])) ⟨k, true, p⟩

/-! ## Keywords -/

/-- A word is one keyword at most. -/
theorem isKeyword_unique {w : List Char} {s t : String} (hs : isKeyword s w = true)
    (ht : isKeyword t w = true) : s.toList.map Char.toLower = t.toList.map Char.toLower := by
  rw [isKeyword, Text.sameCaseless, beq_iff_eq] at hs ht
  rw [← hs, ht]

theorem isKeyword_eq_false {w : List Char} {s t : String} (hs : isKeyword s w = true)
    (hne : s.toList.map Char.toLower ≠ t.toList.map Char.toLower) : isKeyword t w = false := by
  rw [← Bool.not_eq_true]
  exact fun ht => hne (isKeyword_unique hs ht)

/-! ## Literals -/

theorem IsLiteral.read? {us : List Token} {l : List Char} (h : IsLiteral us l) (rest : List Token) :
    Predicate.literal? (us ++ rest) = some (l, rest) := by
  cases h with
  | quoted | number | negative => rfl
  | truth hw =>
    rw [← Bool.or_eq_true] at hw
    exact if_pos hw

theorem exists_literal {ts rest : List Token} {l : List Char}
    (h : Predicate.literal? ts = some (l, rest)) : ∃ us, ts = us ++ rest ∧ IsLiteral us l := by
  unfold Predicate.literal? at h
  split at h
  · obtain ⟨rfl, rfl⟩ := by simpa using h
    exact ⟨_, rfl, .quoted _⟩
  · obtain ⟨rfl, rfl⟩ := by simpa using h
    exact ⟨_, rfl, .number _⟩
  · split at h
    · next hw =>
      obtain ⟨rfl, rfl⟩ := by simpa using h
      exact ⟨_, rfl, .truth (by simpa using hw)⟩
    · cases h
  · obtain ⟨rfl, rfl⟩ := by simpa using h
    exact ⟨[.symbol ['-'], .number _], rfl, .negative _⟩
  · cases h

/-- A list of literals goes on after a comma, and only there. -/
theorem moreLiterals?_of_head {rest : List Token} (h : rest.head? ≠ some (.symbol [','])) :
    Predicate.moreLiterals? rest = some ([], rest) := by
  unfold Predicate.moreLiterals?
  split
  · exact absurd rfl h
  · rfl

theorem moreLiterals?_comma (ts : List Token) :
    Predicate.moreLiterals? (.symbol [','] :: ts) = Predicate.literals? ts := by
  rw [Predicate.moreLiterals?, Predicate.literals?]
  split
  · next hnone =>
    rw [hnone]
    rfl
  · next l rest hsome =>
    rw [hsome]
    show _ = (Predicate.moreLiterals? rest).bind _
    cases Predicate.moreLiterals? rest <;> rfl

theorem IsList.read? {us : List Token} {ls : List (List Char)} (h : IsList us ls)
    {rest : List Token} (hrest : rest.head? ≠ some (.symbol [','])) :
    Predicate.literals? (us ++ rest) = some (ls, rest) := by
  induction h with
  | one hl => simp [Predicate.literals?, hl.read?, moreLiterals?_of_head hrest]
  | @more ts us l ls hl _ ih =>
    rw [List.append_assoc, List.cons_append, Predicate.literals?, hl.read?]
    simp [moreLiterals?_comma, ih]

/-- What is read after a first literal makes a list with it. -/
theorem exists_moreLiterals {ts rest : List Token} {ls : List (List Char)}
    (h : Predicate.moreLiterals? ts = some (ls, rest)) {us : List Token} {l : List Char}
    (hl : IsLiteral us l) : ∃ vs, ts = vs ++ rest ∧ IsList (us ++ vs) (l :: ls) := by
  fun_induction Predicate.moreLiterals? ts generalizing ls us l with
  | case1 => cases h
  | case2 ts m after hm ih =>
    obtain ⟨⟨ms, r⟩, hms, heq⟩ := Option.map_eq_some_iff.1 h
    obtain ⟨rfl, rfl⟩ := by simpa using heq
    obtain ⟨vs, rfl, hvs⟩ := exists_literal hm
    obtain ⟨xs, rfl, hxs⟩ := ih hms hvs
    exact ⟨.symbol [','] :: (vs ++ xs), by simp, .more hl hxs⟩
  | case3 =>
    obtain ⟨rfl, rfl⟩ := by simpa using h
    exact ⟨[], rfl, by simpa using IsList.one hl⟩

theorem exists_literals {ts rest : List Token} {ls : List (List Char)}
    (h : Predicate.literals? ts = some (ls, rest)) : ∃ us, ts = us ++ rest ∧ IsList us ls := by
  obtain ⟨⟨l, after⟩, hl, h⟩ := Option.bind_eq_some_iff.1 h
  obtain ⟨⟨ms, r⟩, hms, heq⟩ := Option.bind_eq_some_iff.1 h
  obtain ⟨rfl, rfl⟩ := by simpa using heq
  obtain ⟨us, rfl, hus⟩ := exists_literal hl
  obtain ⟨vs, rfl, hvs⟩ := exists_moreLiterals hms hus
  exact ⟨us ++ vs, by simp, hvs⟩

/-! ## Columns -/

/-- A column goes on after a point, and only there. -/
theorem parts?_of_head {rest : List Token} (h : rest.head? ≠ some (.symbol ['.'])) :
    ColumnName.parts? rest = some ([], rest) := by
  unfold ColumnName.parts?
  split
  · exact absurd rfl h
  · exact absurd rfl h
  · rfl

theorem parts?_point (ts : List Token) :
    ColumnName.parts? (.symbol ['.'] :: ts) =
      (ColumnName.read? ts).map fun (c, rest) => ('.' :: c.spelling, rest) := by
  cases ts with
  | nil => rfl
  | cons t ts =>
    cases t with
    | word w =>
      rw [ColumnName.parts?, ColumnName.read?, Option.map_map]
      rfl
    | _ => rfl

theorem IsColumn.read? {us : List Token} {c : ColumnName} (h : IsColumn us c) {rest : List Token}
    (hrest : rest.head? ≠ some (.symbol ['.'])) :
    ColumnName.read? (us ++ rest) = some (c, rest) := by
  induction h with
  | word w => simp [ColumnName.read?, parts?_of_head hrest]
  | part w _ ih =>
    show (ColumnName.parts? (.symbol ['.'] :: (_ ++ rest))).map _ = _
    rw [parts?_point, ih]
    rfl

theorem exists_parts {ts rest : List Token} {spelling : List Char}
    (h : ColumnName.parts? ts = some (spelling, rest)) (w : List Char) :
    ∃ vs, ts = vs ++ rest ∧ IsColumn (.word w :: vs) ⟨w ++ spelling⟩ := by
  fun_induction ColumnName.parts? ts generalizing spelling w with
  | case1 v ts ih =>
    obtain ⟨⟨s, r⟩, hs, heq⟩ := Option.map_eq_some_iff.1 h
    obtain ⟨rfl, rfl⟩ := by simpa using heq
    obtain ⟨vs, rfl, hvs⟩ := ih hs v
    exact ⟨.symbol ['.'] :: .word v :: vs, rfl, .part w hvs⟩
  | case2 => cases h
  | case3 =>
    obtain ⟨rfl, rfl⟩ := by simpa using h
    exact ⟨[], rfl, by simpa using IsColumn.word w⟩

theorem exists_column {ts rest : List Token} {c : ColumnName}
    (h : ColumnName.read? ts = some (c, rest)) : ∃ us, ts = us ++ rest ∧ IsColumn us c := by
  unfold ColumnName.read? at h
  split at h
  · next w ts =>
    obtain ⟨⟨s, r⟩, hs, heq⟩ := Option.map_eq_some_iff.1 h
    obtain ⟨rfl, rfl⟩ := by simpa using heq
    obtain ⟨vs, rfl, hvs⟩ := exists_parts hs w
    exact ⟨.word w :: vs, rfl, hvs⟩
  · cases h

/-- A column is a word, and a point or nothing comes after it. -/
theorem IsColumn.exists_cons {us : List Token} {c : ColumnName} (h : IsColumn us c) :
    ∃ w vs, us = .word w :: vs ∧ ∀ t ∈ vs.head?, t = .symbol ['.'] := by
  cases h with
  | word w => exact ⟨w, [], rfl, by simp⟩
  | part w _ => exact ⟨w, _, rfl, by simp⟩

/-! ## Predicates -/

/-- A predicate that begins with a column is read as a comparison of it. -/
theorem IsColumn.read?_predicate {us : List Token} {c : ColumnName} (h : IsColumn us c)
    {rest : List Token} (hpoint : rest.head? ≠ some (.symbol ['.']))
    (hparen : rest.head? ≠ some (.symbol ['('])) :
    Predicate.read? (us ++ rest) = Predicate.comparison? c rest := by
  have hread := h.read? hpoint
  obtain ⟨w, vs, rfl, hvs⟩ := h.exists_cons
  have hhead : (vs ++ rest).head? ≠ some (.symbol ['(']) := by
    cases vs with
    | nil => exact hparen
    | cons v vs =>
      rw [hvs v rfl]
      simp
  rw [List.cons_append] at hread ⊢
  generalize vs ++ rest = ts at hread hhead
  unfold Predicate.read?
  split
  · next heq => cases heq
  · next heq =>
    obtain ⟨-, rfl⟩ := List.cons.inj heq
    exact absurd rfl hhead
  · rw [hread]
    rfl

theorem IsPredicate.read? {us : List Token} {p : Predicate} (h : IsPredicate us p)
    (rest : List Token) : Predicate.read? (us ++ rest) = some (p, rest) := by
  cases h with
  | placeholder => rfl
  | equalsPlaceholder name hc =>
    rw [List.append_assoc, List.cons_append, hc.read?_predicate (by simp) (by simp)]
    rfl
  | dateEqualsPlaceholder name hw hc =>
    simp only [List.cons_append, List.append_assoc, List.nil_append]
    rw [Predicate.read?, if_pos hw, Predicate.dateComparison?, hc.read? (by simp)]
    rfl
  | @equals ts us c l hc hl =>
    rw [List.append_assoc, List.cons_append, hc.read?_predicate (by simp) (by simp)]
    cases hl with
    | quoted | number | negative => rfl
    | truth hw =>
      have hread := (IsLiteral.truth hw).read? rest
      rw [List.cons_append, List.nil_append] at hread ⊢
      simp [Predicate.comparison?, hread]
  | @like ts us w c l hc hw hl =>
    have hlike : Predicate.comparison? c (.word w :: (us ++ rest)) =
        (Predicate.literal? (us ++ rest)).map fun r => (.like c r.1, r.2) := if_pos hw
    rw [List.append_assoc, List.cons_append, hc.read?_predicate (by simp) (by simp), hlike,
      hl.read?]
    rfl
  | @oneOf ts us w c ls hc hw hls =>
    have hlike : isKeyword "LIKE" w = false := isKeyword_eq_false hw (by decide)
    have hread : Predicate.literals? (us ++ .symbol [')'] :: rest) =
        some (ls, .symbol [')'] :: rest) := hls.read? (by simp)
    simp only [List.append_assoc, List.cons_append, List.nil_append]
    rw [hc.read?_predicate (by simp) (by simp), Predicate.comparison?, if_neg (by simp [hlike]),
      if_pos hw]
    simp only [hread]

theorem exists_comparison {ts rest us : List Token} {c : ColumnName} {p : Predicate}
    (h : Predicate.comparison? c ts = some (p, rest)) (hc : IsColumn us c) :
    ∃ vs, ts = vs ++ rest ∧ IsPredicate (us ++ vs) p := by
  unfold Predicate.comparison? at h
  split at h
  · next name rest' =>
    obtain ⟨rfl, rfl⟩ := by simpa using h
    exact ⟨[.symbol ['='], .placeholder name], rfl, .equalsPlaceholder name hc⟩
  · obtain ⟨⟨l, r⟩, hl, heq⟩ := Option.map_eq_some_iff.1 h
    obtain ⟨rfl, rfl⟩ := by simpa using heq
    obtain ⟨vs, rfl, hvs⟩ := exists_literal hl
    exact ⟨.symbol ['='] :: vs, rfl, .equals hc hvs⟩
  · next w ts =>
    split at h
    · next hw =>
      obtain ⟨⟨l, r⟩, hl, heq⟩ := Option.map_eq_some_iff.1 h
      obtain ⟨rfl, rfl⟩ := by simpa using heq
      obtain ⟨vs, rfl, hvs⟩ := exists_literal hl
      exact ⟨.word w :: vs, rfl, .like hc hw hvs⟩
    split at h
    · next hw =>
      split at h
      · split at h
        · next ls after hls =>
          obtain ⟨rfl, rfl⟩ := by simpa using h
          obtain ⟨vs, rfl, hvs⟩ := exists_literals hls
          exact ⟨.word w :: .symbol ['('] :: (vs ++ [.symbol [')']]), by simp, .oneOf hc hw hvs⟩
        · cases h
      · cases h
    · cases h
  · cases h

theorem exists_predicate {ts rest : List Token} {p : Predicate}
    (h : Predicate.read? ts = some (p, rest)) : ∃ us, ts = us ++ rest ∧ IsPredicate us p := by
  unfold Predicate.read? at h
  split at h
  · next name rest' =>
    obtain ⟨rfl, rfl⟩ := by simpa using h
    exact ⟨[.placeholder name], rfl, .placeholder name⟩
  · next w ts =>
    split at h
    · next hw =>
      obtain ⟨⟨c, after⟩, hc, hdate⟩ := Option.bind_eq_some_iff.1 h
      obtain ⟨us, rfl, hus⟩ := exists_column hc
      dsimp only at hdate
      split at hdate
      · next name rest' =>
        obtain ⟨rfl, rfl⟩ := by simpa using hdate
        exact ⟨.word w :: .symbol ['('] ::
            (us ++ [.symbol [')'], .symbol ['='], .placeholder name]), by simp,
          .dateEqualsPlaceholder name hw hus⟩
      · cases hdate
    · cases h
  · obtain ⟨⟨c, after⟩, hc, hcomparison⟩ := Option.bind_eq_some_iff.1 h
    obtain ⟨us, rfl, hus⟩ := exists_column hc
    obtain ⟨vs, rfl, hvs⟩ := exists_comparison hcomparison hus
    exact ⟨us ++ vs, by simp, hvs⟩

theorem IsPredicate.placeholder_mem {us : List Token} {p : Predicate} (h : IsPredicate us p)
    {name : List Char} (hname : p.placeholder? = some name) : .placeholder name ∈ us := by
  cases h with
  | placeholder | equalsPlaceholder | dateEqualsPlaceholder =>
    obtain rfl := Option.some.inj hname
    simp
  | equals | like | oneOf => cases hname

/-! ## Clauses -/

theorem IsConnective.read? {t : Token} {k : Connective} (h : IsConnective t k)
    (rest : List Token) : Connective.read? (t :: rest) = some (k, rest) := by
  cases h with
  | where_ hw => exact if_pos hw
  | @and_ w hw =>
    have hwhere : isKeyword "WHERE" w = false := isKeyword_eq_false hw (by decide)
    simp [Connective.read?, hwhere, hw]

theorem exists_connective {ts rest : List Token} {k : Connective}
    (h : Connective.read? ts = some (k, rest)) : ∃ t, ts = t :: rest ∧ IsConnective t k := by
  unfold Connective.read? at h
  split at h
  · split at h
    · next hw =>
      obtain ⟨rfl, rfl⟩ := by simpa using h
      exact ⟨_, rfl, .where_ hw⟩
    split at h
    · next hw =>
      obtain ⟨rfl, rfl⟩ := by simpa using h
      exact ⟨_, rfl, .and_ hw⟩
    · cases h
  · cases h

theorem IsConnective.exists_word {t : Token} {k : Connective} (h : IsConnective t k) :
    ∃ w, t = .word w ∧ (isKeyword "WHERE" w = true ∨ isKeyword "AND" w = true) := by
  cases h with
  | where_ hw => exact ⟨_, rfl, .inl hw⟩
  | and_ hw => exact ⟨_, rfl, .inr hw⟩

/-- The reader accepts what the grammar derives, as what is derived. -/
theorem ofTokens?_iff {ts : List Token} {c : Clause} :
    Clause.ofTokens? ts = some c ↔ IsClause ts c := by
  constructor
  · intro h
    unfold Clause.ofTokens? at h
    split at h
    · obtain ⟨⟨k, us⟩, hk, h⟩ := Option.bind_eq_some_iff.1 h
      obtain ⟨⟨p, rest⟩, hp, h⟩ := Option.bind_eq_some_iff.1 h
      obtain ⟨rfl, rfl⟩ := by simpa using h
      obtain ⟨t, rfl, ht⟩ := exists_connective hk
      obtain ⟨vs, rfl, hvs⟩ := exists_predicate hp
      exact .optional ht hvs
    · obtain ⟨⟨k, us⟩, hk, h⟩ := Option.bind_eq_some_iff.1 h
      obtain ⟨⟨p, rest⟩, hp, h⟩ := Option.bind_eq_some_iff.1 h
      obtain ⟨rfl, rfl⟩ := by simpa using h
      obtain ⟨t, rfl, ht⟩ := exists_connective hk
      obtain ⟨vs, rfl, hvs⟩ := exists_predicate hp
      rw [List.append_nil]
      exact .bare ht hvs
  · intro h
    cases h with
    | @bare t us k p ht hp =>
      have hread := hp.read? []
      rw [List.append_nil] at hread
      obtain ⟨w, rfl, -⟩ := ht.exists_word
      simp [Clause.ofTokens?, ht.read?, hread]
    | optional ht hp => simp [Clause.ofTokens?, ht.read?, hp.read?]

/-- The column of a literal predicate is derived from tokens of the predicate. -/
theorem IsPredicate.exists_column {us : List Token} {p : Predicate} (h : IsPredicate us p)
    {column : ColumnName} (hcolumn : p.literalColumn? = some column) :
    ∃ ts, ts ⊆ us ∧ IsColumn ts column := by
  cases h with
  | placeholder | equalsPlaceholder | dateEqualsPlaceholder => cases hcolumn
  | equals hc | like hc | oneOf hc =>
    obtain rfl := Option.some.inj hcolumn
    exact ⟨_, List.subset_append_left _ _, hc⟩

theorem IsClause.exists_predicate {ts : List Token} {c : Clause} (h : IsClause ts c) :
    ∃ us, us ⊆ ts ∧ IsPredicate us c.predicate := by
  cases h with
  | bare _ hp => exact ⟨_, List.subset_cons_self _ _, hp⟩
  | optional _ hp =>
    exact ⟨_, fun t ht => List.mem_cons_of_mem _ (List.mem_cons_of_mem _ (by simp [ht])), hp⟩

/-! ## Brackets -/

def isBracket (t : Token) : Bool :=
  t = .openOptional ∨ t = .closeOptional ∨ t = .symbol ['('] ∨ t = .symbol [')']

theorem count_bracket {ts : List Token} (h : ∀ t ∈ ts, isBracket t = false) {b : Token}
    (hb : isBracket b = true) : ts.count b = 0 := by
  rw [List.count_eq_zero]
  intro hmem
  rw [h b hmem] at hb
  cases hb

theorem IsLiteral.isBracket {us : List Token} {l : List Char} (h : IsLiteral us l) :
    ∀ t ∈ us, isBracket t = false := by
  cases h <;> simp [Grammar.isBracket]

theorem IsList.isBracket {us : List Token} {ls : List (List Char)} (h : IsList us ls) :
    ∀ t ∈ us, isBracket t = false := by
  induction h with
  | one hl => exact hl.isBracket
  | more hl _ ih =>
    intro t ht
    rcases List.mem_append.1 ht with ht | ht
    · exact hl.isBracket t ht
    rcases List.mem_cons.1 ht with rfl | ht
    · rfl
    · exact ih t ht

theorem IsColumn.isBracket {us : List Token} {c : ColumnName} (h : IsColumn us c) :
    ∀ t ∈ us, isBracket t = false := by
  induction h with
  | word w => simp [Grammar.isBracket]
  | part w _ ih => simpa [Grammar.isBracket] using ih

/-- A predicate has the brackets of its rule, and those are balanced. -/
theorem IsPredicate.count_bracket {us : List Token} {p : Predicate} (h : IsPredicate us p) :
    us.count .openOptional = 0 ∧ us.count .closeOptional = 0 ∧
      us.count (.symbol ['(']) = us.count (.symbol [')']) := by
  have hnone : ∀ {ts : List Token}, (∀ t ∈ ts, Grammar.isBracket t = false) →
      ts.count .openOptional = 0 ∧ ts.count .closeOptional = 0 ∧
        ts.count (.symbol ['(']) = 0 ∧ ts.count (.symbol [')']) = 0 := fun h =>
    ⟨Grammar.count_bracket h rfl, Grammar.count_bracket h rfl, Grammar.count_bracket h rfl,
      Grammar.count_bracket h rfl⟩
  cases h with
  | placeholder => simp
  | equalsPlaceholder _ hc | dateEqualsPlaceholder _ _ hc =>
    obtain ⟨h1, h2, h3, h4⟩ := hnone hc.isBracket
    simp [h1, h2, h3, h4]
  | equals hc hl | like hc _ hl =>
    obtain ⟨h1, h2, h3, h4⟩ := hnone hc.isBracket
    obtain ⟨k1, k2, k3, k4⟩ := hnone hl.isBracket
    simp [h1, h2, h3, h4, k1, k2, k3, k4]
  | oneOf hc _ hls =>
    obtain ⟨h1, h2, h3, h4⟩ := hnone hc.isBracket
    obtain ⟨k1, k2, k3, k4⟩ := hnone hls.isBracket
    simp [h1, h2, h3, h4, k1, k2, k3, k4]

theorem IsClause.count_bracket {ts : List Token} {c : Clause} (h : IsClause ts c) :
    ts.count .openOptional = ts.count .closeOptional ∧
      ts.count (.symbol ['(']) = ts.count (.symbol [')']) := by
  cases h with
  | bare ht hp | optional ht hp =>
    obtain ⟨w, rfl, -⟩ := ht.exists_word
    obtain ⟨h1, h2, h3⟩ := hp.count_bracket
    simp [h1, h2, h3]

/-! ## No connective inside -/

/-- A token that is not in the second part is in the first. -/
theorem exists_of_append_eq {us vs x y : List Token} {t : Token} (ht : t ∉ vs)
    (heq : us ++ vs = x ++ t :: y) : ∃ z, us = x ++ t :: z ∧ y = z ++ vs := by
  rcases List.append_eq_append_iff.1 heq with ⟨z, -, rfl⟩ | ⟨z, rfl, htail⟩
  · exact absurd (by simp) ht
  · cases z with
    | nil => exact absurd (by rw [← List.nil_append vs, ← htail]; exact List.mem_cons_self) ht
    | cons u z =>
      obtain ⟨rfl, rfl⟩ := List.cons.inj htail
      exact ⟨z, rfl, rfl⟩

section Connective

variable {k : List Char} (hk : isKeyword "WHERE" k = true ∨ isKeyword "AND" k = true)

include hk

theorem IsLiteral.word_not_mem {us : List Token} {l : List Char} (h : IsLiteral us l) :
    .word k ∉ us := by
  cases h with
  | quoted | number | negative => simp
  | truth hw =>
    rintro hmem
    obtain rfl : k = l := by simpa using hmem
    rcases hk with hk | hk <;> rcases hw with hw | hw <;>
      exact absurd (isKeyword_unique hk hw) (by decide)

theorem IsList.word_not_mem {us : List Token} {ls : List (List Char)} (h : IsList us ls) :
    .word k ∉ us := by
  induction h with
  | one hl => exact hl.word_not_mem hk
  | more hl _ ih => simp [hl.word_not_mem hk, ih]

theorem word_ne_keyword {s : String} {w : List Char} (hw : isKeyword s w = true)
    (hs : s.toList.map Char.toLower ≠ "where".toList ∧ s.toList.map Char.toLower ≠ "and".toList) :
    k ≠ w := by
  rintro rfl
  rcases hk with hk | hk
  · exact hs.1 (isKeyword_unique hw hk)
  · exact hs.2 (isKeyword_unique hw hk)

omit hk in
/-- After a word of a column comes a point, or what comes after the column. -/
theorem IsColumn.after_word {us : List Token} {c : ColumnName} (h : IsColumn us c)
    {x y : List Token} (hus : us = x ++ .word k :: y) : ∀ t ∈ y.head?, t = .symbol ['.'] := by
  induction h generalizing x with
  | word w =>
    cases x with
    | nil =>
      obtain ⟨-, rfl⟩ := by simpa using hus
      simp
    | cons t x => simp at hus
  | @part w us c hc ih =>
    cases x with
    | nil =>
      obtain ⟨-, rfl⟩ := by simpa using hus
      simp
    | cons t x =>
      cases x with
      | nil => simp at hus
      | cons t' x => exact ih (by simpa using (List.cons.inj (List.cons.inj hus).2).2)

omit hk in
/-- No predicate begins inside a column, nor after it if none begins there. -/
theorem IsColumn.read?_after_word {us vs : List Token} {c : ColumnName} (h : IsColumn us c)
    (hvs : .word k ∉ vs) (hnone : ∀ rest, Predicate.read? (vs ++ rest) = none) {x y : List Token}
    (heq : us ++ vs = x ++ .word k :: y) (rest : List Token) :
    Predicate.read? (y ++ rest) = none := by
  obtain ⟨z, rfl, rfl⟩ := exists_of_append_eq hvs heq
  cases z with
  | nil => exact hnone rest
  | cons t z =>
    obtain rfl := h.after_word rfl t rfl
    rfl

/-- In a predicate no other one comes after a word that is a connective. -/
theorem IsPredicate.read?_after_connective {us : List Token} {p : Predicate} (h : IsPredicate us p)
    {x y : List Token} (hus : us = x ++ .word k :: y) (rest : List Token) :
    Predicate.read? (y ++ rest) = none := by
  cases h with
  | placeholder => cases x <;> simp at hus
  | equalsPlaceholder name hc =>
    exact hc.read?_after_word (by simp) (fun _ => rfl) hus rest
  | dateEqualsPlaceholder name hw hc =>
    cases x with
    | nil =>
      obtain ⟨hkw, -⟩ := by simpa using hus
      exact absurd hkw.symm (word_ne_keyword hk hw (by decide))
    | cons t x =>
      cases x with
      | nil => simp at hus
      | cons t' x =>
        have heq := (List.cons.inj (List.cons.inj hus).2).2
        exact hc.read?_after_word (by simp) (fun _ => rfl) heq rest
  | equals hc hl =>
    exact hc.read?_after_word (by simp [hl.word_not_mem hk]) (fun _ => rfl) hus rest
  | @like ts us w c l hc hw hl =>
    have hne : k ≠ w := word_ne_keyword hk hw (by decide)
    refine hc.read?_after_word (by simp [hl.word_not_mem hk, hne]) (fun rest => ?_) hus rest
    cases hl with
    | quoted | number | negative => rfl
    | truth htruth =>
      have hlike : isKeyword "LIKE" l = false := htruth.elim
        (isKeyword_eq_false · (by decide)) (isKeyword_eq_false · (by decide))
      have hin : isKeyword "IN" l = false := htruth.elim
        (isKeyword_eq_false · (by decide)) (isKeyword_eq_false · (by decide))
      have hcomparison : Predicate.comparison? ⟨w ++ []⟩ (.word l :: rest) = none := by
        simp [Predicate.comparison?, hlike, hin]
      exact hcomparison
  | @oneOf ts us w c ls hc hw hls =>
    have hne : k ≠ w := word_ne_keyword hk hw (by decide)
    have hdate : isKeyword "DATE" w = false := isKeyword_eq_false hw (by decide)
    refine hc.read?_after_word (by simp [hls.word_not_mem hk, hne]) (fun rest => ?_) hus rest
    simp [Predicate.read?, hdate]

end Connective

/-- Where a connective and a predicate stand next to each other, they are the whole clause, but for
its brackets. -/
theorem IsClause.eq_of_append {before us after : List Token} {t : Token} {k : Connective}
    {p : Predicate} {c : Clause} (ht : IsConnective t k) (hp : IsPredicate us p)
    (h : IsClause (before ++ t :: (us ++ after)) c) :
    before = [] ∧ after = [] ∨ before = [.openOptional] ∧ after = [.closeOptional] := by
  have hinside : ∀ (close : List Token) {vs x : List Token} {q : Predicate}, IsPredicate vs q →
      (∀ u ∈ close, u = .closeOptional) → vs ++ close ≠ x ++ t :: (us ++ after) := by
    intro close vs x q hq hclose heq
    obtain ⟨w, rfl, hw⟩ := ht.exists_word
    have hnot : .word w ∉ close := fun hmem => by cases hclose _ hmem
    obtain ⟨z, rfl, hrest⟩ := exists_of_append_eq hnot heq
    have hnone := hq.read?_after_connective hw rfl close
    rw [← hrest, hp.read?] at hnone
    cases hnone
  have hsame : ∀ (close : List Token) {vs : List Token} {q : Predicate}, IsPredicate vs q →
      vs ++ close = us ++ after → after = close := by
    intro close vs q hq heq
    have hread := hp.read? after
    rw [← heq, hq.read?] at hread
    exact (Prod.mk.inj (Option.some.inj hread)).2.symm
  generalize hts : before ++ t :: (us ++ after) = ts at h
  cases h with
  | @bare t' vs k' q ht' hq =>
    cases before with
    | nil =>
      obtain ⟨-, heq⟩ := List.cons.inj hts
      exact .inl ⟨rfl, hsame [] hq (by rw [List.append_nil, heq])⟩
    | cons b before =>
      have heq : before ++ t :: (us ++ after) = vs := (List.cons.inj hts).2
      exact absurd (by rw [List.append_nil, heq]) (hinside [] hq (by simp))
  | @optional t' vs k' q ht' hq =>
    cases before with
    | nil =>
      obtain ⟨w, rfl, -⟩ := ht.exists_word
      cases (List.cons.inj hts).1
    | cons b before =>
      obtain ⟨rfl, htail⟩ := List.cons.inj hts
      cases before with
      | nil =>
        obtain ⟨-, heq⟩ := List.cons.inj htail
        exact .inr ⟨rfl, hsame _ hq heq.symm⟩
      | cons b' before =>
        have heq : before ++ t :: (us ++ after) = vs ++ [Token.closeOptional] :=
          (List.cons.inj htail).2
        exact absurd heq.symm (hinside _ hq (by simp))

end Grammar

/-- The reader accepts exactly what the grammar derives from the tokens of a line, no tokens derive
two clauses, and no line is a clause with unbalanced brackets or with anything more than a connective
and its predicate. -/
theorem Clause.read?_iff_isClause :
    (∀ line c, Clause.read? line = some c ↔
      ∃ ts, tokenize line = some ts ∧ Grammar.IsClause ts c) ∧
    (∀ ts c d, Grammar.IsClause ts c → Grammar.IsClause ts d → c = d) ∧
    (∀ line ts, tokenize line = some ts →
      ts.count .openOptional ≠ ts.count .closeOptional ∨
        ts.count (.symbol ['(']) ≠ ts.count (.symbol [')']) →
      Clause.read? line = none) ∧
    ∀ line before t us after k p, tokenize line = some (before ++ t :: (us ++ after)) →
      Grammar.IsConnective t k → Grammar.IsPredicate us p →
      ((∃ c, Clause.read? line = some c) ↔
        before = [] ∧ after = [] ∨ before = [.openOptional] ∧ after = [.closeOptional]) := by
  have hread : ∀ line c, Clause.read? line = some c ↔
      ∃ ts, tokenize line = some ts ∧ Grammar.IsClause ts c := by
    intro line c
    simp only [Clause.read?, Option.bind_eq_some_iff, Grammar.ofTokens?_iff]
  refine ⟨hread, fun ts c d hc hd => ?_, fun line ts hts hcount => ?_,
    fun line before t us after k p hts ht hp => ⟨?_, ?_⟩⟩
  · exact Option.some.inj ((Grammar.ofTokens?_iff.2 hc).symm.trans (Grammar.ofTokens?_iff.2 hd))
  · rw [Option.eq_none_iff_forall_ne_some]
    intro c hc
    obtain ⟨us, hus, hclause⟩ := (hread line c).1 hc
    obtain rfl : ts = us := Option.some.inj (hts.symm.trans hus)
    obtain ⟨hoptional, hparens⟩ := hclause.count_bracket
    exact hcount.elim (· hoptional) (· hparens)
  · rintro ⟨c, hc⟩
    obtain ⟨ts, hts', hclause⟩ := (hread line c).1 hc
    rw [hts] at hts'
    rw [← Option.some.inj hts'] at hclause
    exact hclause.eq_of_append ht hp
  · rintro (⟨rfl, rfl⟩ | ⟨rfl, rfl⟩)
    · rw [List.append_nil] at hts
      exact ⟨_, (hread line _).2 ⟨_, hts, .bare ht hp⟩⟩
    · exact ⟨_, (hread line _).2 ⟨_, hts, .optional ht hp⟩⟩

theorem Clause.read?_iff_isClause_list :
    Clause.read? "  [[And t.x in('a', -1)]]".toList =
        some ⟨.and_, true, .oneOf ⟨"t.x".toList⟩ ["'a'".toList, "-1".toList]⟩ ∧
      Clause.read? "[[WHERE x = 1".toList = none ∧
      ¬∃ c, Clause.read? "WHERE x = 1 AND y = 2".toList = some c := by
  have hlist : tokenize "  [[And t.x in('a', -1)]]".toList = some [.openOptional,
      .word "And".toList, .word ['t'], .symbol ['.'], .word ['x'], .word "in".toList, .symbol ['('],
      .quoted "'a'".toList, .symbol [','], .symbol ['-'], .number ['1'], .symbol [')'],
      .closeOptional] := tokenize_of_within (by decide)
  have hopen : tokenize "[[WHERE x = 1".toList = some [.openOptional, .word "WHERE".toList,
      .word ['x'], .symbol ['='], .number ['1']] := tokenize_of_within (by decide)
  have htwo : tokenize "WHERE x = 1 AND y = 2".toList =
      some ([] ++ Token.word "WHERE".toList ::
        (([.word ['x'], .symbol ['='], .number ['1']] : List Token) ++
          ([.word "AND".toList, .word ['y'], .symbol ['='], .number ['2']] : List Token))) :=
    tokenize_of_within (by decide)
  obtain ⟨hiff, -, hbrackets, hparts⟩ := Clause.read?_iff_isClause
  refine ⟨(hiff _ _).2 ⟨_, hlist, ?_⟩, hbrackets _ _ hopen (by decide), fun h => ?_⟩
  · exact .optional (.and_ (by decide)) (.oneOf (.part ['t'] (.word ['x'])) (by decide)
      (.more (.quoted _) (.one (.negative _))))
  · have hends := (hparts _ _ _ _ _ _ _ htwo (.where_ (by decide))
      (.equals (.word ['x']) (.number ['1']))).1 h
    exact absurd hends (by decide)

end EventReport
