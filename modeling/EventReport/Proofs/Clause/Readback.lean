/-
# What is read from a line that the compiler writes

Two things are settled here, before any plan is looked at.  A line whose first
word is no connective is no clause (`read?_of_isInert`), whatever follows and even
if what follows has no tokens.  And the comparisons that a base filter can make are
read back with the column and the literals spelled as they were written, or not
read at all.
-/
import EventReport.Proofs.Sql.Literal
import EventReport.Proofs.Sql.Text
import EventReport.Proofs.Text.Revision

namespace EventReport

open Text Sql
open Token (isKeyword)

/-! ## Lines that open no clause -/

/-- Whether a clause can begin with the token. -/
def Token.opensClause : Token → Bool
  | .openOptional => true
  | .word w => isKeyword "WHERE" w || isKeyword "AND" w
  | _ => false

theorem Connective.read?_eq_none {ts : List Token} (h : ∀ t ∈ ts.head?, t.opensClause = false) :
    Connective.read? ts = none := by
  unfold Connective.read?
  split
  · next w rest =>
    have hw := h _ rfl
    simp only [Token.opensClause, Bool.or_eq_false_iff] at hw
    rw [hw.1, hw.2]
    rfl
  · rfl

theorem Clause.ofTokens?_eq_none {ts : List Token} (h : ∀ t ∈ ts.head?, t.opensClause = false) :
    Clause.ofTokens? ts = none := by
  unfold Clause.ofTokens?
  split
  · exact absurd (h _ rfl) (by simp [Token.opensClause])
  · rw [Connective.read?_eq_none h]
    rfl

/-- Whether a line is certain to be no clause: its first word is no connective, or it begins with a
closing parenthesis. -/
def isInert (line : List Char) : Bool :=
  match trimStart line with
  | [] => true
  | c :: cs =>
    c == ')' || isIdentifierStart c && !(Token.word (c :: cs.takeWhile Token.isWordChar)).opensClause

theorem tokenize_trimStart (line : List Char) : tokenize (trimStart line) = tokenize line := by
  induction line with
  | nil => rfl
  | cons c cs ih =>
    by_cases hc : isBlank c = true
    · rw [tokenize_blank cs hc, ← ih, trimStart, List.dropWhile_cons_of_pos hc]
      rfl
    · rw [trimStart, List.dropWhile_cons_of_neg hc]

/-- The first token of a line, if it has tokens, decides whether the line can be a clause. -/
theorem Clause.read?_of_next? {c : Char} {cs after : List Char} {t : Token}
    (hc : isBlank c = false) (h : Token.next? c cs = some (t, after))
    (hopens : t.opensClause = false) : Clause.read? (c :: cs) = none := by
  rw [Clause.read?, tokenize_next hc h]
  cases tokenize after with
  | none => rfl
  | some ts =>
    refine Clause.ofTokens?_eq_none ?_
    intro u hu
    obtain rfl : t = u := by simpa using hu
    exact hopens

theorem read?_of_isInert {line : List Char} (h : isInert line = true) :
    Clause.read? line = none := by
  have htrim : Clause.read? line = Clause.read? (trimStart line) := by
    rw [Clause.read?, Clause.read?, tokenize_trimStart]
  rw [htrim]
  unfold isInert at h
  split at h
  · next heq =>
    rw [heq]
    simp [Clause.read?, tokenize_nil, Clause.ofTokens?, Connective.read?]
  · next c cs heq =>
    rw [heq]
    rw [Bool.or_eq_true, beq_iff_eq, Bool.and_eq_true, Bool.not_eq_true'] at h
    rcases h with rfl | ⟨hstart, hopens⟩
    · have hnext : Token.next? ')' cs = some (.symbol [')'], cs) := by
        cases cs with
        | nil => rfl
        | cons d cs => simp [Token.next?, Token.isWordStart, isLetter, Token.pairs]
      exact Clause.read?_of_next? (by decide) hnext rfl
    · have hblank := isBlank_of_isIdentifierChar (isIdentifierChar_of_isIdentifierStart hstart)
      have hnext := Token.next?_wordStart (isDigit_of_isIdentifierStart hstart)
        (isWordStart_of_isIdentifierStart hstart) cs
      exact Clause.read?_of_next? hblank hnext hopens

theorem isInert_blank {c : Char} (h : isBlank c = true) (cs : List Char) :
    isInert (c :: cs) = isInert cs := by
  rw [isInert, isInert, trimStart, List.dropWhile_cons_of_pos h]
  rfl

/-- Whether a word ends before the character, and no placeholder begins with it. -/
def Token.endsWord (c : Char) : Bool := !isWordChar c && c != '\x7b'

/-- A text that begins with an identifier, and the identifier is no connective. -/
def StartsPlainly (cs : List Char) : Prop :=
  ∃ w d rest, cs = w ++ d :: rest ∧ isIdentifierChars w = true ∧ Token.endsWord d = true ∧
    (Token.word w).opensClause = false

namespace StartsPlainly

theorem append {cs : List Char} (h : StartsPlainly cs) (ds : List Char) :
    StartsPlainly (cs ++ ds) := by
  obtain ⟨w, d, rest, rfl, hw, hd, hopens⟩ := h
  exact ⟨w, d, rest ++ ds, by simp, hw, hd, hopens⟩

theorem isInert {cs : List Char} (h : StartsPlainly cs) : isInert cs = true := by
  obtain ⟨w, d, rest, rfl, hw, hd, hopens⟩ := h
  obtain ⟨c, w, rfl, hc, hw⟩ := isIdentifierChars_iff.1 hw
  have hblank := isBlank_of_isIdentifierChar (isIdentifierChar_of_isIdentifierStart hc)
  have hend : Token.isWordChar d = false := by
    simp only [Token.endsWord, Bool.and_eq_true, Bool.not_eq_true'] at hd
    exact hd.1
  have hword : (w ++ d :: rest).takeWhile Token.isWordChar = w := by
    rw [List.takeWhile_append_of_pos fun e he => isWordChar_of_isIdentifierChar (hw e he),
      List.takeWhile_cons_of_neg (by simp [hend]), List.append_nil]
  rw [EventReport.isInert, trimStart, List.cons_append,
    List.dropWhile_cons_of_neg (by simp [hblank])]
  simp [hc, hword, hopens]

/-- What follows the word does not matter. -/
theorem firm {cs : List Char} (h : StartsPlainly cs) :
    Firm (EventReport.isInert · = true) cs := by
  obtain ⟨w, d, rest, rfl, hw, hd, hopens⟩ := h
  have hbrace : '\x7b' ∉ w ++ [d] := by
    rw [List.mem_append, List.mem_singleton, not_or]
    refine ⟨fun hmem => ?_, fun heq => ?_⟩
    · exact absurd (isIdentifierChar_of_mem hw hmem) (by decide)
    · subst heq
      exact absurd hd (by decide)
  rw [List.append_cons]
  refine .of_append rest hbrace fun other => ?_
  exact isInert ⟨w, d, other, by simp, hw, hd, hopens⟩

end StartsPlainly

/-! ## Columns and literals -/

namespace ColumnName

/-- A column without a qualifier is read up to anything but a point. -/
theorem read?_word (w : List Char) {ts : List Token} (h : ts.head? ≠ some (.symbol ['.'])) :
    read? (.word w :: ts) = some (⟨w⟩, ts) := by
  have hparts : parts? ts = some ([], ts) := by
    unfold parts?
    split
    · simp at h
    · simp at h
    · rfl
  simp [read?, hparts]

end ColumnName

namespace Predicate

/-- The literals of a list, each after a comma. -/
def commaTokens (ls : List Literal) : List Token :=
  ls.flatMap fun l => .symbol [','] :: l.tokens

theorem moreLiterals?_commaTokens {ls : List Literal} (h : ∀ l ∈ ls, l.IsUserValue)
    {rest : List Token} (hrest : rest.head? ≠ some (.symbol [','])) :
    moreLiterals? (commaTokens ls ++ rest) =
      some (ls.map fun l => l.render.toList, rest) := by
  induction ls with
  | nil =>
    unfold moreLiterals?
    split
    · next heq => simp [commaTokens] at heq; simp [heq] at hrest
    · simp [commaTokens]
  | cons l ls ih =>
    have hl := h l List.mem_cons_self
    have ih := ih fun m hm => h m (List.mem_cons_of_mem l hm)
    have hcons : commaTokens (l :: ls) ++ rest =
        .symbol [','] :: (l.tokens ++ (commaTokens ls ++ rest)) := by
      simp [commaTokens]
    rw [hcons, moreLiterals?]
    split
    · next hnone => simp [Literal.literal?_tokens hl] at hnone
    · next spelling after hsome =>
      rw [Literal.literal?_tokens hl] at hsome
      obtain ⟨rfl, rfl⟩ : l.render.toList = spelling ∧ commaTokens ls ++ rest = after := by
        simpa using hsome
      rw [ih]
      rfl

/-- The tokens of literals with commas between them. -/
theorem tokenize_joined_literals (l : Literal) (ls : List Literal) :
    tokenize (joined ", ".toList ((l :: ls).map fun l => l.render.toList)) =
      some (l.tokens ++ commaTokens ls) := by
  induction ls generalizing l with
  | nil => simpa [joined, commaTokens] using l.tokenize_render
  | cons m ls ih =>
    have hcons : joined ", ".toList ((l :: m :: ls).map fun l => l.render.toList) =
        l.render.toList ++ ',' :: ' ' :: joined ", ".toList ((m :: ls).map fun l => l.render.toList) := by
      simp [joined]
    rw [hcons, tokenize_separated l.tokenize_render (by decide), tokenize_blank _ (by decide), ih]
    simp [commaTokens, Token.solo]

/-! ## Comparisons -/

/-- Apart from a call, a predicate that begins with a word begins with its column. -/
theorem read?_column (w : List Char) {ts : List Token} (hpoint : ts.head? ≠ some (.symbol ['.']))
    (hparen : ts.head? ≠ some (.symbol ['('])) : read? (.word w :: ts) = comparison? ⟨w⟩ ts := by
  unfold read?
  split
  · next heq => cases heq
  · next heq =>
    obtain ⟨-, rfl⟩ := List.cons.inj heq
    simp at hparen
  · next heq =>
    rw [ColumnName.read?_word w hpoint]
    rfl

theorem comparison?_equals (c : ColumnName) {ts rest : List Token} {l : List Char}
    (h : literal? ts = some (l, rest)) :
    comparison? c (.symbol ['='] :: ts) = some (.equals c l, rest) := by
  unfold comparison?
  split
  · next heq =>
    obtain ⟨-, rfl⟩ := List.cons.inj heq
    simp [literal?] at h
  · next heq =>
    obtain ⟨-, rfl⟩ := List.cons.inj heq
    rw [h]
    rfl
  · next heq => cases heq
  · next hne _ => exact absurd rfl (hne ts)

theorem comparison?_notEquals (c : ColumnName) (ts : List Token) :
    comparison? c (.symbol ['!', '='] :: ts) = none := rfl

theorem comparison?_like (c : ColumnName) {ts rest : List Token} {l : List Char}
    (h : literal? ts = some (l, rest)) :
    comparison? c (.word "LIKE".toList :: ts) = some (.like c l, rest) := by
  have hlike : isKeyword "LIKE" "LIKE".toList = true := by decide
  simp only [comparison?, hlike, if_true, h]
  rfl

theorem comparison?_word (c : ColumnName) {w : List Char} (ts : List Token)
    (hlike : isKeyword "LIKE" w = false) (hin : isKeyword "IN" w = false) :
    comparison? c (.word w :: ts) = none := by
  simp [comparison?, hlike, hin]

theorem comparison?_oneOf (c : ColumnName) {l : Literal} {ls : List Literal}
    (h : ∀ m ∈ l :: ls, m.IsUserValue) :
    comparison? c (.word "IN".toList :: .symbol ['('] :: (l.tokens ++ commaTokens ls ++
      [.symbol [')']])) = some (.oneOf c ((l :: ls).map fun m => m.render.toList), []) := by
  have hlike : isKeyword "LIKE" "IN".toList = false := by decide
  have hin : isKeyword "IN" "IN".toList = true := by decide
  have hl := h l List.mem_cons_self
  have hls : ∀ m ∈ ls, m.IsUserValue := fun m hm => h m (List.mem_cons_of_mem l hm)
  have hclose : [Token.symbol [')']].head? ≠ some (.symbol [',']) := by simp
  have hmore := moreLiterals?_commaTokens hls hclose
  have hliterals : literals? (l.tokens ++ commaTokens ls ++ [.symbol [')']]) =
      some ((l :: ls).map fun m => m.render.toList, [.symbol [')']]) := by
    rw [List.append_assoc]
    simp only [literals?, Literal.literal?_tokens hl, Option.bind_eq_bind, Option.bind_some, hmore]
    rfl
  simp only [comparison?, hlike, hin, if_true, hliterals, Bool.false_eq_true, if_false]

end Predicate

/-! ## Expressions -/

theorem tokenize_bare {name : String} (h : isIdentifier name = true) :
    tokenize (Expr.column (.bare name)).chars = some [.word name.toList] := by
  have hrender : (ColumnRef.bare name).render = name := by simp [ColumnRef.render, ColumnRef.bare]
  rw [Expr.chars_column, hrender]
  exact tokenize_identifier h

theorem tokenize_value (l : Literal) : tokenize (Expr.value l).chars = some l.tokens := by
  rw [Expr.chars_value]
  exact l.tokenize_render

theorem tokenize_compare {e f : Expr} {ts us : List Token} (he : tokenize e.chars = some ts)
    (hf : tokenize f.chars = some us) (op : Comparison) :
    tokenize (Expr.compare op e f).chars = some (ts ++ .symbol op.symbol.toList :: us) := by
  have hop : tokenize op.symbol.toList = some [.symbol op.symbol.toList] := by
    cases op <;> exact tokenize_of_within (by decide)
  rw [Expr.chars_compare, tokenize_separated he (by decide), tokenize_separated hop (by decide), hf]
  simp [Token.solo]

theorem tokenize_like {e f : Expr} {ts us : List Token} (he : tokenize e.chars = some ts)
    (hf : tokenize f.chars = some us) (negated : Bool) :
    tokenize (Expr.like e f negated).chars =
      some (ts ++ ((if negated then [.word "NOT".toList] else []) ++ .word "LIKE".toList :: us)) := by
  have hlike : tokenize "LIKE".toList = some [.word "LIKE".toList] := tokenize_identifier (by decide)
  have hnot : tokenize "NOT LIKE".toList = some [.word "NOT".toList, .word "LIKE".toList] :=
    tokenize_of_within (by decide)
  rw [Expr.chars_like, tokenize_separated he (by decide)]
  cases negated with
  | true =>
    simp only [if_true]
    rw [tokenize_separated hnot (by decide), hf]
    simp [Token.solo]
  | false =>
    simp only [if_false, Bool.false_eq_true]
    rw [tokenize_separated hlike (by decide), hf]
    simp [Token.solo]

theorem tokenize_among {e : Expr} {ts : List Token} (he : tokenize e.chars = some ts) (l : Literal)
    (ls : List Literal) :
    tokenize (Expr.among e ((l :: ls).map .value)).chars =
      some (ts ++ .word "IN".toList :: .symbol ['('] ::
        (l.tokens ++ Predicate.commaTokens ls ++ [.symbol [')']])) := by
  have hin : tokenize "IN ".toList = some [.word "IN".toList] := tokenize_of_within (by decide)
  have hvalues : ((l :: ls).map Expr.value).map Expr.chars =
      (l :: ls).map fun l => l.render.toList := by
    rw [List.map_map]
    exact List.map_congr_left fun m _ => Expr.chars_value m
  have hliterals := Predicate.tokenize_joined_literals l ls
  rw [← hvalues] at hliterals
  rw [Expr.chars_among, tokenize_separated he (by decide), tokenize_separated hin (by decide),
    tokenize_separated hliterals (by decide), tokenize_nil]
  simp [Token.solo]

/-- A cast begins with its own word, and a parenthesis after it. -/
theorem tokenize_cast_string {e : Expr} {ts : List Token} (he : tokenize e.chars = some ts) :
    ∃ us, tokenize (Expr.cast e "STRING").chars =
      some (.word "CAST".toList :: .symbol ['('] :: us) := by
  have hcast : tokenize "CAST".toList = some [.word "CAST".toList] := tokenize_identifier (by decide)
  have has : tokenize "AS STRING)".toList =
      some [.word "AS".toList, .word "STRING".toList, .symbol [')']] :=
      tokenize_of_within (by decide)
  have hrest : "AS".toList ++ ' ' :: ("STRING".toList ++ ')' :: []) = "AS STRING)".toList := by
    decide
  rw [Expr.chars_cast, tokenize_separated hcast (by decide), hrest, tokenize_separated he (by decide),
    has]
  exact ⟨_, rfl⟩

/-! ## Lines of conditions -/

/-- The line of a condition is read as far as its predicate is. -/
theorem read?_andLine {cs : List Char} {ts : List Token} (h : tokenize cs = some ts) :
    Clause.read? ("    AND".toList ++ ' ' :: cs) =
      (Predicate.read? ts).bind fun (p, rest) =>
        if rest = [] then some ⟨.and_, false, p⟩ else none := by
  have hand : tokenize "    AND".toList = some [.word "AND".toList] :=
    tokenize_of_within (by decide)
  have hwhere : isKeyword "WHERE" "AND".toList = false := by decide
  have hkey : isKeyword "AND" "AND".toList = true := by decide
  have htokens : tokenize ("    AND".toList ++ ' ' :: cs) = some (.word "AND".toList :: ts) := by
    rw [tokenize_separated hand (by decide), h]
    rfl
  have hconnective : Connective.read? (.word "AND".toList :: ts) = some (.and_, ts) := by
    simp only [Connective.read?, hwhere, hkey, if_true, Bool.false_eq_true, if_false]
  rw [Clause.read?, htokens, Option.bind_some, Clause.ofTokens?]
  · simp only [hconnective, Option.bind_eq_bind, Option.bind_some]
  · intro ts' heq
    cases heq

end EventReport
