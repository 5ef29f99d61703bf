/-
# The condition that carries a WHERE

A filter that is taken out may be the one that its block begins with.  Its WHERE has
to go to the condition that follows, or the block begins with an AND.

## What is proved

`carried_iff` says for every condition that goes on with others when it comes to
carry a WHERE.  The line before it must be the filter with the WHERE that is taken
out, but for further filters that are taken out with it; and the condition must be a
filter, or optional, or begin with a word that is nothing but AND.  In all other
cases the line stays as it is (`TextLine.not_carried`).

## What is NOT proved, because it is false

That the WHERE always arrives.  A blank line or a comment is a line like any other,
so it takes the WHERE and drops it; and the first word of a condition reaches up to a
blank, so it is not AND where a parenthesis follows at once (`unbind_drops_where`).
-/
import EventReport.Proofs.Dashboard.Survival
import EventReport.Proofs.Text.Closed

namespace EventReport.Dashboard

open Text
open Placeholder (leavesOpen)
open Token (isKeyword)

namespace TextLine

/-! ## The WHERE that is pending -/

/-- The indentation of the WHERE that the line after the given ones has to carry. -/
def pendingAfter (name : List Char) :
    (pending : Option (List Char)) → List (List Char) → Option (List Char)
  | pending, [] => pending
  | pending, line :: lines =>
    if refersTo name line then pendingAfter name ((where? line).or pending) lines
    else pendingAfter name none lines

/-- Whether the line is taken out, and a WHERE with it. -/
def LosesWhere (name line : List Char) : Prop :=
  refersTo name line = true ∧ (where? line).isSome = true

/-- A WHERE is taken out, and of the lines after it none is left. -/
def EndsInWhere (name : List Char) (lines : List (List Char)) : Prop :=
  ∃ before removed between, lines = before ++ removed :: between ∧ LosesWhere name removed ∧
    ∀ l ∈ between, refersTo name l = true

theorem unbind_append (name : List Char) (pending : Option (List Char))
    (above below : List (List Char)) :
    unbind name pending (above ++ below) =
      unbind name pending above ++ unbind name (pendingAfter name pending above) below := by
  induction above generalizing pending with
  | nil => cases pending <;> rfl
  | cons line lines ih =>
    rw [List.cons_append, unbind_cons, unbind_cons, pendingAfter]
    split
    · exact ih _
    · rw [ih none, List.append_assoc]

theorem isSome_pendingAfter (name : List Char) (pending : Option (List Char))
    (lines : List (List Char)) :
    (pendingAfter name pending lines).isSome = true ↔
      (pending.isSome = true ∧ ∀ l ∈ lines, refersTo name l = true) ∨ EndsInWhere name lines := by
  have hcons : ∀ {line lines}, EndsInWhere name (line :: lines) ↔
      (LosesWhere name line ∧ ∀ l ∈ lines, refersTo name l = true) ∨ EndsInWhere name lines := by
    intro line lines
    constructor
    · rintro ⟨before, removed, between, heq, hloses, hbetween⟩
      cases before with
      | nil =>
        obtain ⟨rfl, rfl⟩ := List.cons.inj heq
        exact .inl ⟨hloses, hbetween⟩
      | cons b before =>
        exact .inr ⟨before, removed, between, (List.cons.inj heq).2, hloses, hbetween⟩
    · rintro (⟨hloses, hlines⟩ | ⟨before, removed, between, rfl, hloses, hbetween⟩)
      · exact ⟨[], line, lines, rfl, hloses, hlines⟩
      · exact ⟨line :: before, removed, between, rfl, hloses, hbetween⟩
  induction lines generalizing pending with
  | nil =>
    refine ⟨fun h => .inl ⟨h, fun l hl => absurd hl List.not_mem_nil⟩, ?_⟩
    rintro (⟨h, -⟩ | ⟨before, removed, between, heq, -⟩)
    · exact h
    · simp at heq
  | cons line lines ih =>
    rw [pendingAfter, hcons, List.forall_mem_cons]
    split
    · next hrefers =>
      refine (ih _).trans ?_
      rw [Option.isSome_or, Bool.or_eq_true, LosesWhere]
      tauto
    · next hrefers =>
      refine (ih _).trans ?_
      simp [LosesWhere, hrefers]

theorem isBlank_of_pendingAfter {name : List Char} {lines : List (List Char)}
    (hlines : ∀ line ∈ lines, '\n' ∉ line) {pending : Option (List Char)}
    (hpending : ∀ indent ∈ pending, ∀ d ∈ indent, isBlank d = true) :
    ∀ indent ∈ pendingAfter name pending lines, ∀ d ∈ indent, isBlank d = true := by
  induction lines generalizing pending with
  | nil => exact hpending
  | cons line lines ih =>
    obtain ⟨hline, hlines⟩ := List.forall_mem_cons.1 hlines
    rw [pendingAfter]
    split
    · refine ih hlines fun indent hindent d hd => ?_
      rcases Option.or_eq_some_iff.1 hindent with hwhere | ⟨-, hwhere⟩
      · exact (mem_indent_of_where? hline hwhere d hd).1
      · exact hpending indent hwhere d hd
    · exact ih hlines (by simp)

/-! ## The condition that follows -/

/-- What stands behind the brackets of an optional condition, or else the line without its
indentation. -/
def afterBrackets (line : List Char) : List Char :=
  if beginsWith "[[" line then trimStart ((trimStart line).drop 2) else trimStart line

/-- The line goes on with the conditions before it: its first word is AND, in any case. -/
def GoesOn (line : List Char) : Prop :=
  ∃ keyword rest, afterBrackets line = keyword ++ rest ∧
    sameCaseless keyword "AND".toList = true ∧ ∀ d ∈ rest.head?, Token.isWordChar d = false

/-- The condition is carried by a WHERE in the lines that stand for it. -/
inductive Carried (line : List Char) : List (List Char) → Prop
  /-- The filter has a WHERE for its AND. -/
  | filter {indent : List Char} {c : Clause} : (∀ d ∈ indent, isBlank d = true) →
      clause? line = some c → c.connective = .and_ → c.optional = false →
      Carried line [indent ++ Clause.render { c with connective := .where_ }]
  /-- So has the condition that is read no further than to its AND. -/
  | condition {indent blanks keyword rest : List Char} : (∀ d ∈ indent, isBlank d = true) →
      (∀ d ∈ blanks, isBlank d = true) → line = blanks ++ (keyword ++ rest) →
      sameCaseless keyword "AND".toList = true →
      Carried line [indent ++ ("WHERE".toList ++ rest)]
  /-- The condition in brackets has another one before it, which carries the WHERE. -/
  | optional {indent : List Char} : (∀ d ∈ indent, isBlank d = true) → beginsWith "[[" line = true →
      Carried line [alwaysLine indent, line]

/-- The condition is read as one that may carry a WHERE. -/
def MayCarry (line : List Char) : Prop :=
  (clause? line).isSome = true ∨ beginsWith "[[" line = true ∨
    sameCaseless (firstWord (trimStart line)) "AND".toList = true

theorem isIdentifierChars_of_and {keyword : List Char}
    (h : sameCaseless keyword "AND".toList = true) :
    isIdentifierChars keyword = true ∧ keyword.length = 3 := by
  have halpha : ∀ {c : Char}, c.toLower.isAlpha = true → c.isAlpha = true := by
    intro c hc
    rw [Char.toLower] at hc
    split at hc
    · next hupper =>
      rw [Char.isAlpha, Char.isUpper, decide_eq_true hupper]
      rfl
    · exact hc
  have hmap : keyword.map Char.toLower = ['a', 'n', 'd'] := by
    rw [sameCaseless, beq_iff_eq] at h
    exact h
  have hall : ∀ c ∈ keyword, c.isAlpha = true := by
    intro c hc
    have hlower : c.toLower ∈ keyword.map Char.toLower :=
      List.mem_map_of_mem (f := Char.toLower) hc
    rw [hmap] at hlower
    have hletters : ∀ d ∈ ['a', 'n', 'd'], d.isAlpha = true := by simp
    exact halpha (hletters _ hlower)
  have hlength : keyword.length = 3 := by
    have hlength := congrArg List.length hmap
    rwa [List.length_map] at hlength
  refine ⟨?_, hlength⟩
  cases keyword with
  | nil => cases hlength
  | cons c cs =>
    refine isIdentifierChars_iff.2 ⟨c, cs, rfl, ?_, fun d hd => ?_⟩
    · rw [isIdentifierStart, hall c List.mem_cons_self]
      rfl
    · rw [isIdentifierChar, Char.isAlphanum, hall d (List.mem_cons_of_mem c hd)]
      rfl

/-- What a line begins with is read as the connective of the clause that it is. -/
theorem connective_of_goesOn {line : List Char} (h : GoesOn line) {c : Clause}
    (hc : Clause.read? line = some c) : c.connective = .and_ := by
  obtain ⟨keyword, rest, hafter, hand, hrest⟩ := h
  obtain ⟨hkeyword, hlength⟩ := isIdentifierChars_of_and hand
  have hwhere : isKeyword "WHERE" keyword = false := by
    rw [isKeyword, sameCaseless, beq_eq_false_iff_ne]
    intro heq
    have hlengths := congrArg List.length heq
    rw [List.length_map, List.length_map, hlength] at hlengths
    cases hlengths
  have hconnective : ∀ {k ts us}, Connective.read? (.word keyword :: ts) = some (k, us) →
      k = .and_ := by
    intro k ts us hread
    have hand : isKeyword "AND" keyword = true := hand
    rw [Connective.read?, hwhere, hand, if_neg Bool.false_ne_true, if_pos rfl] at hread
    exact (Prod.mk.inj (Option.some.inj hread)).1.symm
  have htokens : tokenize (keyword ++ rest) = (tokenize rest).map (.word keyword :: ·) :=
    tokenize_word hkeyword hrest
  rw [Clause.read?, ← tokenize_trimStart] at hc
  obtain ⟨ts, hts, hc⟩ := Option.bind_eq_some_iff.1 hc
  obtain ⟨us, vs, rest', hus, hk, -⟩ := Clause.exists_of_ofTokens? hc
  unfold afterBrackets at hafter
  split at hafter
  · next hbrackets =>
    obtain ⟨inner, hinner⟩ := beginsWith_iff.1 hbrackets
    have hopen : tokenize ("[[".toList ++ inner) = (tokenize inner).map (.openOptional :: ·) :=
      tokenize_next (by decide) rfl
    have hdrop : (trimStart line).drop 2 = inner := by rw [hinner]; rfl
    rw [hdrop] at hafter
    rw [hinner, hopen, ← tokenize_trimStart, hafter, htokens, Option.map_map] at hts
    obtain ⟨more, -, rfl⟩ := Option.map_eq_some_iff.1 hts
    rcases hus with rfl | hus
    · cases hk
    · obtain rfl := (List.cons.inj hus).2
      exact hconnective hk
  · rw [hafter, htokens] at hts
    obtain ⟨more, -, rfl⟩ := Option.map_eq_some_iff.1 hts
    rcases hus with rfl | hus
    · exact hconnective hk
    · cases hus

/-- An optional filter begins with its brackets. -/
theorem beginsWith_of_optional {line : List Char} {c : Clause} (hc : Clause.read? line = some c)
    (hoptional : c.optional = true) : beginsWith "[[" line = true := by
  have hopen : ∀ {ts : List Token}, Clause.ofTokens? ts = some c →
      ∃ us, ts = .openOptional :: us := by
    intro ts h
    unfold Clause.ofTokens? at h
    split at h
    · exact ⟨_, rfl⟩
    · obtain ⟨⟨connective, after⟩, -, h⟩ := Option.bind_eq_some_iff.1 h
      obtain ⟨⟨p, rest⟩, -, h⟩ := Option.bind_eq_some_iff.1 h
      obtain ⟨-, rfl⟩ := by simpa using h
      cases hoptional
  rw [Clause.read?, ← tokenize_trimStart] at hc
  obtain ⟨ts, hts, hc⟩ := Option.bind_eq_some_iff.1 hc
  obtain ⟨us, rfl⟩ := hopen hc
  rw [beginsWith_iff]
  cases htrim : trimStart line with
  | nil =>
    rw [htrim, tokenize_nil] at hts
    cases hts
  | cons d rest =>
    have hblank : isBlank d = false := by
      have hhead := List.head?_dropWhile_not isBlank line
      rw [← trimStart, htrim] at hhead
      simpa using hhead
    cases hnext : Token.next? d rest with
    | none =>
      rw [htrim, tokenize_next_none hblank hnext] at hts
      cases hts
    | some ta =>
      obtain ⟨t, after⟩ := ta
      rw [htrim, tokenize_next hblank hnext] at hts
      obtain ⟨more, -, heq⟩ := Option.map_eq_some_iff.1 hts
      obtain rfl := (List.cons.inj heq).1
      obtain ⟨s, hs, hlexeme⟩ := Token.exists_lexeme hnext
      cases hlexeme
      exact ⟨after, hs⟩

theorem not_goesOn_where {indent : List Char} (hindent : ∀ d ∈ indent, isBlank d = true)
    (rest : List Char) : ¬GoesOn (indent ++ ("WHERE".toList ++ rest)) := by
  rintro ⟨keyword, more, hafter, hand, -⟩
  have htrim : trimStart (indent ++ ("WHERE".toList ++ rest)) = 'W' :: ("HERE".toList ++ rest) := by
    rw [trimStart_append hindent]
    exact List.dropWhile_cons_of_neg (by decide)
  have hbrackets : beginsWith "[[" (indent ++ ("WHERE".toList ++ rest)) = false := by
    rw [beginsWith, htrim]
    rfl
  rw [afterBrackets, hbrackets, if_neg Bool.false_ne_true, htrim] at hafter
  cases keyword with
  | nil => cases hand
  | cons c cs =>
    obtain rfl := (List.cons.inj hafter).1
    rw [sameCaseless, beq_iff_eq] at hand
    exact absurd (List.cons.inj hand).1 (by decide)

/-- A line that goes on with others does not carry a WHERE by itself. -/
theorem not_carried {line : List Char} (h : GoesOn line) : ¬Carried line [line] := by
  intro hcarried
  generalize hstands : [line] = stands at hcarried
  cases hcarried with
  | @filter indent c hindent hc hand hoptional =>
    obtain ⟨rfl, -⟩ := List.cons.inj hstands
    have hrender : Clause.render { c with connective := .where_ } =
        "WHERE".toList ++ ' ' :: c.predicate.render := by
      rw [Clause.render, hoptional]
      rfl
    rw [hrender] at h
    exact not_goesOn_where hindent _ h
  | condition hindent hblanks hline hkeyword =>
    obtain ⟨hline', -⟩ := List.cons.inj hstands
    rw [hline'] at h
    exact not_goesOn_where hindent _ h
  | optional => cases (List.cons.inj hstands).2

/-- What becomes of a condition that has to carry a WHERE. -/
theorem carryWhere_cases {line : List Char} (h : GoesOn line) {indent : List Char}
    (hindent : ∀ d ∈ indent, isBlank d = true) :
    (MayCarry line → Carried line (carryWhere indent line)) ∧
      (¬MayCarry line → carryWhere indent line = [line]) := by
  rw [MayCarry, carryWhere]
  cases hc : clause? line with
  | some c =>
    have hread := read?_of_clause? hc
    have hand := connective_of_goesOn h hread
    refine ⟨fun _ => ?_, fun hnot => absurd (.inl rfl) hnot⟩
    cases hoptional : c.optional with
    | true => simpa [hoptional] using .optional hindent (beginsWith_of_optional hread hoptional)
    | false =>
      have hfilter := Carried.filter hindent hc hand hoptional
      simpa [hoptional, hand] using hfilter
  | none =>
    dsimp only
    split
    · next hbrackets =>
      have hbrackets : beginsWith "[[" line = true := hbrackets
      exact ⟨fun _ => .optional hindent hbrackets, fun hnot => absurd (.inr (.inl hbrackets)) hnot⟩
    · next hbrackets =>
      have hbrackets : beginsWith "[[" line = false :=
        Bool.eq_false_of_not_eq_true hbrackets
      obtain ⟨keyword, rest, hafter, hkeyword, -⟩ := h
      rw [afterBrackets, hbrackets, if_neg Bool.false_ne_true] at hafter
      have hline : line = leadingBlanks line ++ (keyword ++ rest) := by
        rw [← hafter]
        exact (leadingBlanks_append_trimStart line).symm
      have hdrop : (trimStart line).drop 3 = rest := by
        rw [hafter, ← (isIdentifierChars_of_and hkeyword).2, List.drop_left]
      split
      · next hword =>
        refine ⟨fun _ => ?_, fun hnot => absurd (.inr (.inr hword)) hnot⟩
        rw [hdrop, List.append_assoc]
        exact .condition hindent isBlank_of_mem_leadingBlanks hline hkeyword
      · next hword =>
        refine ⟨fun hcarry => ?_, fun _ => rfl⟩
        rcases hcarry with hsome | hopen | hfirst
        · cases hsome
        · rw [hbrackets] at hopen
          cases hopen
        · exact absurd hfirst hword

/-! ## The text -/

/-- The first of the lines that stand for the condition begins with WHERE, also after a placeholder
has been replaced. -/
theorem Carried.exists_where {line : List Char} {stands : List (List Char)}
    (h : Carried line stands) (name r : List Char) :
    ∃ indent rest more, stands.map (Placeholder.replace name r) =
      (indent ++ ("WHERE".toList ++ rest)) :: more ∧ ∀ d ∈ indent, isBlank d = true := by
  have hreplace : ∀ {indent : List Char} (rest : List Char), (∀ d ∈ indent, isBlank d = true) →
      Placeholder.replace name r (indent ++ ("WHERE".toList ++ rest)) =
        indent ++ ("WHERE".toList ++ Placeholder.replace name r rest) := by
    intro indent rest hindent
    have hbrace : '\x7b' ∉ indent ++ "WHERE".toList := by
      rw [List.mem_append, not_or]
      exact ⟨fun hmem => ne_of_isBlank (hindent _ hmem) (by decide) rfl, by decide⟩
    rw [← List.append_assoc, Placeholder.replace_append_of_not_mem hbrace, List.append_assoc]
  cases h with
  | @filter indent c hindent hc hand hoptional =>
    have hrender : Clause.render { c with connective := .where_ } =
        "WHERE".toList ++ ' ' :: c.predicate.render := by
      rw [Clause.render, hoptional]
      rfl
    rw [hrender, List.map_cons, hreplace _ hindent]
    exact ⟨indent, _, _, rfl, hindent⟩
  | condition hindent =>
    rw [List.map_cons, hreplace _ hindent]
    exact ⟨_, _, _, rfl, hindent⟩
  | optional hindent =>
    have halways : ∀ indent : List Char,
        alwaysLine indent = indent ++ ("WHERE".toList ++ " 1 = 1".toList) := fun _ => rfl
    rw [List.map_cons, halways, hreplace _ hindent]
    exact ⟨_, _, _, rfl, hindent⟩

end TextLine

open TextLine (GoesOn Carried EndsInWhere MayCarry)

/-- A condition that goes on with others is carried by a WHERE, after the variable has been taken out,
if and only if the filter with the WHERE is taken out right before it, and the condition is read as
one that may carry it. Else its line stays. The WHERE is in the text, too: placeholders are replaced
behind it. -/
theorem carried_iff (sql : String) (v : Variable) {above below : List (List Char)}
    {line : List Char} (hlines : splitLines sql.toList = above ++ line :: below)
    (hkept : TextLine.refersTo v.name.toList line = false) (hand : GoesOn line) :
    ∃ stands lines, lines = TextLine.unbind v.name.toList none above ++ stands ++
        TextLine.unbind v.name.toList none below ∧
      (unbind sql v).toList =
        Placeholder.replace v.name.toList ['\'', '\''] (joinLines lines) ∧
      ((∀ l ∈ lines, leavesOpen l = false) → (unbind sql v).toList =
        joinLines (lines.map (Placeholder.replace v.name.toList ['\'', '\'']))) ∧
      (Carried line stands ↔ EndsInWhere v.name.toList above ∧ MayCarry line) ∧
      (Carried line stands → ∃ indent rest more,
        stands.map (Placeholder.replace v.name.toList ['\'', '\'']) =
          (indent ++ ("WHERE".toList ++ rest)) :: more ∧ ∀ d ∈ indent, isBlank d = true) ∧
      (¬Carried line stands → stands = [line]) := by
  have habove : ∀ l ∈ above, '\n' ∉ l := by
    intro l hl
    refine not_mem_of_mem_splitLines (?_ : l ∈ splitLines sql.toList)
    rw [hlines]
    exact List.mem_append_left _ hl
  have hblank : ∀ indent ∈ TextLine.pendingAfter v.name.toList none above,
      ∀ d ∈ indent, isBlank d = true := TextLine.isBlank_of_pendingAfter habove (by simp)
  have hends := TextLine.isSome_pendingAfter v.name.toList none above
  simp only [Option.isSome_none, Bool.false_eq_true, false_and, false_or] at hends
  have hunbind : TextLine.unbind v.name.toList none (splitLines sql.toList) =
      TextLine.unbind v.name.toList none above ++
        ((TextLine.pendingAfter v.name.toList none above).elim [line]
          fun indent => TextLine.carryWhere indent line) ++
        TextLine.unbind v.name.toList none below := by
    rw [hlines, TextLine.unbind_append, TextLine.unbind_cons, hkept, if_neg Bool.false_ne_true,
      List.append_assoc]
  have hstands : ∀ {stands : List (List Char)},
      stands = (TextLine.pendingAfter v.name.toList none above).elim [line]
        (fun indent => TextLine.carryWhere indent line) →
      (Carried line stands ↔ EndsInWhere v.name.toList above ∧ MayCarry line) ∧
        (¬Carried line stands → stands = [line]) := by
    rintro stands rfl
    rw [← hends]
    cases hpending : TextLine.pendingAfter v.name.toList none above with
    | none => exact ⟨⟨fun h => absurd h (TextLine.not_carried hand), fun h => by cases h.1⟩,
        fun _ => rfl⟩
    | some indent =>
      obtain ⟨hcarried, hleft⟩ := TextLine.carryWhere_cases hand (hblank indent hpending)
      refine ⟨⟨fun h => ⟨rfl, ?_⟩, fun h => hcarried h.2⟩, fun h => hleft fun hcarry =>
        h (hcarried hcarry)⟩
      by_contra hnot
      have hsame : TextLine.carryWhere indent line = [line] := hleft hnot
      exact TextLine.not_carried hand (hsame ▸ h)
  obtain ⟨hiff, hleft⟩ := hstands rfl
  have htext : (unbind sql v).toList = Placeholder.replace v.name.toList ['\'', '\'']
      (joinLines (TextLine.unbind v.name.toList none (splitLines sql.toList))) := by
    rw [unbind, String.toList_ofList]
  rw [hunbind] at htext
  exact ⟨_, _, rfl, htext, fun hclosed => htext.trans (Placeholder.replace_joinLines hclosed), hiff,
    fun h => h.exists_where _ _, hleft⟩

/-- A blank line takes the WHERE, and so does a comment; and a word that goes on with a parenthesis
does not take it. -/
theorem unbind_drops_where :
    unbind "WHERE \x7b\x7ba\x7d\x7d\n\n  AND x = 1" (.named "a" .text) = "\n  AND x = 1" ∧
      unbind "WHERE \x7b\x7ba\x7d\x7d\n-- b\n  AND x = 1" (.named "a" .text) =
        "-- b\n  AND x = 1" ∧
      unbind "WHERE \x7b\x7ba\x7d\x7d\nAND(x = 1 OR y = 2)" (.named "a" .text) =
        "AND(x = 1 OR y = 2)" := by
  refine ⟨by decide +kernel, by decide +kernel, by decide +kernel⟩

/-- The filter right behind the WHERE carries it. -/
theorem carried_iff_next : ∃ stands, Carried "  AND x = 1".toList stands ∧
    (unbind "WHERE \x7b\x7ba\x7d\x7d\n  AND x = 1" (.named "a" .text)).toList =
      Placeholder.replace "a".toList ['\'', '\''] (joinLines stands) := by
  have hlines : splitLines "WHERE \x7b\x7ba\x7d\x7d\n  AND x = 1".toList =
      ["WHERE \x7b\x7ba\x7d\x7d".toList] ++ "  AND x = 1".toList :: [] := by decide +kernel
  have hloses : TextLine.refersTo "a".toList "WHERE \x7b\x7ba\x7d\x7d".toList = true ∧
      (TextLine.where? "WHERE \x7b\x7ba\x7d\x7d".toList).isSome = true := by decide +kernel
  have hgoes : GoesOn "  AND x = 1".toList := by
    refine ⟨"AND".toList, " x = 1".toList, by decide +kernel, by decide, fun d hd => ?_⟩
    obtain rfl : ' ' = d := Option.some.inj hd
    decide
  have hclause : (TextLine.clause? "  AND x = 1".toList).isSome = true := by decide +kernel
  have habove : TextLine.unbind "a".toList none ["WHERE \x7b\x7ba\x7d\x7d".toList] = [] := by
    decide +kernel
  obtain ⟨stands, lines, rfl, htext, -, hiff, -⟩ :=
    carried_iff "WHERE \x7b\x7ba\x7d\x7d\n  AND x = 1" (.named "a" .text) hlines
      (by decide +kernel) hgoes
  have hcarried := hiff.2 ⟨⟨[], _, [], rfl, hloses, fun l hl => absurd hl List.not_mem_nil⟩,
    .inl hclause⟩
  refine ⟨stands, hcarried, ?_⟩
  have hbelow : TextLine.unbind (Variable.named "a" .text).name.toList none [] = [] := rfl
  rw [hbelow, List.append_nil] at htext
  exact htext.trans (congrArg (fun front => Placeholder.replace _ _ (joinLines (front ++ stands)))
    habove)

end EventReport.Dashboard
