/-
# Filters on lines, and what a variable does to them

A variable works on a statement line by line.  A line that goes on with the filters
before it is known by its first word (`isFilter`), and so is the line that a block
of filters begins with (`isWhere`).

## What is proved

A filter whose literal gives way to a placeholder is a filter of the same kind, and
its line is neat (`isFilter_boundLine`).  A line that is quiet is never bound and
never taken out (`IsQuiet`); headers, select lists and the conditions on the website
are quiet, whatever stands behind their first words.  Where every WHERE is quiet,
to take out a variable is to leave out lines (`unbind_eq_filter`).
-/
import EventReport.Dashboard.Binding
import EventReport.Proofs.Clause.Rereading

namespace EventReport.Dashboard

open Text
open Token (isKeyword)

/-! ## First words -/

/-- Whether the line begins, after its indentation, with the text. -/
def beginsWith (text : String) (line : List Char) : Bool := text.toList.isPrefixOf (trimStart line)

/-- Whether the line is a filter that goes on with the filters before it. -/
def isFilter (line : List Char) : Bool := beginsWith "AND " line || beginsWith "[[AND " line

/-- Whether the line is the one that a block of filters begins with. -/
def isWhere (line : List Char) : Bool := beginsWith "WHERE " line

/-- What a filter that goes on with others begins with. -/
def opener (optional : Bool) : String := if optional then "[[AND " else "AND "

def isIndented (line : List Char) : Bool := line.head?.any isBlank

theorem beginsWith_iff {text : String} {line : List Char} :
    beginsWith text line = true ↔ ∃ rest, trimStart line = text.toList ++ rest := by
  rw [beginsWith, List.isPrefixOf_iff_prefix]
  constructor
  · rintro ⟨rest, h⟩
    exact ⟨rest, h.symm⟩
  · rintro ⟨rest, h⟩
    exact ⟨rest, h.symm⟩

theorem trimStart_append {b : List Char} (hb : ∀ c ∈ b, isBlank c = true) (cs : List Char) :
    trimStart (b ++ cs) = trimStart cs := by
  rw [trimStart, trimStart, List.dropWhile_append, List.dropWhile_eq_nil_iff.2 hb]
  rfl

theorem isBlank_of_mem_replicate (n : Nat) : ∀ c ∈ List.replicate n ' ', isBlank c = true := by
  intro c hc
  rw [List.eq_of_mem_replicate hc]
  decide

theorem isBlank_of_mem_leadingBlanks {line : List Char} :
    ∀ c ∈ leadingBlanks line, isBlank c = true := fun _ hc => List.mem_takeWhile_imp hc

/-- A line and its indentation. -/
theorem exists_of_beginsWith {text : String} {line : List Char} (h : beginsWith text line = true) :
    ∃ rest, line = leadingBlanks line ++ (text.toList ++ rest) := by
  obtain ⟨rest, hrest⟩ := beginsWith_iff.1 h
  refine ⟨rest, ?_⟩
  rw [← hrest]
  exact (leadingBlanks_append_trimStart line).symm

theorem beginsWith_append {b : List Char} (hb : ∀ c ∈ b, isBlank c = true) {c : Char}
    {text : String} {cs : List Char} (htext : text.toList = c :: cs) (hc : isBlank c = false)
    (rest : List Char) : beginsWith text (b ++ (text.toList ++ rest)) = true := by
  refine beginsWith_iff.2 ⟨rest, ?_⟩
  rw [trimStart_append hb, htext, trimStart, List.cons_append,
    List.dropWhile_cons_of_neg (by simp [hc])]

theorem ne_of_isBlank {c d : Char} (hc : isBlank c = true) (hd : isBlank d = false) : c ≠ d := by
  rintro rfl
  rw [hc] at hd
  cases hd

/-- An inert line begins with no connective. -/
theorem beginsWith_of_isInert {line : List Char} (h : isInert line = true) {w : String}
    (hw : isIdentifier w = true) (hopens : (Token.word w.toList).opensClause = true) :
    beginsWith (w ++ " ") line = false := by
  rw [← Bool.not_eq_true]
  intro hbegins
  obtain ⟨rest, hrest⟩ := beginsWith_iff.1 hbegins
  obtain ⟨c, cs, hchars, hc, hcs⟩ := isIdentifierChars_iff.1 hw
  have hne : c ≠ ')' :=
    ne_of_isIdentifierChar (isIdentifierChar_of_isIdentifierStart hc) (by decide)
  have hword : (cs ++ ' ' :: rest).takeWhile Token.isWordChar = cs := by
    rw [List.takeWhile_append_of_pos fun d hd => isWordChar_of_isIdentifierChar (hcs d hd),
      List.takeWhile_cons_of_neg (by decide), List.append_nil]
  have hline : trimStart line = c :: (cs ++ ' ' :: rest) := by
    rw [hrest, String.toList_append, hchars]
    simp
  rw [isInert, hline] at h
  rw [hchars] at hopens
  simp [hne, hc, hword, hopens] at h

theorem isFilter_of_isInert {line : List Char} (h : isInert line = true) :
    isFilter line = false := by
  have hand : beginsWith "AND " line = false :=
    beginsWith_of_isInert (w := "AND") h (by decide) (by decide)
  have hoptional : beginsWith "[[AND " line = false := by
    rw [← Bool.not_eq_true]
    intro hbegins
    obtain ⟨rest, hrest⟩ := beginsWith_iff.1 hbegins
    have hopen : isIdentifierStart '[' = false := by decide
    rw [isInert, hrest] at h
    simp [hopen] at h
  rw [isFilter, hand, hoptional]
  rfl

theorem isWhere_of_isInert {line : List Char} (h : isInert line = true) : isWhere line = false :=
  beginsWith_of_isInert (w := "WHERE") h (by decide) (by decide)

/-! ## Filters -/

/-- A filter that is read as a clause goes on with the filters before it. -/
theorem connective_of_isFilter {line : List Char} (h : isFilter line = true) {c : Clause}
    (hc : Clause.read? line = some c) : c.connective = .and_ := by
  have hwhere : isKeyword "WHERE" "AND".toList = false := by decide
  have hkeyword : isKeyword "AND" "AND".toList = true := by decide
  have hconnective : ∀ {ts k us}, Connective.read? (.word "AND".toList :: ts) = some (k, us) →
      k = .and_ := by
    intro ts k us hread
    rw [Connective.read?, hwhere, hkeyword, if_neg (by decide), if_pos rfl] at hread
    exact (Prod.mk.inj (Option.some.inj hread)).1.symm
  have htokens : ∀ rest, tokenize ("AND ".toList ++ rest) =
      (tokenize rest).map (.word "AND".toList :: ·) := by
    intro rest
    have hword : isIdentifierChars "AND".toList = true := by decide
    have hnext : ∀ d ∈ (' ' :: rest).head?, Token.isWordChar d = false := by
      intro d hd
      obtain rfl := Option.some.inj hd
      decide
    have h := tokenize_word hword hnext
    rw [tokenize_blank rest (by decide)] at h
    exact h
  rw [Clause.read?, ← tokenize_trimStart] at hc
  obtain ⟨ts, hts, hc⟩ := Option.bind_eq_some_iff.1 hc
  obtain ⟨us, vs, rest', hus, hk, -⟩ := Clause.exists_of_ofTokens? hc
  rw [isFilter, Bool.or_eq_true] at h
  rcases h with h | h
  · obtain ⟨rest, hrest⟩ := beginsWith_iff.1 h
    rw [hrest, htokens] at hts
    obtain ⟨more, -, rfl⟩ := Option.map_eq_some_iff.1 hts
    rcases hus with rfl | hus
    · exact hconnective hk
    · cases hus
  · obtain ⟨rest, hrest⟩ := beginsWith_iff.1 h
    have hopen : tokenize ("[[AND ".toList ++ rest) =
        (tokenize ("AND ".toList ++ rest)).map (.openOptional :: ·) :=
      tokenize_next (by decide) rfl
    rw [hrest, hopen, htokens, Option.map_map] at hts
    obtain ⟨more, -, rfl⟩ := Option.map_eq_some_iff.1 hts
    rcases hus with rfl | hus
    · cases hk
    · obtain rfl := (List.cons.inj hus).2
      exact hconnective hk

/-- A filter that does not begin at the margin, so that it begins no clause of the outermost
statement. -/
structure IsInnerFilter (line : List Char) : Prop where
  isFilter : isFilter line = true
  isIndented : isIndented line = true

theorem isIndented_append {b : List Char} (hb : ∀ c ∈ b, isBlank c = true) (hne : b ≠ [])
    (cs : List Char) : isIndented (b ++ cs) = true := by
  cases b with
  | nil => exact absurd rfl hne
  | cons c b => simp [isIndented, hb c List.mem_cons_self]

theorem leadingBlanks_ne_nil {line : List Char} (h : isIndented line = true) :
    leadingBlanks line ≠ [] := by
  cases line with
  | nil => cases h
  | cons c cs =>
    have hc : isBlank c = true := by simpa [isIndented] using h
    rw [leadingBlanks, List.takeWhile_cons_of_pos hc]
    exact List.cons_ne_nil _ _

namespace IsInnerFilter

theorem of_append {b : List Char} (hb : ∀ c ∈ b, isBlank c = true) (hne : b ≠ [])
    (optional : Bool) (rest : List Char) :
    IsInnerFilter (b ++ ((opener optional).toList ++ rest)) := by
  refine ⟨?_, isIndented_append hb hne _⟩
  rw [Dashboard.isFilter, Bool.or_eq_true]
  cases optional with
  | true =>
    have hopening : "[[AND ".toList = '[' :: "[AND ".toList := rfl
    exact .inr (beginsWith_append hb hopening (by decide) rest)
  | false =>
    have hopening : "AND ".toList = 'A' :: "ND ".toList := rfl
    exact .inl (beginsWith_append hb hopening (by decide) rest)

/-- What a filter begins with. -/
theorem exists_eq {line : List Char} (h : IsInnerFilter line) :
    ∃ (optional : Bool) (rest : List Char),
      line = leadingBlanks line ++ ((opener optional).toList ++ rest) := by
  have hfilter := h.isFilter
  rw [Dashboard.isFilter, Bool.or_eq_true] at hfilter
  rcases hfilter with hand | hand
  · obtain ⟨rest, hrest⟩ := exists_of_beginsWith hand
    exact ⟨false, rest, hrest⟩
  · obtain ⟨rest, hrest⟩ := exists_of_beginsWith hand
    exact ⟨true, rest, hrest⟩

theorem patched {r line revised : List Char} (h : IsInnerFilter line)
    (hpatched : Placeholder.Patched r line revised) : IsInnerFilter revised := by
  obtain ⟨optional, rest, hrest⟩ := h.exists_eq
  have hblanks : ∀ c ∈ leadingBlanks line, isBlank c = true := isBlank_of_mem_leadingBlanks
  have hbrace : '\x7b' ∉ leadingBlanks line ++ (opener optional).toList := by
    rw [List.mem_append, not_or]
    refine ⟨fun hmem => ne_of_isBlank (hblanks _ hmem) (by decide) rfl, ?_⟩
    cases optional <;> decide
  rw [hrest, ← List.append_assoc] at hpatched
  obtain ⟨es, rfl, -⟩ := Placeholder.Patched.of_append hbrace hpatched
  rw [List.append_assoc]
  exact of_append hblanks (leadingBlanks_ne_nil h.isIndented) optional es

end IsInnerFilter

/-! ## Binding -/

theorem body_eq_self {line : List Char} (h : line.getLast? ≠ some '\r') :
    TextLine.body line = line := by
  have hdrop : line.reverse.dropWhile (· == '\r') = line.reverse := by
    rw [← List.head?_reverse] at h
    cases hrev : line.reverse with
    | nil => rfl
    | cons c cs =>
      rw [hrev, List.head?_cons, ne_eq, Option.some.injEq] at h
      rw [List.dropWhile_cons_of_neg (by simpa using h)]
  rw [TextLine.body, hdrop, List.reverse_reverse]

theorem body_of_isNeat {line : List Char} (h : isNeat line = true) : TextLine.body line = line := by
  refine body_eq_self fun hlast => ?_
  exact absurd (isControl_of_isNeat h (List.mem_of_getLast? hlast)) (by decide)

theorem clause?_of_isNeat {line : List Char} (h : isNeat line = true) :
    TextLine.clause? line = Clause.read? line := by
  rw [TextLine.clause?, body_of_isNeat h]

theorem isNeat_leadingBlanks {line : List Char} (h : isNeat line = true) :
    isNeat (leadingBlanks line) = true := by
  refine isNeat_of_forall fun c hc => ?_
  have hmem : c ∈ line := (List.takeWhile_sublist _).subset hc
  exact ⟨isControl_of_isNeat h hmem,
    ne_of_isBlank (isBlank_of_mem_leadingBlanks c hc) (by decide)⟩

theorem isNeat_predicate {v : Variable} (hv : isIdentifier v.name = true) {column : ColumnName}
    (hcolumn : isNeat column.spelling = true) : isNeat (v.predicate column).render = true := by
  have hwrite : isNeat (Placeholder.write v.name.toList) = true := isNeat_write hv
  have hequals : isNeat " = ".toList = true := by decide
  unfold Variable.predicate
  cases v.kind with
  | fieldFilter target => exact hwrite
  | text => exact isNeat_append (isNeat_append hcolumn hequals) hwrite
  | number => exact isNeat_append (isNeat_append hcolumn hequals) hwrite
  | date =>
    have hdate : isNeat "DATE(".toList = true := by decide
    have hclose : isNeat ") = ".toList = true := by decide
    exact isNeat_append (isNeat_append (isNeat_append hdate hcolumn) hclose) hwrite

/-- The text of a clause that goes on with the filters before it. -/
theorem render_and (optional : Bool) (p : Predicate) :
    ∃ rest, Clause.render ⟨.and_, optional, p⟩ =
        (opener optional).toList ++ rest ∧
      (isNeat p.render = true → isNeat rest = true) := by
  cases optional with
  | true =>
    refine ⟨p.render ++ "]]".toList, ?_, fun h => isNeat_append h (by decide)⟩
    simp [Clause.render, Connective.keyword, opener]
  | false =>
    refine ⟨p.render, ?_, id⟩
    simp [Clause.render, Connective.keyword, opener]

theorem isNeat_opener (optional : Bool) :
    isNeat (opener optional).toList = true := by
  cases optional <;> decide

/-- A filter that is bound is a filter with the same indentation. -/
theorem isFilter_boundLine {v : Variable} (hv : isIdentifier v.name = true)
    {line bound : List Char} (hfilter : IsInnerFilter line) (hneat : isNeat line = true)
    (h : v.boundLine? line = some bound) : IsInnerFilter bound ∧ isNeat bound = true := by
  unfold Variable.boundLine? at h
  rw [clause?_of_isNeat hneat] at h
  obtain ⟨c, hc, h⟩ := Option.bind_eq_some_iff.1 h
  obtain ⟨column, hcolumn, h⟩ := Option.bind_eq_some_iff.1 h
  split at h
  · obtain rfl := Option.some.inj h
    obtain ⟨connective, optional, p⟩ := c
    obtain rfl : connective = .and_ := connective_of_isFilter hfilter.isFilter hc
    obtain ⟨rest, hrest, hneatRest⟩ := render_and optional (v.predicate column)
    have hblanks : ∀ c ∈ leadingBlanks line, isBlank c = true := isBlank_of_mem_leadingBlanks
    have hspelling := isNeat_literalColumn hneat hc hcolumn
    have hrestNeat := hneatRest (isNeat_predicate hv hspelling)
    rw [TextLine.indent, body_of_isNeat hneat, hrest]
    exact ⟨.of_append hblanks (leadingBlanks_ne_nil hfilter.isIndented) optional rest,
      isNeat_append (isNeat_leadingBlanks hneat)
        (isNeat_append (isNeat_opener optional) hrestNeat)⟩
  · cases h

/-- The filter that is added is an optional one. -/
theorem isFilter_addedLine {v : Variable} (hv : isIdentifier v.name = true) :
    IsInnerFilter v.addedLine ∧ isNeat v.addedLine = true := by
  have hfilter : ∀ p : Predicate, IsInnerFilter ("  ".toList ++ Clause.render ⟨.and_, true, p⟩) := by
    intro p
    obtain ⟨rest, hrest, -⟩ := render_and true p
    rw [hrest]
    exact .of_append (isBlank_of_mem_replicate 2) (by decide) true rest
  refine ⟨hfilter _, ?_⟩
  have hpredicate : isNeat (v.predicate ⟨baseName.toList ++ '.' :: v.targetColumn.toList⟩).render =
      true := by
    have hname := isNeat_identifier hv
    have hbase : isNeat (baseName.toList ++ ['.']) = true := by decide
    have htime : isNeat Registry.defaultTimestampField.toList = true :=
      isNeat_identifier (by decide)
    unfold Variable.targetColumn
    cases hk : v.kind with
    | text =>
      refine isNeat_predicate hv ?_
      simpa using isNeat_append hbase hname
    | number =>
      refine isNeat_predicate hv ?_
      simpa using isNeat_append hbase hname
    | date =>
      refine isNeat_predicate hv ?_
      simpa using isNeat_append hbase htime
    | fieldFilter target =>
      unfold Variable.predicate
      rw [hk]
      exact isNeat_write hv
  obtain ⟨rest, hrest, hneat⟩ := render_and true
    (v.predicate ⟨baseName.toList ++ '.' :: v.targetColumn.toList⟩)
  rw [Variable.addedLine, hrest]
  exact isNeat_append (by decide) (isNeat_append (isNeat_opener true) (hneat hpredicate))

/-! ## Lines that are left alone -/

/-- A line that is not one more filter, and whose clause, if it is one, is neither bound nor taken
out. -/
structure IsQuiet (line : List Char) : Prop where
  isFilter : isFilter line = false
  placeholder : ∀ c, Clause.read? line = some c → c.predicate.placeholder? = none
  column : ∀ c column, Clause.read? line = some c →
    c.predicate.literalColumn? = some column → column.isNamed scopeColumn.toList = true

namespace IsQuiet

variable {line other : List Char}

theorem of_read? (hfilter : Dashboard.isFilter line = false) (h : Clause.read? line = none) :
    IsQuiet line where
  isFilter := hfilter
  placeholder := by
    intro c hc
    rw [h] at hc
    cases hc
  column := by
    intro c column hc
    rw [h] at hc
    cases hc

theorem of_isInert (h : isInert line = true) : IsQuiet line :=
  .of_read? (isFilter_of_isInert h) (read?_of_isInert h)

theorem boundLine? (h : IsQuiet line) (hneat : isNeat line = true) (v : Variable) :
    v.boundLine? line = none := by
  rw [← Option.not_isSome_iff_eq_none]
  intro hsome
  obtain ⟨bound, hbound⟩ := Option.isSome_iff_exists.1 hsome
  unfold Variable.boundLine? at hbound
  rw [clause?_of_isNeat hneat] at hbound
  obtain ⟨c, hc, hbound⟩ := Option.bind_eq_some_iff.1 hbound
  obtain ⟨column, hcolumn, hbound⟩ := Option.bind_eq_some_iff.1 hbound
  simp [h.column c column hc hcolumn] at hbound

theorem refersTo (h : IsQuiet line) (hneat : isNeat line = true) (name : List Char) :
    TextLine.refersTo name line = false := by
  rw [TextLine.refersTo, clause?_of_isNeat hneat]
  cases hc : Clause.read? line with
  | none => rfl
  | some c => simp [h.placeholder c hc]

/-- A line that can only be a comparison of the website's column with a literal. -/
theorem of_comparison {p : String} {us : List Token} {c : ColumnName}
    (hfilter : Dashboard.isFilter (p.toList ++ ' ' :: '\'' :: other) = false)
    (htokens : tokenize p.toList = some (.word "WHERE".toList :: us))
    (hread : ∀ q ts, Predicate.read? (us ++ .quoted q :: ts) = some (.equals c q, ts))
    (hcolumn : c.isNamed scopeColumn.toList = true) :
    IsQuiet (p.toList ++ ' ' :: '\'' :: other) := by
  have hclause : ∀ d, Clause.read? (p.toList ++ ' ' :: '\'' :: other) = some d →
      ∃ q, d.predicate = .equals c q := by
    intro d hc
    obtain ⟨ts, hts, hc⟩ := Option.bind_eq_some_iff.1 hc
    have hsolo : Token.solo ' ' = [] := rfl
    rw [tokenize_separated htokens (by decide), hsolo, List.append_nil] at hts
    obtain ⟨more, hmore, rfl⟩ := Option.map_eq_some_iff.1 hts
    have hquoted : ∃ q rest, more = .quoted q :: rest := by
      cases hnext : Token.next? '\'' other with
      | none =>
        rw [tokenize_next_none (by decide) hnext] at hmore
        cases hmore
      | some ta =>
        obtain ⟨t, after⟩ := ta
        rw [tokenize_next (by decide) hnext] at hmore
        obtain ⟨rest, -, rfl⟩ := Option.map_eq_some_iff.1 hmore
        unfold Token.next? at hnext
        rw [if_pos (.inl rfl)] at hnext
        obtain ⟨⟨b, a⟩, -, he⟩ := Option.map_eq_some_iff.1 hnext
        obtain ⟨rfl, -⟩ := by simpa using he
        exact ⟨_, rest, rfl⟩
    obtain ⟨q, rest, rfl⟩ := hquoted
    obtain ⟨vs, ws, rest', hvs, hk, hp⟩ := Clause.exists_of_ofTokens? hc
    have hwhere : isKeyword "WHERE" "WHERE".toList = true := by decide
    rcases hvs with rfl | hvs
    · rw [List.cons_append, Connective.read?, if_pos hwhere] at hk
      obtain rfl := (Prod.mk.inj (Option.some.inj hk)).2
      rw [hread] at hp
      exact ⟨q, (Prod.mk.inj (Option.some.inj hp)).1.symm⟩
    · cases hvs
  refine ⟨hfilter, fun d hd => ?_, fun d column hd hcol => ?_⟩
  · obtain ⟨q, hq⟩ := hclause d hd
    rw [hq]
    rfl
  · obtain ⟨q, hq⟩ := hclause d hd
    rw [hq] at hcol
    obtain rfl := Option.some.inj hcol
    exact hcolumn

end IsQuiet

/-! ## Taking out a variable -/

theorem where?_of_isFilter {line : List Char} (h : isFilter line = true)
    (hneat : isNeat line = true) : TextLine.where? line = none := by
  rw [TextLine.where?, clause?_of_isNeat hneat]
  cases hc : Clause.read? line with
  | none => rfl
  | some c =>
    have hand := connective_of_isFilter h hc
    simp [hand]

/-- Where no line with the placeholder has a WHERE, lines are left out and that is all. -/
theorem unbind_eq_filter {name : List Char} {lines : List (List Char)}
    (h : ∀ line ∈ lines, TextLine.refersTo name line = true → TextLine.where? line = none) :
    TextLine.unbind name none lines = lines.filter fun line => !TextLine.refersTo name line := by
  induction lines with
  | nil => rfl
  | cons line lines ih =>
    have ih := ih fun l hl => h l (List.mem_cons_of_mem line hl)
    rw [TextLine.unbind]
    split
    · next hrefers =>
      rw [h line List.mem_cons_self hrefers, List.filter_cons_of_neg (by simp [hrefers])]
      exact ih
    · next hrefers =>
      rw [List.filter_cons_of_pos (by simpa using hrefers), ih]

end EventReport.Dashboard
