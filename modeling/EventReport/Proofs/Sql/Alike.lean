/-
# Texts that differ in quoted texts only

Two texts are *alike* under a relation on users' texts when both are neat, both
have tokens, and the tokens agree one by one except where both are quoted texts
that the relation holds of.  A text that is alike to itself is, first of all, a
neat text with tokens; so one relation serves for what is said of a single run and
for what is said of two.

## Shape of the proof

The relation is compositional: it passes through every construct of a statement,
from the parts to the whole (the lemmas below, one for each construct).  Nothing
is unescaped anywhere.  A value is one quoted token whatever it holds, and at each
separator a token ends whatever stands on either side of it.
-/
import EventReport.Proofs.Sql.Literal
import EventReport.Proofs.Sql.Text

namespace EventReport

open Text Sql

/-- Two tokens are the same, or quoted texts that correspond. -/
def Token.Alike (S : String → String → Prop) (t u : Token) : Prop :=
  t = u ∨ ∃ s s', S s s' ∧ t = .quoted (quote s).toList ∧ u = .quoted (quote s').toList

/-- Two neat texts with tokens that agree but for corresponding quoted texts. -/
structure Alike (S : String → String → Prop) (as bs : List Char) : Prop where
  neat_left : isNeat as = true
  neat_right : isNeat bs = true
  tokens : ∃ ts us, tokenize as = some ts ∧ tokenize bs = some us ∧
    List.Forall₂ (Token.Alike S) ts us

/-- Two literals are the same, or texts that correspond. -/
def Sql.Literal.Alike (S : String → String → Prop) (l m : Literal) : Prop :=
  l = m ∨ ∃ s s', S s s' ∧ l = .text s ∧ m = .text s'

namespace Alike

variable {S : String → String → Prop} {as bs cs ds : List Char}

theorem tokens_refl (ts : List Token) : List.Forall₂ (Token.Alike S) ts ts := by
  induction ts with
  | nil => exact .nil
  | cons t ts ih => exact .cons (Or.inl rfl) ih

/-- A neat text with tokens is alike to itself. -/
theorem same {ts : List Token} (hn : isNeat as = true) (ht : tokenize as = some ts) :
    Alike S as as := ⟨hn, hn, ts, ts, ht, ht, tokens_refl ts⟩

/-- Whether a text is neat and has tokens. -/
def isFixed (cs : List Char) : Bool := isNeat cs && (tokenizeWithin cs.length cs).isSome

/-- A text that belongs to the statement; the hypothesis is computed. -/
theorem fixed (h : isFixed as = true) : Alike S as as := by
  obtain ⟨hn, ht⟩ := Bool.and_eq_true_iff.1 h
  obtain ⟨ts, hts⟩ := Option.isSome_iff_exists.1 ht
  exact same hn (tokenize_of_within hts)

theorem nil : Alike S [] [] := same (by decide) tokenize_nil

/-- Two texts in a row, with a separator that belongs to neither. -/
theorem sep {c : Char} (h : Alike S as bs) (hc : Token.isSolo c = true) (h' : Alike S cs ds) :
    Alike S (as ++ c :: cs) (bs ++ c :: ds) := by
  have hneat : isNeat [c] = true := by
    simp only [Token.isSolo, Bool.or_eq_true, beq_iff_eq] at hc
    rcases hc with ((rfl | rfl) | rfl) | rfl <;> decide
  obtain ⟨ts, us, hts, hus, htu⟩ := h.tokens
  obtain ⟨ts', us', hts', hus', htu'⟩ := h'.tokens
  refine ⟨isNeat_append h.neat_left (isNeat_append hneat h'.neat_left),
    isNeat_append h.neat_right (isNeat_append hneat h'.neat_right),
    ts ++ Token.solo c ++ ts', us ++ Token.solo c ++ us', ?_, ?_, ?_⟩
  · rw [tokenize_separated hts hc, hts']
    rfl
  · rw [tokenize_separated hus hc, hus']
    rfl
  · exact List.rel_append (List.rel_append htu (tokens_refl _)) htu'

/-- A separator in front. -/
theorem lead {c : Char} (hc : Token.isSolo c = true) (h : Alike S as bs) :
    Alike S (c :: as) (c :: bs) := nil.sep hc h

/-- A separator at the end. -/
theorem close {c : Char} (h : Alike S as bs) (hc : Token.isSolo c = true) :
    Alike S (as ++ c :: []) (bs ++ c :: []) := h.sep hc nil

theorem blank (h : Alike S as bs) : Alike S (' ' :: as) (' ' :: bs) := h.lead (by decide)

/-- A blank between. -/
theorem space (h : Alike S as bs) (h' : Alike S cs ds) :
    Alike S (as ++ ' ' :: cs) (bs ++ ' ' :: ds) := h.sep (by decide) h'

/-- A parenthesis between. -/
theorem paren (h : Alike S as bs) (h' : Alike S cs ds) :
    Alike S (as ++ '(' :: cs) (bs ++ '(' :: ds) := h.sep (by decide) h'

/-- A parenthesis at the end. -/
theorem closeParen (h : Alike S as bs) : Alike S (as ++ ')' :: []) (bs ++ ')' :: []) :=
  h.close (by decide)

/-- Parts with commas between them. -/
theorem commas {xs ys : List (List Char)} (h : List.Forall₂ (Alike S) xs ys) :
    Alike S (joined ", ".toList xs) (joined ", ".toList ys) := by
  induction h with
  | nil => exact nil
  | @cons x y xs ys hxy hrest ih =>
    cases hrest with
    | nil => exact hxy
    | @cons x' y' xs ys hxy' hrest =>
      rw [joined_cons_cons, joined_cons_cons, List.append_assoc, List.append_assoc]
      exact hxy.sep (by decide) ih.blank

/-- Parts in a conjunction. -/
theorem ands {xs ys : List (List Char)} (h : List.Forall₂ (Alike S) xs ys) :
    Alike S (joined " AND ".toList xs) (joined " AND ".toList ys) := by
  induction h with
  | nil => exact nil
  | @cons x y xs ys hxy hrest ih =>
    cases hrest with
    | nil => exact hxy
    | @cons x' y' xs ys hxy' hrest =>
      have hand : Alike S "AND".toList "AND".toList := fixed (by decide)
      rw [joined_cons_cons, joined_cons_cons, List.append_assoc, List.append_assoc]
      exact hxy.space (hand.space ih)

/-! ## Leaves -/

theorem identifier {w : List Char} (hw : isIdentifierChars w = true) : Alike S w w :=
  same (isNeat_identifier hw) (tokenize_identifier hw)

/-- A column of a relation. -/
theorem qualified {r w : List Char} (hr : isIdentifierChars r = true)
    (hw : isIdentifierChars w = true) : Alike S (r ++ '.' :: w) (r ++ '.' :: w) :=
  same (isNeat_append (isNeat_identifier hr) (isNeat_append (s := ['.']) (by decide)
    (isNeat_identifier hw))) (tokenize_qualified hr hw)

theorem table (name : String) : Alike S (quoteTable name).toList (quoteTable name).toList := by
  have h := tokenize_quoteTable name []
  rw [List.append_nil, tokenize_nil] at h
  exact same (isNeat_quoteTable name) h

theorem render {l m : Literal} (h : l.Alike S m) : Alike S l.render.toList m.render.toList := by
  rcases h with rfl | ⟨s, s', hs, rfl, rfl⟩
  · exact same l.isNeat_render l.tokenize_render
  · refine ⟨Literal.isNeat_render _, Literal.isNeat_render _, _, _, Literal.tokenize_render _,
      Literal.tokenize_render _, ?_⟩
    simp only [Literal.tokens]
    exact .cons (Or.inr ⟨s, s', hs, by rw [toList_quote], by rw [toList_quote]⟩) .nil

theorem number (n : Nat) : Alike S (toString n).toList (toString n).toList :=
  same (isUnsignedNumeral_nat n).isNeat (isUnsignedNumeral_nat n).tokenize_eq

/-! ## Columns -/

end Alike

/-- A column whose name, and relation if there is one, are identifiers. -/
def Sql.ColumnRef.IsPlain (c : ColumnRef) : Prop :=
  (c.relation = "" ∨ isIdentifier c.relation = true) ∧ isIdentifier c.name = true

theorem Sql.ColumnRef.chars_render {c : ColumnRef} (h : isIdentifier c.relation = true) :
    c.render.toList = c.relation.toList ++ '.' :: c.name.toList := by
  have hne : c.relation.isEmpty = false := by
    obtain ⟨d, ds, hd, -⟩ := isIdentifierChars_iff.1 (show isIdentifierChars c.relation.toList = true from h)
    rw [← Bool.not_eq_true, String.isEmpty_iff]
    intro hempty
    simp [hempty] at hd
  simp [render, hne]

namespace Alike

variable {S : String → String → Prop}

theorem columnRef {c : ColumnRef} (h : c.IsPlain) : Alike S c.render.toList c.render.toList := by
  obtain ⟨hr | hr, hname⟩ := h
  · have hrender : c.render = c.name := by simp [ColumnRef.render, hr]
    rw [hrender]
    exact identifier hname
  · rw [ColumnRef.chars_render hr]
    exact qualified hr hname

/-! ## Expressions -/

theorem column {c : ColumnRef} (h : c.IsPlain) :
    Alike S (Expr.column c).chars (Expr.column c).chars := by
  rw [Expr.chars_column]
  exact columnRef h

theorem literal {l m : Literal} (h : l.Alike S m) :
    Alike S (Expr.literal l).chars (Expr.literal m).chars := by
  rw [Expr.chars_literal, Expr.chars_literal]
  exact render h

theorem value {l m : Literal} (h : l.Alike S m) :
    Alike S (Expr.value l).chars (Expr.value m).chars := by
  rw [Expr.chars_value, Expr.chars_value]
  exact render h

variable {e f e' f' : Expr} {es fs : List Expr}

theorem compare (op : Comparison) (h : Alike S e.chars f.chars) (h' : Alike S e'.chars f'.chars) :
    Alike S (Expr.compare op e e').chars (Expr.compare op f f').chars := by
  have hop : Alike S op.symbol.toList op.symbol.toList := by
    cases op <;> exact fixed (by decide)
  rw [Expr.chars_compare, Expr.chars_compare]
  exact h.space (hop.space h')

theorem like (negated : Bool) (h : Alike S e.chars f.chars) (h' : Alike S e'.chars f'.chars) :
    Alike S (Expr.like e e' negated).chars (Expr.like f f' negated).chars := by
  have hop : Alike S (if negated then "NOT LIKE".toList else "LIKE".toList)
      (if negated then "NOT LIKE".toList else "LIKE".toList) := by
    cases negated <;> exact fixed (by decide)
  rw [Expr.chars_like, Expr.chars_like]
  exact h.space (hop.space h')

theorem map_chars (h : List.Forall₂ (fun e f : Expr => Alike S e.chars f.chars) es fs) :
    List.Forall₂ (Alike S) (es.map Expr.chars) (fs.map Expr.chars) := by
  rw [List.forall₂_map_left_iff, List.forall₂_map_right_iff]
  exact h

theorem among (h : Alike S e.chars f.chars)
    (hs : List.Forall₂ (fun e f : Expr => Alike S e.chars f.chars) es fs) :
    Alike S (Expr.among e es).chars (Expr.among f fs).chars := by
  have hin : Alike S "IN ".toList "IN ".toList := fixed (by decide)
  rw [Expr.chars_among, Expr.chars_among]
  exact h.space (hin.paren (commas (map_chars hs)).closeParen)

theorem all (hs : List.Forall₂ (fun e f : Expr => Alike S e.chars f.chars) es fs) :
    Alike S (Expr.all es).chars (Expr.all fs).chars := by
  cases hs with
  | nil => exact fixed (by decide)
  | cons h hs =>
    rw [Expr.chars_all (by simp), Expr.chars_all (by simp)]
    exact ands (map_chars (.cons h hs))

theorem isNull (h : Alike S e.chars f.chars) :
    Alike S (Expr.isNull e).chars (Expr.isNull f).chars := by
  rw [Expr.chars_isNull, Expr.chars_isNull]
  exact h.space (fixed (by decide))

theorem isNotNull (h : Alike S e.chars f.chars) :
    Alike S (Expr.isNotNull e).chars (Expr.isNotNull f).chars := by
  rw [Expr.chars_isNotNull, Expr.chars_isNotNull]
  exact h.space (fixed (by decide))

theorem choose_one (h : Alike S e.chars f.chars) (h' : Alike S e'.chars f'.chars) :
    Alike S (Expr.choose [(e, e')] none).chars (Expr.choose [(f, f')] none).chars := by
  have hcase : Alike S "CASE WHEN".toList "CASE WHEN".toList := fixed (by decide)
  have hthen : Alike S "THEN".toList "THEN".toList := fixed (by decide)
  have hend : Alike S "END".toList "END".toList := fixed (by decide)
  rw [Expr.chars_choose_one, Expr.chars_choose_one]
  exact hcase.space (h.space (hthen.space (h'.space hend)))

theorem call {function : String} (hf : isIdentifier function = true)
    (hs : List.Forall₂ (fun e f : Expr => Alike S e.chars f.chars) es fs) :
    Alike S (Expr.call function es).chars (Expr.call function fs).chars := by
  have hname : Alike S function.toList function.toList := identifier hf
  rw [Expr.chars_call, Expr.chars_call]
  exact hname.paren (commas (map_chars hs)).closeParen

theorem cast {type : String} (ht : isIdentifier type = true) (h : Alike S e.chars f.chars) :
    Alike S (Expr.cast e type).chars (Expr.cast f type).chars := by
  have hcast : Alike S "CAST".toList "CAST".toList := fixed (by decide)
  have has : Alike S "AS".toList "AS".toList := fixed (by decide)
  have htype : Alike S type.toList type.toList := identifier ht
  rw [Expr.chars_cast, Expr.chars_cast]
  exact hcast.paren (h.space (has.space htype.closeParen))

theorem countRows : Alike S Expr.countRows.chars Expr.countRows.chars := fixed (by decide)

end Alike

/-- What an aggregate refers to besides its argument is plain. -/
def Sql.Aggregation.IsPlain : Aggregation → Prop
  | .firstText orderBy => orderBy.IsPlain
  | _ => True

namespace Alike

variable {S : String → String → Prop} {e f : Expr}

theorem aggregate {g : Aggregation} (hg : g ≠ .countRows) (hplain : g.IsPlain)
    (h : Alike S e.chars f.chars) :
    Alike S (Expr.aggregate g (some e)).chars (Expr.aggregate g (some f)).chars := by
  have hopening : Alike S g.opening.1.toList g.opening.1.toList ∧
      Token.isSolo g.opening.2 = true := by
    cases g with
    | firstText orderBy =>
      have hopen : isFixed "STRING_AGG".toList = true := by decide
      exact ⟨fixed hopen, rfl⟩
    | _ => exact ⟨fixed (by decide), by decide⟩
  have hclosing : Alike S g.closing.2 g.closing.2 ∧ Token.isSolo g.closing.1 = true := by
    cases g with
    | firstText orderBy =>
      have horder : Alike S "',' ORDER BY".toList "',' ORDER BY".toList :=
        fixed (by decide)
      have hlimit : Alike S "LIMIT 1".toList "LIMIT 1".toList := fixed (by decide)
      exact ⟨(horder.space ((columnRef hplain).space hlimit.closeParen)).blank, rfl⟩
    | _ => exact ⟨fixed (by decide), by decide⟩
  rw [Expr.chars_aggregate hg, Expr.chars_aggregate hg]
  exact hopening.1.sep hopening.2 (h.sep hclosing.2 hclosing.1)

theorem hasRow (negated : Bool) (table : String) {relation : String}
    (hr : isIdentifier relation = true) {es fs : List Expr}
    (hs : List.Forall₂ (fun e f : Expr => Alike S e.chars f.chars) es fs) :
    Alike S (Expr.hasRow negated table relation es).chars
      (Expr.hasRow negated table relation fs).chars := by
  have hexists : Alike S (if negated then "NOT EXISTS ".toList else "EXISTS ".toList)
      (if negated then "NOT EXISTS ".toList else "EXISTS ".toList) := by
    cases negated <;> exact fixed (by decide)
  have hfrom : Alike S "SELECT 1 FROM".toList "SELECT 1 FROM".toList := fixed (by decide)
  have hwhere : Alike S "WHERE".toList "WHERE".toList := fixed (by decide)
  have hrelation : Alike S relation.toList relation.toList := identifier hr
  rw [Expr.chars_hasRow, Expr.chars_hasRow]
  have hconditions := (ands (map_chars hs)).closeParen
  exact hexists.paren (hfrom.space ((Alike.table table).space
    (hrelation.space (hwhere.space hconditions))))

end Alike

end EventReport
