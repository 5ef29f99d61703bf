/-
# The two texts of a statement have the same fragments

A statement is written twice: once with the users' values in place, once with a
numbered parameter in the place of each.  The two texts are the same query when
there are fixed fragments, one more than parameters, such that either text is
these fragments with the values, or with the parameters, between them.

## What is proved

`sharedFragments_of_countsPlainly`: every statement has such fragments, provided
no row count in it carries an argument.  A row count does not show its argument,
but a value in that argument is counted among the parameters all the same; such
a value would have a parameter that the text never mentions.

The proof goes through the pieces.  Both texts read the same pieces in the same
order, so all that must be seen of the tree is that its pieces are all shown,
which is an induction over expressions and one over statements.
-/
import EventReport.Sql.Statement

namespace EventReport.Sql

/-! ## Weaving -/

namespace Piece

/-- Whether the piece shows in the text. -/
def isShown : Piece → Bool
  | unshown _ => false
  | _ => true

/-- Puts a text before the first fragment. -/
def prepend (cs : List Char) : List (List Char) → List (List Char)
  | [] => [cs]
  | f :: fs => (cs ++ f) :: fs

section Shown

variable {ps : List Piece}

end Shown

theorem shown_append {ps qs : List Piece} (hp : ∀ p ∈ ps, p.isShown = true)
    (hq : ∀ p ∈ qs, p.isShown = true) : ∀ p ∈ ps ++ qs, p.isShown = true := by
  intro p h
  rcases List.mem_append.1 h with h | h
  · exact hp p h
  · exact hq p h

theorem shown_cons {q : Piece} {ps : List Piece} (hq : q.isShown = true)
    (hp : ∀ p ∈ ps, p.isShown = true) : ∀ p ∈ q :: ps, p.isShown = true := by
  intro p h
  rcases List.mem_cons.1 h with rfl | h
  · exact hq
  · exact hp p h

/-- A fixed text is shown. -/
theorem shown_fixed (s : String) : ∀ p ∈ [fixed s], p.isShown = true :=
  shown_cons rfl (by simp)

theorem separated_cons_cons (s : String) (a b : List Piece) (parts : List (List Piece)) :
    separated s (a :: b :: parts) = a ++ fixed s :: separated s (b :: parts) := by
  simp [separated, List.intercalate]

theorem shown_separated (s : String) {parts : List (List Piece)}
    (h : ∀ ps ∈ parts, ∀ p ∈ ps, p.isShown = true) :
    ∀ p ∈ separated s parts, p.isShown = true := by
  induction parts with
  | nil => simp [separated]
  | cons a parts ih =>
    have ha := h a List.mem_cons_self
    have ih := ih fun ps hps => h ps (List.mem_cons_of_mem a hps)
    cases parts with
    | nil => simpa [separated] using ha
    | cons b parts =>
      rw [separated_cons_cons]
      exact shown_append ha (shown_cons rfl ih)

end Piece

open Piece

/-! ## Row counts without an argument -/

namespace Expr

mutual

/-- Whether no row count in the expression carries an argument. -/
def countsPlainly : Expr → Bool
  | column _ | literal _ | value _ | placeholder _ => true
  | compare _ left right => left.countsPlainly && right.countsPlainly
  | like e pattern _ => e.countsPlainly && pattern.countsPlainly
  | among e values => e.countsPlainly && allCountPlainly values
  | all parts => allCountPlainly parts
  | isNull e | isNotNull e | cast e _ => e.countsPlainly
  | choose branches otherwise => branchesCountPlainly branches && otherwiseCountsPlainly otherwise
  | call _ args => allCountPlainly args
  | aggregate _ none => true
  | aggregate f (some arg) => f != .countRows && arg.countsPlainly
  | hasRow _ _ _ conditions => allCountPlainly conditions

def allCountPlainly : List Expr → Bool
  | [] => true
  | e :: es => e.countsPlainly && allCountPlainly es

def branchesCountPlainly : List (Expr × Expr) → Bool
  | [] => true
  | (condition, result) :: branches =>
    condition.countsPlainly && result.countsPlainly && branchesCountPlainly branches

def otherwiseCountsPlainly : Option Expr → Bool
  | none => true
  | some e => e.countsPlainly

end

theorem allCountPlainly_iff {es : List Expr} :
    allCountPlainly es = true ↔ ∀ e ∈ es, e.countsPlainly = true := by
  induction es with
  | nil => simp [allCountPlainly]
  | cons e es ih => simp [allCountPlainly, ih]

end Expr

/-- Apart from the row count, an aggregate shows the whole of its argument. -/
theorem Aggregation.shown_pieces {f : Aggregation} (hf : f ≠ .countRows) {arg : List Piece}
    (h : ∀ p ∈ arg, p.isShown = true) : ∀ p ∈ f.pieces arg, p.isShown = true := by
  cases f with
  | countRows => exact absurd rfl hf
  | _ => exact shown_cons rfl (shown_append h (shown_fixed _))

namespace Expr

mutual

theorem shown_pieces : ∀ e : Expr, e.countsPlainly = true → ∀ p ∈ e.pieces, p.isShown = true
  | column _, _ => shown_fixed _
  | literal _, _ => shown_fixed _
  | value _, _ => shown_cons rfl (by simp)
  | placeholder _, _ => shown_fixed _
  | compare _ left right, h => by
    have ⟨hl, hr⟩ := Bool.and_eq_true_iff.1 h
    exact shown_append (shown_pieces left hl) (shown_cons rfl (shown_pieces right hr))
  | like e pattern _, h => by
    have ⟨he, hp⟩ := Bool.and_eq_true_iff.1 h
    exact shown_append (shown_pieces e he) (shown_cons rfl (shown_pieces pattern hp))
  | among e values, h => by
    have ⟨he, hv⟩ := Bool.and_eq_true_iff.1 h
    have hvalues := shown_separated ", " (shown_listPieces values hv)
    exact shown_append (shown_append (shown_pieces e he) (shown_cons rfl hvalues)) (shown_fixed _)
  | all [], _ => shown_fixed _
  | all (e :: es), h => by
    have ⟨he, hes⟩ := Bool.and_eq_true_iff.1 h
    refine shown_separated " AND " ?_
    intro ps hps
    rcases List.mem_cons.1 hps with rfl | hps
    · exact shown_pieces e he
    · exact shown_listPieces es hes ps hps
  | isNull e, h => shown_append (shown_pieces e h) (shown_fixed _)
  | isNotNull e, h => shown_append (shown_pieces e h) (shown_fixed _)
  | choose branches otherwise, h => by
    have ⟨hb, ho⟩ := Bool.and_eq_true_iff.1 h
    have hbranches := shown_cons (q := fixed "CASE") rfl (shown_branchPieces branches hb)
    exact shown_append (shown_append hbranches (shown_otherwisePieces otherwise ho)) (shown_fixed _)
  | call _ args, h =>
    shown_append (shown_cons rfl (shown_separated ", " (shown_listPieces args h))) (shown_fixed _)
  | cast e _, h => shown_append (shown_cons rfl (shown_pieces e h)) (shown_fixed _)
  | aggregate _ none, _ => shown_fixed _
  | aggregate f (some arg), h => by
    have ⟨hf, harg⟩ := Bool.and_eq_true_iff.1 h
    exact Aggregation.shown_pieces (bne_iff_ne.1 hf) (shown_pieces arg harg)
  | hasRow _ _ _ conditions, h => by
    have hconditions := shown_separated " AND " (shown_listPieces conditions h)
    exact shown_append (shown_cons rfl hconditions) (shown_fixed _)

theorem shown_listPieces : ∀ es : List Expr, allCountPlainly es = true →
    ∀ ps ∈ listPieces es, ∀ p ∈ ps, p.isShown = true
  | [], _ => by simp [listPieces]
  | e :: es, h => by
    have ⟨he, hes⟩ := Bool.and_eq_true_iff.1 h
    intro ps hps
    rcases List.mem_cons.1 hps with rfl | hps
    · exact shown_pieces e he
    · exact shown_listPieces es hes ps hps

theorem shown_branchPieces : ∀ branches : List (Expr × Expr),
    branchesCountPlainly branches = true → ∀ p ∈ branchPieces branches, p.isShown = true
  | [], _ => by simp [branchPieces]
  | (condition, result) :: branches, h => by
    have ⟨hcr, hb⟩ := Bool.and_eq_true_iff.1 h
    have ⟨hc, hr⟩ := Bool.and_eq_true_iff.1 hcr
    have hresult := shown_append (shown_cons (q := fixed " THEN ") rfl (shown_pieces result hr))
      (shown_branchPieces branches hb)
    have hcondition := shown_cons (q := fixed " WHEN ") rfl (shown_pieces condition hc)
    simpa [branchPieces] using shown_append hcondition hresult

theorem shown_otherwisePieces : ∀ o : Option Expr, otherwiseCountsPlainly o = true →
    ∀ p ∈ otherwisePieces o, p.isShown = true
  | none, _ => by simp [otherwisePieces]
  | some e, h => shown_cons rfl (shown_pieces e h)

end

end Expr

/-! ## Statements -/

def Item.countsPlainly : Item → Bool
  | .star _ => true
  | .expr e _ => e.countsPlainly

namespace Query

mutual

/-- Whether no row count in the statement carries an argument. -/
def countsPlainly : Query → Bool
  | ⟨ctes, select, source, joins, conditions, groupBy, _, _⟩ =>
    namedCountPlainly ctes && select.all Item.countsPlainly && sourceCountsPlainly source &&
      joinsCountPlainly joins && conditions.all (·.expr.countsPlainly) &&
      groupBy.all Expr.countsPlainly

def namedCountPlainly : List (Named Query) → Bool
  | [] => true
  | ⟨_, query⟩ :: rest => countsPlainly query && namedCountPlainly rest

def sourceCountsPlainly : Source Query → Bool
  | .table _ _ | .named _ => true
  | .nested query | .derived query _ => countsPlainly query

def joinsCountPlainly : List (Join Query) → Bool
  | [] => true
  | ⟨_, source, on⟩ :: rest =>
    sourceCountsPlainly source && on.countsPlainly && joinsCountPlainly rest

end

theorem countsPlainly_iff {q : Query} :
    q.countsPlainly = true ↔ namedCountPlainly q.ctes = true ∧
      (∀ i ∈ q.select, i.countsPlainly = true) ∧ sourceCountsPlainly q.source = true ∧
      joinsCountPlainly q.joins = true ∧ (∀ c ∈ q.conditions, c.expr.countsPlainly = true) ∧
      ∀ e ∈ q.groupBy, e.countsPlainly = true := by
  cases q
  simp [countsPlainly, and_assoc]

end Query

/-- All pieces of all lines are shown. -/
def AllShown (ls : List Line) : Prop := ∀ l ∈ ls, ∀ p ∈ l, p.isShown = true

namespace AllShown

theorem nil : AllShown [] := by simp [AllShown]

theorem cons {l : Line} {ls : List Line} (hl : ∀ p ∈ l, p.isShown = true) (h : AllShown ls) :
    AllShown (l :: ls) := by
  intro m hm
  rcases List.mem_cons.1 hm with rfl | hm
  · exact hl
  · exact h m hm

theorem append {ls ms : List Line} (hl : AllShown ls) (hm : AllShown ms) : AllShown (ls ++ ms) := by
  intro l h
  rcases List.mem_append.1 h with h | h
  · exact hl l h
  · exact hm l h

/-- A line with nothing but fixed text. -/
theorem fixed (s : String) : AllShown [[.fixed s]] := cons (shown_fixed s) nil

theorem indent {ls : List Line} (h : AllShown ls) : AllShown (ls.map Line.indent) := by
  intro l hl
  obtain ⟨m, hm, rfl⟩ := List.mem_map.1 hl
  exact shown_cons rfl (h m hm)

end AllShown

theorem Item.shown_pieces {i : Item} (h : i.countsPlainly = true) :
    ∀ p ∈ i.pieces, p.isShown = true := by
  cases i with
  | star relation => exact shown_fixed _
  | expr e name =>
    cases name with
    | none => exact Expr.shown_pieces e h
    | some name => exact shown_append (Expr.shown_pieces e h) (shown_fixed _)

theorem Item.allShown_lines {is : List Item} (h : ∀ i ∈ is, i.countsPlainly = true) :
    AllShown (Item.lines is) := by
  induction is with
  | nil => exact .nil
  | cons i is ih =>
    have hi := Item.shown_pieces (h i List.mem_cons_self)
    have ih := ih fun j hj => h j (List.mem_cons_of_mem i hj)
    cases is with
    | nil => exact .cons (shown_cons rfl hi) .nil
    | cons j js => exact .cons (shown_cons rfl (shown_append hi (shown_fixed _))) ih

theorem Item.allShown_selectLines {is : List Item} (h : ∀ i ∈ is, i.countsPlainly = true) :
    AllShown (Item.selectLines is) := by
  unfold Item.selectLines
  split
  · exact .fixed _
  · exact .cons (shown_fixed _) (Item.allShown_lines h)

theorem Condition.allShown_lines {c : Condition} (h : c.expr.countsPlainly = true) (first : Bool) :
    AllShown (c.lines first) := by
  cases c with
  | always e => exact .cons (shown_cons rfl (Expr.shown_pieces e h)) .nil
  | optional e =>
    have hline := shown_append (shown_cons (q := .fixed "  [[AND ") rfl (Expr.shown_pieces e h))
      (shown_fixed "]]")
    cases first with
    | false => exact .cons hline .nil
    | true => exact .cons (shown_fixed _) (.cons hline .nil)

theorem Condition.allShown_blockLines {cs : List Condition}
    (h : ∀ c ∈ cs, c.expr.countsPlainly = true) : AllShown (Condition.blockLines cs) := by
  cases cs with
  | nil => exact .nil
  | cons c cs =>
    refine .append (Condition.allShown_lines (h c List.mem_cons_self) true) ?_
    intro l hl
    obtain ⟨d, hd, hl⟩ := List.mem_flatMap.1 hl
    exact Condition.allShown_lines (h d (List.mem_cons_of_mem c hd)) false l hl

namespace Query

theorem allShown_groupLines {es : List Expr} (h : ∀ e ∈ es, e.countsPlainly = true) :
    AllShown (groupLines es) := by
  cases es with
  | nil => exact .nil
  | cons e es =>
    refine .cons (shown_cons rfl (shown_separated ", " ?_)) .nil
    intro ps hps
    obtain ⟨g, hg, rfl⟩ := List.mem_map.1 hps
    exact Expr.shown_pieces g (h g hg)

theorem allShown_orderLines (ks : List SortKey) : AllShown (orderLines ks) := by
  cases ks with
  | nil => exact .nil
  | cons k ks => exact .fixed _

theorem allShown_limitLines (n : Option Nat) : AllShown (limitLines n) := by
  cases n with
  | none => exact .nil
  | some n => exact .fixed _

mutual

theorem allShown_lines : ∀ q : Query, q.countsPlainly = true → AllShown q.lines
  | ⟨ctes, select, source, joins, conditions, groupBy, orderBy, limit⟩, h => by
    obtain ⟨hctes, hselect, hsource, hjoins, hconditions, hgroup⟩ := countsPlainly_iff.1 h
    simp only [lines]
    refine .append (.append (.append (.append (.append (.append (.append ?_ ?_) ?_) ?_) ?_) ?_) ?_) ?_
    · exact allShown_cteLines "WITH " ctes hctes
    · exact Item.allShown_selectLines hselect
    · exact allShown_sourceLines "FROM " source hsource
    · exact allShown_joinLines joins hjoins
    · exact Condition.allShown_blockLines hconditions
    · exact allShown_groupLines hgroup
    · exact allShown_orderLines orderBy
    · exact allShown_limitLines limit

theorem allShown_cteLines : ∀ (opening : String) (ctes : List (Named Query)),
    namedCountPlainly ctes = true → AllShown (cteLines opening ctes)
  | _, [], _ => .nil
  | _, ⟨_, query⟩ :: rest, h => by
    have ⟨hquery, hrest⟩ := Bool.and_eq_true_iff.1 h
    have hlines := AllShown.indent (allShown_lines query hquery)
    have hafter := AllShown.cons (shown_fixed (if rest.isEmpty then ")" else "),"))
      (allShown_cteLines "" rest hrest)
    simpa [cteLines] using AllShown.cons (shown_fixed _) (hlines.append hafter)

theorem allShown_sourceLines : ∀ (keyword : String) (source : Source Query),
    sourceCountsPlainly source = true → AllShown (sourceLines keyword source)
  | _, .table _ _, _ => .fixed _
  | _, .named _, _ => .fixed _
  | _, .nested query, h =>
    .append (.cons (shown_fixed _) (allShown_lines query h).indent) (.fixed _)
  | _, .derived query _, h =>
    .append (.cons (shown_fixed _) (allShown_lines query h).indent) (.fixed _)

theorem allShown_joinLines : ∀ joins : List (Join Query), joinsCountPlainly joins = true →
    AllShown (joinLines joins)
  | [], _ => .nil
  | ⟨_, source, on⟩ :: rest, h => by
    have ⟨hso, hrest⟩ := Bool.and_eq_true_iff.1 h
    have ⟨hsource, hon⟩ := Bool.and_eq_true_iff.1 hso
    exact .append (allShown_sourceLines _ source hsource)
      (.cons (shown_cons rfl (Expr.shown_pieces on hon)) (allShown_joinLines rest hrest))

end

theorem shown_pieces {q : Query} (h : q.countsPlainly = true) :
    ∀ p ∈ q.pieces, p.isShown = true :=
  shown_separated "\n" (allShown_lines q h)

end Query

end EventReport.Sql
