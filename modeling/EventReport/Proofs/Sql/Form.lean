/-
# The form of a statement

The form of a statement is what its template shows: the fixed texts, and the places where
a user's value goes.  Two statements have the same form if they differ in such values
only, whatever kind of literal either value is.

## What is proved

Statements of the same form have the same template, and parameters of the same names
(`Query.template_eq_of_sameForm`, `Query.names_eq_of_sameForm`).  Each clause passes the
form on from its expressions to its lines.

## Shape of the proof

The relation is on single pieces, and lines are related piece by piece.  So most of what
is needed is known of `List.Forall₂`; only the separators between parts have a proof of
their own.
-/
import EventReport.Proofs.Sql.Fragments
import Mathlib.Data.List.Forall2

namespace EventReport.Sql

/-! ## Pieces and lines -/

/-- The same fixed text, or any two values in the same kind of place. -/
inductive Piece.SameForm : Piece → Piece → Prop
  | fixed (s : String) : SameForm (.fixed s) (.fixed s)
  | value (l m : Literal) : SameForm (.value l) (.value m)
  | unshown (l m : Literal) : SameForm (.unshown l) (.unshown m)

abbrev Line.SameForm (l m : Line) : Prop := List.Forall₂ Piece.SameForm l m

/-- Runs of lines of the same form one by one. -/
abbrev Line.AllSameForm (ls ms : List Line) : Prop := List.Forall₂ Line.SameForm ls ms

theorem Piece.SameForm.refl (p : Piece) : p.SameForm p := by
  cases p with
  | fixed s => exact .fixed s
  | value l => exact .value l l
  | unshown l => exact .unshown l l

namespace Line.SameForm

variable {l m l' m' : Line}

theorem refl (l : Line) : l.SameForm l := List.forall₂_same.2 fun p _ => .refl p

theorem append (h : l.SameForm m) (h' : l'.SameForm m') : Line.SameForm (l ++ l') (m ++ m') :=
  List.rel_append h h'

/-- Any two values. -/
theorem value (l m : Literal) : Line.SameForm [.value l] [.value m] := .cons (.value l m) .nil

/-- Behind a fixed text. -/
theorem lead (s : String) (h : l.SameForm m) : Line.SameForm (.fixed s :: l) (.fixed s :: m) :=
  List.Forall₂.cons (.fixed s) h

/-- Before a fixed text. -/
theorem close (h : l.SameForm m) (s : String) :
    Line.SameForm (l ++ [.fixed s]) (m ++ [.fixed s]) := h.append (.refl _)

theorem separated (s : String) {ls ms : List Line} (h : Line.AllSameForm ls ms) :
    Line.SameForm (Piece.separated s ls) (Piece.separated s ms) := by
  induction h with
  | nil => exact .refl _
  | @cons l m ls ms hlm hrest ih =>
    cases hrest with
    | nil => simpa [Piece.separated, List.intercalate] using hlm
    | cons hlm' hrest' =>
      rw [Piece.separated_cons_cons, Piece.separated_cons_cons]
      exact hlm.append (ih.lead s)

/-- Values are counted in the same way. -/
theorem numbered_eq (h : l.SameForm m) (n : Nat) : Piece.numbered n l = Piece.numbered n m := by
  induction h generalizing n with
  | nil => rfl
  | cons hpq _ ih =>
    cases hpq with
    | fixed s => rw [Piece.numbered, Piece.numbered, ih]
    | value => rw [Piece.numbered, Piece.numbered, ih]
    | unshown => rw [Piece.numbered, Piece.numbered, ih]

theorem length_values_eq (h : l.SameForm m) :
    (Piece.values l).length = (Piece.values m).length := by
  unfold Piece.values
  induction h with
  | nil => rfl
  | cons hpq _ ih =>
    cases hpq with
    | fixed s => exact ih
    | value => exact congrArg (· + 1) ih
    | unshown => exact congrArg (· + 1) ih

end Line.SameForm

namespace Line.AllSameForm

variable {ls ms ls' ms' : List Line}

theorem refl (ls : List Line) : Line.AllSameForm ls ls := List.forall₂_same.2 fun l _ => .refl l

theorem append (h : Line.AllSameForm ls ms) (h' : Line.AllSameForm ls' ms') :
    Line.AllSameForm (ls ++ ls') (ms ++ ms') := List.rel_append h h'

theorem indent (h : Line.AllSameForm ls ms) :
    Line.AllSameForm (ls.map Line.indent) (ms.map Line.indent) := by
  rw [Line.AllSameForm, List.forall₂_map_left_iff, List.forall₂_map_right_iff]
  exact h.imp fun _ _ hlm => Line.SameForm.lead "  " hlm

end Line.AllSameForm

/-! ## Conditions -/

abbrev Expr.SameForm (e f : Expr) : Prop := Line.SameForm e.pieces f.pieces

/-- Conditions of one kind, with expressions of the same form. -/
inductive Condition.SameForm : Condition → Condition → Prop
  | always {e f : Expr} (h : e.SameForm f) : SameForm (.always e) (.always f)
  | optional {e f : Expr} (h : e.SameForm f) : SameForm (.optional e) (.optional f)

namespace Condition.SameForm

theorem lines {c d : Condition} (h : c.SameForm d) (first : Bool) :
    Line.AllSameForm (c.lines first) (d.lines first) := by
  cases h with
  | always h => exact .cons (h.lead _) .nil
  | optional h => exact (Line.AllSameForm.refl _).append (.cons ((h.lead _).close _) .nil)

theorem flatMap_lines {cs ds : List Condition} (h : List.Forall₂ Condition.SameForm cs ds) :
    Line.AllSameForm (cs.flatMap (Condition.lines false)) (ds.flatMap (Condition.lines false)) := by
  induction h with
  | nil => exact .nil
  | cons hcd _ ih =>
    rw [List.flatMap_cons, List.flatMap_cons]
    exact (hcd.lines false).append ih

theorem blockLines {cs ds : List Condition} (h : List.Forall₂ Condition.SameForm cs ds) :
    Line.AllSameForm (Condition.blockLines cs) (Condition.blockLines ds) := by
  cases h with
  | nil => exact .nil
  | cons hcd hrest => exact (hcd.lines true).append (flatMap_lines hrest)

end Condition.SameForm

/-! ## Statements -/

namespace Query

/-- Statements whose lines have the same form. -/
abbrev SameForm (q q' : Query) : Prop := Line.AllSameForm q.lines q'.lines

variable {q q' : Query}

theorem sameForm_pieces (h : q.SameForm q') : Line.SameForm q.pieces q'.pieces :=
  .separated "\n" h

theorem template_eq_of_sameForm (h : q.SameForm q') : q.template = q'.template := by
  unfold template
  rw [(sameForm_pieces h).numbered_eq]

/-- The names of the parameters go by their places. -/
theorem map_name_bindings (q : Query) :
    q.bindings.map Binding.name =
      (List.range (Piece.values q.pieces).length).map fun n => "p" ++ toString n := by
  unfold bindings
  rw [List.map_map, List.range_eq_range', ← List.zipIdx_map_snd 0, List.map_map]
  rfl

theorem names_eq_of_sameForm (h : q.SameForm q') :
    q.bindings.map Binding.name = q'.bindings.map Binding.name := by
  rw [map_name_bindings, map_name_bindings, (sameForm_pieces h).length_values_eq]

end Query

end EventReport.Sql
