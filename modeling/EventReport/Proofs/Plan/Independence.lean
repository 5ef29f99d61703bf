/-
# The template does not depend on users' values

A template is kept apart from the values that are bound to its parameters, so that one
may be read, stored or shown without the others.  For this a value must not show in it by
any way: not by the kind of literal it reads as, not by its place in a pattern or a list,
and not by what the plan makes of it.

## What is proved

`template_independent`: for every warehouse, two reports that differ only in their
websites and in the values of their filters (`Report.SameForm`) have the same template,
the same names of parameters and the same warnings.  The filters must have as many values
each; a filter without a value is left out.

## What it is NOT

The values themselves differ in kind: a parameter may be a number for one report and a
text for the other.

## Shape of the proof

Planning decides by the column, the operator and the number of values, so each filter has
the same fate for both reports, with a condition of the same form (`Filter.SameForm.fate`).
Everything else in the two plans is equal but for the website.  The website stands in two
places, the condition on it in the base statement and the one in the pivot, and is a value
in both.
-/
import EventReport.Proofs.Plan.Correspondence
import EventReport.Proofs.Sql.Form

namespace EventReport

open Sql

/-! ## Reports that differ in values -/

/-- Filters that ask the same of as many values. -/
structure Filter.SameForm (f g : Filter) : Prop where
  column : f.column = g.column
  operator : f.operator = g.operator
  length : f.comparands.length = g.comparands.length

/-- Reports that may differ in their websites and the values of their filters. -/
structure Report.SameForm (r r' : Report) : Prop where
  attributes : r.attributes = r'.attributes
  outline : r.outline = r'.outline
  filters : List.Forall₂ Filter.SameForm r.filters r'.filters

/-! ## Filters -/

namespace Comparator

variable {vs us : List String}

/-- Any two operands have the same form, whatever literals they read as. -/
theorem sameForm_operand (numeric : Bool) (v u : String) :
    (operand numeric v).SameForm (operand numeric u) := .value _ _

theorem sameForm_operands (numeric : Bool) (h : vs.length = us.length) :
    Line.AllSameForm (Expr.listPieces (vs.map (operand numeric)))
      (Expr.listPieces (us.map (operand numeric))) := by
  rw [Expr.listPieces_eq_map, Expr.listPieces_eq_map, List.map_map, List.map_map,
    Line.AllSameForm, List.forall₂_map_left_iff, List.forall₂_map_right_iff]
  exact List.forall₂_iff_zip.2 ⟨h, fun {v u} _ => sameForm_operand numeric v u⟩

theorem sameForm_like (target : Expr) (numeric : Bool) (pattern pattern' : String)
    (negated : Bool) :
    (like target numeric pattern negated).SameForm (like target numeric pattern' negated) :=
  (Line.SameForm.refl _).append (.lead _ (.value _ _))

theorem sameForm_compare (target : Expr) (numeric : Bool) (h : vs.length = us.length)
    (c : Comparator) :
    (c.compare target numeric vs).SameForm (c.compare target numeric us) := by
  have hcompared (op : Comparison) (v u : String) :
      (Expr.compare op target (operand numeric v)).SameForm
        (.compare op target (operand numeric u)) :=
    (Line.SameForm.refl _).append (.lead _ (sameForm_operand numeric v u))
  cases c with
  | equals => exact hcompared .eq _ _
  | notEquals => exact hcompared .ne _ _
  | contains | notContains | startsWith | endsWith => exact sameForm_like target numeric _ _ _
  | oneOf =>
    have hlist := Line.SameForm.separated ", " (sameForm_operands numeric h)
    exact ((Line.SameForm.refl target.pieces).append (hlist.lead " IN (")).close ")"
  | isNull | isNotNull => exact .refl _

end Comparator

/-- The same fate, with a condition of the same form. -/
inductive Fate.SameForm : Fate → Fate → Prop
  | base {c d : Condition} (note : Option Warning) (h : c.SameForm d) :
      SameForm (.base c note) (.base d note)
  | outer {c d : Condition} (note : Option Warning) (h : c.SameForm d) :
      SameForm (.outer c note) (.outer d note)
  | skipped (w : Warning) : SameForm (.skipped w) (.skipped w)

namespace Filter.SameForm

variable {f g : Filter}

theorem missingValue? (h : f.SameForm g) : f.missingValue? = g.missingValue? := by
  have hempty : f.comparands.isEmpty = g.comparands.isEmpty := by
    rw [Bool.eq_iff_iff, List.isEmpty_iff_length_eq_zero, List.isEmpty_iff_length_eq_zero,
      h.length]
  unfold Filter.missingValue?
  rw [h.column, h.operator, hempty]

theorem note? (h : f.SameForm g) : f.note? = g.note? := by
  unfold Filter.note?
  rw [h.column, h.operator]

theorem columnCondition (h : f.SameForm g) (c : Column) :
    (f.columnCondition c).SameForm (g.columnCondition c) := by
  unfold Filter.columnCondition
  rw [h.operator]
  split
  · exact .optional (.refl _)
  · exact .always (Comparator.sameForm_compare _ _ h.length _)

theorem attributeCondition (h : f.SameForm g) (settings : Settings) (a : Attribute)
    (comparator : Comparator) : (f.attributeCondition settings a comparator).SameForm
      (g.attributeCondition settings a comparator) := by
  unfold Filter.attributeCondition
  obtain ⟨absent, match?⟩ := comparator.existence
  have hrows {es es' : List Expr} (hes : Line.AllSameForm (Expr.listPieces es)
      (Expr.listPieces es')) : (Condition.always (.hasRow absent settings.eventDataTable
        AttributeRow.relation (AttributeRow.ofBaseEvent :: AttributeRow.hasKey a :: es))).SameForm
      (.always (.hasRow absent settings.eventDataTable
        AttributeRow.relation (AttributeRow.ofBaseEvent :: AttributeRow.hasKey a :: es'))) := by
    have hconditions : Line.AllSameForm
        (Expr.listPieces (AttributeRow.ofBaseEvent :: AttributeRow.hasKey a :: es))
        (Expr.listPieces (AttributeRow.ofBaseEvent :: AttributeRow.hasKey a :: es')) :=
      .cons (.refl _) (.cons (.refl _) hes)
    exact .always (((Line.SameForm.separated " AND " hconditions).lead _).close ")")
  cases match? with
  | none => exact hrows (.refl _)
  | some c => exact hrows (.cons (Comparator.sameForm_compare _ _ h.length c) .nil)

theorem fate (h : f.SameForm g) (settings : Settings) (scope : Scope) :
    (f.fate settings scope).SameForm (g.fate settings scope) := by
  unfold Filter.fate
  rw [h.column, h.operator, h.missingValue?, h.note?]
  rcases scope.resolve g.column with _ | c | a
  · exact .skipped _
  · cases g.missingValue? with
    | some w => exact .skipped w
    | none => exact .base _ (h.columnCondition c)
  · cases g.operator.comparator? with
    | none => exact .skipped _
    | some comparator =>
      cases g.missingValue? with
      | some w => exact .skipped w
      | none => exact .outer _ (h.attributeCondition settings a comparator)

end Filter.SameForm

namespace Fate.SameForm

variable {x y : Fate}

theorem base? (h : x.SameForm y) : Option.Rel Condition.SameForm x.base? y.base? := by
  cases h with
  | base _ h => exact .some h
  | outer => exact .none
  | skipped => exact .none

theorem outer? (h : x.SameForm y) : Option.Rel Condition.SameForm x.outer? y.outer? := by
  cases h with
  | base => exact .none
  | outer _ h => exact .some h
  | skipped => exact .none

theorem warning? (h : x.SameForm y) : x.warning? = y.warning? := by
  cases h <;> rfl

/-- What is said of filters is the same. -/
theorem filterMap_warning? {xs ys : List Fate} (h : List.Forall₂ Fate.SameForm xs ys) :
    xs.filterMap Fate.warning? = ys.filterMap Fate.warning? := by
  induction h with
  | nil => rfl
  | cons hxy _ ih => rw [List.filterMap_cons, List.filterMap_cons, hxy.warning?, ih]

end Fate.SameForm

/-! ## Plans -/

/-- Plans of the same form: the websites may differ, and the values in the conditions. -/
structure Plan.SameForm (p q : Plan) : Prop where
  withSession : p.withSession = q.withSession
  baseConditions : List.Forall₂ Condition.SameForm p.baseConditions q.baseConditions
  outerConditions : List.Forall₂ Condition.SameForm p.outerConditions q.outerConditions
  attributes : p.attributes = q.attributes
  projection : p.projection = q.projection
  warnings : p.warnings = q.warnings

namespace Report.SameForm

variable {r r' : Report}

/-- Planning takes the same path for both reports. -/
theorem plan (h : r.SameForm r') (w : Warehouse) (site site' : Website) :
    (w.plan site r).SameForm (w.plan site' r') := by
  have hfates : List.Forall₂ Fate.SameForm
      (r.filters.map (Filter.fate w.settings (.of w.registry r'.attributes)))
      (r'.filters.map (Filter.fate w.settings (.of w.registry r'.attributes))) := by
    rw [List.forall₂_map_left_iff, List.forall₂_map_right_iff]
    exact h.filters.imp fun _ _ hfg => hfg.fate _ _
  have hcolumns := Report.columns_eq (h.filters.imp fun _ _ hfg => hfg.column) h.outline
  unfold Warehouse.plan
  rw [h.attributes, h.outline, hcolumns]
  constructor
  case withSession => rfl
  case baseConditions => exact List.rel_filterMap (fun _ _ hxy => hxy.base?) hfates
  case outerConditions => exact List.rel_filterMap (fun _ _ hxy => hxy.outer?) hfates
  case attributes => rfl
  case projection => rfl
  case warnings =>
    dsimp only
    rw [Fate.SameForm.filterMap_warning? hfates]

end Report.SameForm

/-! ## Statements -/

/-- The website is a value of the pivot. -/
theorem Pivot.sameForm_join (settings : Settings) (site site' : Website) (as : List Attribute) :
    Line.AllSameForm (Query.joinLines [Pivot.join settings site as])
      (Query.joinLines [Pivot.join settings site' as]) := by
  have hscope {id id' : String} : (Expr.eq (AttributeRow.column scopeColumn)
      (.value (.text id))).SameForm (.eq (AttributeRow.column scopeColumn) (.value (.text id'))) :=
    (Line.SameForm.refl _).append (.lead _ (.value _ _))
  have hconditions : List.Forall₂ Condition.SameForm (Pivot.query settings site as).conditions
      (Pivot.query settings site' as).conditions :=
    .cons (.always (.separated " AND " (.cons hscope (Line.AllSameForm.refl _)))) .nil
  have hquery : (Pivot.query settings site as).SameForm (Pivot.query settings site' as) := by
    unfold Query.SameForm
    rw [Pivot.lines_query, Pivot.lines_query]
    exact ((Line.AllSameForm.refl _).append
      (Condition.SameForm.blockLines hconditions)).append (.refl _)
  rw [Pivot.lines_join, Pivot.lines_join]
  have hblock := hquery.indent.append (.refl [[.fixed (") " ++ Pivot.relation)]])
  exact Line.AllSameForm.append (.cons (.refl _) hblock) (.refl _)

/-- The statements of two plans of the same form have the same form. -/
theorem Plan.SameForm.query {p q : Plan} (h : p.SameForm q) (w : Warehouse) :
    (p.query w).SameForm (q.query w) := by
  have hopening : p.openingLines w = q.openingLines w := by
    unfold Plan.openingLines
    rw [h.withSession]
  have hscope : p.scopeLine.SameForm q.scopeLine :=
    .lead "  " (.lead "WHERE " ((Line.SameForm.refl _).append (.lead _ (.value _ _))))
  have hfilters : Line.AllSameForm p.filterLines q.filterLines :=
    (Condition.SameForm.flatMap_lines h.baseConditions).indent
  have hjoins : Line.AllSameForm (Query.joinLines (p.query w).joins)
      (Query.joinLines (q.query w).joins) := by
    unfold Plan.query
    rw [h.attributes]
    split
    · exact .nil
    · exact Pivot.sameForm_join w.settings p.website q.website q.attributes
  have hselect : Line.AllSameForm (p.selectLines w) (q.selectLines w) := by
    unfold Plan.selectLines
    rw [h.projection]
    exact .cons (.refl _) ((Line.AllSameForm.refl _).append hjoins)
  have houter : Line.AllSameForm p.outerLines q.outerLines :=
    Condition.SameForm.blockLines h.outerConditions
  have htail : p.tailLines w = q.tailLines w := by
    unfold Plan.tailLines
    rw [h.projection]
  unfold Query.SameForm
  rw [Plan.lines_query, Plan.lines_query, hopening, htail]
  exact (Line.AllSameForm.refl _).append
    (.cons hscope (hfilters.append (hselect.append (houter.append (.refl _)))))

/-! ## Texts -/

/-- Two reports that differ in websites and values only have the same template, the same names of
parameters and the same warnings. -/
theorem template_independent (w : Warehouse) {r r' : Report} {site site' : Website}
    (h : r.SameForm r') (hsite : r.website = some site) (hselected : site.isSelected = true)
    (hsite' : r'.website = some site') (hselected' : site'.isSelected = true) :
    (w.compile r).template = (w.compile r').template ∧
      (w.compile r).bindings.map Binding.name = (w.compile r').bindings.map Binding.name ∧
      (w.compile r).warnings = (w.compile r').warnings := by
  have hplan := h.plan w site site'
  have hquery := hplan.query w
  rw [Warehouse.compile_selected hsite hselected, Warehouse.compile_selected hsite' hselected']
  dsimp only
  exact ⟨Query.template_eq_of_sameForm hquery, Query.names_eq_of_sameForm hquery, hplan.warnings⟩

/-- Two reports whose values read as different kinds of literals, in a list, in a pattern and in the
condition on an attribute. -/
theorem template_independent_standard : ∃ r r' : Report,
    r.filters.map Filter.comparands = [["1", "2.5"], ["a"], ["7"], []] ∧
    r'.filters.map Filter.comparands = [["'; --", ""], ["%_"], ["\\"], []] ∧
    (Warehouse.compile {} r).template = (Warehouse.compile {} r').template ∧
      (Warehouse.compile {} r).bindings.map Binding.name =
        (Warehouse.compile {} r').bindings.map Binding.name ∧
      (Warehouse.compile {} r).warnings = (Warehouse.compile {} r').warnings := by
  let r : Report :=
    { website := some { id := "a" }
      filters := [.oneOf "event_type" ["1", "2.5"], .startsWith "url_path" "a",
        .equals "param_n" "7", .oneOf "country" []]
      attributes := [⟨"n", .number⟩]
      outline := { metrics := [{ function := .sum, column := some "param_n" }] } }
  let r' : Report :=
    { r with
      website := some { id := "' OR 1 = 1" }
      filters := [.oneOf "event_type" ["'; --", ""], .startsWith "url_path" "%_",
        .equals "param_n" "\\", .oneOf "country" []] }
  have h : r.SameForm r' :=
    { attributes := rfl
      outline := rfl
      filters := .cons ⟨rfl, rfl, rfl⟩ (.cons ⟨rfl, rfl, rfl⟩
        (.cons ⟨rfl, rfl, rfl⟩ (.cons ⟨rfl, rfl, rfl⟩ .nil))) }
  have hsite : r.website = some { id := "a" } := rfl
  have hsite' : r'.website = some { id := "' OR 1 = 1" } := rfl
  exact ⟨r, r', rfl, rfl,
    template_independent {} h hsite (by decide) hsite' (by decide)⟩

end EventReport
