/-
# The lines of a report's statement

The text of a report is laid out in six runs of lines, in this order: what opens
the base statement, the line with the condition on the website, the lines of the
base conditions, what closes the base statement and selects from it, the block of
outer conditions, and the clauses after that (`Plan.lines_query`).

## Two plans

Two plans are alike when they differ in users' texts only.  Then their statements
are alike line by line (`PlanAlike.linesAlike`).  The proof has a lemma for each of
the six runs, and takes no notice of what a plan was made from.
-/
import EventReport.Proofs.Plan.Names
import EventReport.Proofs.Sql.AlikeLines

namespace EventReport

open Text Sql

/-! ## The six runs of lines -/

namespace Plan

/-- What opens the base statement. -/
def openingLines (p : Plan) (w : Warehouse) : List Line :=
  [.fixed ("WITH " ++ baseName ++ " AS (")] ::
    (Item.selectLines [.star ""] ++
      Query.sourceLines "FROM " (.nested (Base.columns w p.withSession))).map Line.indent

/-- The condition on the website. -/
def scopeLine (p : Plan) : Line :=
  Line.indent (.fixed "WHERE " :: (Base.scopeCondition p.website).expr.pieces)

/-- The conditions of the base statement. -/
def filterLines (p : Plan) : List Line :=
  (p.baseConditions.flatMap (Condition.lines false)).map Line.indent

/-- The end of the base statement, and what the outer statement selects from it. -/
def selectLines (p : Plan) (w : Warehouse) : List Line :=
  [.fixed ")"] :: (Item.selectLines p.projection.select ++ [[.fixed ("FROM " ++ baseName)]] ++
    Query.joinLines (p.query w).joins)

/-- The conditions of the outer statement. -/
def outerLines (p : Plan) : List Line := Condition.blockLines p.outerConditions

/-- The clauses after the conditions. -/
def tailLines (p : Plan) (w : Warehouse) : List Line :=
  Query.groupLines p.projection.groupBy ++ Query.orderLines p.projection.orderBy ++
    Query.limitLines (some w.settings.rowLimit)

theorem lines_query (p : Plan) (w : Warehouse) :
    (p.query w).lines = p.openingLines w ++ p.scopeLine :: (p.filterLines ++ (p.selectLines w ++
      (p.outerLines ++ p.tailLines w))) := by
  have hbase : (Base.query w p.website p.withSession p.baseConditions).lines =
      Item.selectLines [.star ""] ++
        Query.sourceLines "FROM " (.nested (Base.columns w p.withSession)) ++
        (.fixed "WHERE " :: (Base.scopeCondition p.website).expr.pieces) ::
          p.baseConditions.flatMap (Condition.lines false) := by
    simp [Base.query, Query.lines, Query.cteLines, Query.joinLines, Condition.blockLines,
      Base.scopeCondition, Condition.lines, Condition.expr, Query.groupLines, Query.orderLines,
      Query.limitLines]
  simp only [query, Query.lines, Query.cteLines, hbase]
  simp [openingLines, scopeLine, filterLines, selectLines, outerLines, tailLines, query,
    Query.sourceLines]

end Plan

/-! ## Plans that differ in users' texts -/

/-- Attributes of one column, with keys that correspond. -/
structure AttributeAlike (S : String → String → Prop) (a b : Attribute) : Prop where
  type : a.type = b.type
  columnId : a.columnId = b.columnId
  key : S a.key b.key

structure PlanAlike (S : String → String → Prop) (p q : Plan) : Prop where
  website : S p.website.id q.website.id
  withSession : p.withSession = q.withSession
  baseConditions : List.Forall₂ (ConditionAlike S) p.baseConditions q.baseConditions
  outerConditions : List.Forall₂ (ConditionAlike S) p.outerConditions q.outerConditions
  /-- No outer condition is optional. -/
  outerAlways : ∀ c ∈ p.outerConditions, ∃ e, c = .always e
  attributes : List.Forall₂ (AttributeAlike S) p.attributes q.attributes
  select : List.Forall₂ (fun i j : Item => Alike S i.chars j.chars) p.projection.select
    q.projection.select
  /-- Neither select list is the lone star. -/
  select_ne : p.projection.select ≠ [.star ""] ∧ q.projection.select ≠ [.star ""]
  groupBy : List.Forall₂ (fun e f : Expr => Alike S e.chars f.chars) p.projection.groupBy
    q.projection.groupBy
  orderBy : p.projection.orderBy = q.projection.orderBy
  orderPlain : ∀ k ∈ p.projection.orderBy, k.IsPlain

section

variable {S : String → String → Prop}

theorem Alike.of {relation name : String} (hr : isIdentifier relation = true)
    (hn : isIdentifier name = true) :
    Alike S (Expr.of relation name).chars (Expr.of relation name).chars :=
  .column ⟨Or.inr hr, hn⟩

/-- A text that corresponds to another. -/
theorem Alike.userText {s t : String} (h : S s t) :
    Alike S (Expr.value (.text s)).chars (Expr.value (.text t)).chars :=
  .value (Or.inr ⟨s, t, h, rfl, rfl⟩)

theorem Alike.textConstant {s t : String} (h : S s t) :
    Alike S (Expr.text s).chars (Expr.text t).chars :=
  .literal (Or.inr ⟨s, t, h, rfl, rfl⟩)

/-- A constant of the statement. -/
theorem Alike.constant (s : String) : Alike S (Expr.text s).chars (Expr.text s).chars :=
  .literal (Or.inl rfl)

/-! ## The base statement -/

namespace Base

set_option maxRecDepth 4096 in
theorem alike_computedExpr (k : Computed) :
    Alike S (Base.computedExpr k).chars (Base.computedExpr k).chars := by
  cases k <;> exact .fixed (by decide)

theorem alike_columnItems {w : Warehouse} (h : w.registry.IsValid) (withSession : Bool) :
    ∀ i ∈ (Base.columns w withSession).select, Alike S i.chars i.chars := by
  intro i hi
  rcases List.mem_cons.1 hi with rfl | hi
  · exact .star (by decide)
  · rcases List.mem_append.1 hi with hi | hi
    · obtain ⟨c, hc, hk⟩ := List.mem_filterMap.1 hi
      obtain ⟨k, -, rfl⟩ := Option.map_eq_some_iff.1 hk
      have hname := Registry.isIdentifier_of_mem h (List.mem_of_mem_filter hc)
      exact (alike_computedExpr k).namedItem hname
    · cases withSession with
      | false => cases hi
      | true =>
        obtain ⟨c, hc, rfl⟩ := List.mem_map.1 hi
        have hname := Registry.isIdentifier_of_mem h (List.mem_of_mem_filter hc)
        exact .item (.of (by decide) hname)

theorem select_columns_ne (w : Warehouse) (withSession : Bool) :
    (Base.columns w withSession).select ≠ [.star ""] := by
  intro h
  have hstar := Item.star.inj (List.cons.inj h).1
  exact absurd hstar (by decide)

theorem lines_columns (w : Warehouse) (withSession : Bool) :
    (Base.columns w withSession).lines =
      Item.selectLines (Base.columns w withSession).select ++
        Query.sourceLines "FROM " (.table w.settings.eventTable eventAlias) ++
        Query.joinLines (Base.columns w withSession).joins := by
  simp [Base.columns, Query.lines, Query.cteLines, Condition.blockLines, Query.groupLines,
    Query.orderLines, Query.limitLines]

theorem linesAlike_columns {w : Warehouse} (h : w.registry.IsValid) (withSession : Bool) :
    LinesAlike S (Base.columns w withSession).lines (Base.columns w withSession).lines := by
  have hselect := Alike.selectLines (select_columns_ne w withSession)
    (select_columns_ne w withSession) (List.forall₂_same.2 (alike_columnItems (S := S) h withSession))
  have hfrom : LinesAlike S (Query.sourceLines "FROM " (.table w.settings.eventTable eventAlias))
      (Query.sourceLines "FROM " (.table w.settings.eventTable eventAlias)) :=
    .table (k := "FROM".toList) rfl (by decide) _ (by decide)
  have hjoins : LinesAlike S (Query.joinLines (Base.columns w withSession).joins)
      (Query.joinLines (Base.columns w withSession).joins) := by
    cases withSession with
    | false => exact .nil
    | true =>
      have htable : LinesAlike S
          (Query.sourceLines (JoinKind.left.keywords ++ " ") (.table w.settings.sessionTable sessionAlias))
          (Query.sourceLines (JoinKind.left.keywords ++ " ") (.table w.settings.sessionTable sessionAlias)) :=
        .table (k := "LEFT JOIN".toList) rfl (by decide) _ (by decide)
      have hon : LinesAlike S [.fixed "  ON " :: (sessionJoin w.settings).on.pieces]
          [.fixed "  ON " :: (sessionJoin w.settings).on.pieces] := by
        refine .cons (.fixed ?_) .nil
        show Alike.isFixed (Line.chars (.fixed "  ON " :: (Expr.eq (.of sessionAlias "session_id")
          (.of eventAlias "session_id")).pieces)) = true
        decide
      exact htable.append hon
  rw [lines_columns]
  exact (hselect.append hfrom).append hjoins

end Base

/-! ## The pivot -/

namespace Pivot

variable {a b : Attribute}

theorem alike_hasKey (h : AttributeAlike S a b) :
    Alike S (AttributeRow.hasKey a).chars (AttributeRow.hasKey b).chars :=
  .compare .eq (.of (by decide) (by decide)) (.textConstant h.key)

theorem alike_stored (type : AttributeType) :
    Alike S (AttributeRow.column type.valueColumn).chars
      (AttributeRow.column type.valueColumn).chars := by
  cases type <;> exact .of (by decide) (by decide)

theorem alike_column (h : AttributeAlike S a b) :
    Alike S (Pivot.column a).chars (Pivot.column b).chars := by
  obtain ⟨akey, type⟩ := a
  obtain ⟨bkey, btype⟩ := b
  obtain rfl : type = btype := h.type
  have hstored := alike_stored (S := S) type
  have hid := Attribute.isIdentifier_columnId ⟨akey, type⟩
  have hname : (Attribute.mk akey type).columnId = (Attribute.mk bkey type).columnId := h.columnId
  cases type with
  | string =>
    have hvalue := Alike.choose_one (alike_hasKey h) hstored
    have htime : ColumnRef.IsPlain ⟨AttributeRow.relation, "created_at"⟩ :=
      ⟨Or.inr (by decide), by decide⟩
    have hfold := Alike.aggregate (g := .firstText ⟨AttributeRow.relation, "created_at"⟩) (by simp)
      htime hvalue
    have hnullif : isIdentifier "NULLIF" = true := by decide
    have hcall := Alike.call hnullif
      (.cons hfold (.cons (.constant "") .nil))
    unfold Pivot.column
    rw [← hname]
    exact hcall.namedItem hid
  | number =>
    have hnumeric : isIdentifier "NUMERIC" = true := by decide
    have hvalue := Alike.choose_one (alike_hasKey h) (.cast hnumeric hstored)
    have hfold := Alike.aggregate (g := .max) (by simp) trivial hvalue
    unfold Pivot.column
    rw [← hname]
    exact hfold.namedItem hid

theorem select_query_ne (settings : Settings) (site : Website) (as : List Attribute) :
    (Pivot.query settings site as).select ≠ [.star ""] := by
  intro heq
  cases (List.cons.inj heq).1

theorem lines_query (settings : Settings) (site : Website) (as : List Attribute) :
    (Pivot.query settings site as).lines =
      Item.selectLines (Pivot.query settings site as).select ++
        Query.sourceLines "FROM " (.table settings.eventDataTable AttributeRow.relation) ++
        Condition.blockLines (Pivot.query settings site as).conditions ++
        Query.groupLines [AttributeRow.column AttributeRow.eventColumn] := by
  simp [Pivot.query, Query.lines, Query.cteLines, Query.joinLines, Query.orderLines,
    Query.limitLines]

theorem linesAlike_query (settings : Settings) {site site' : Website} (hsite : S site.id site'.id)
    {as bs : List Attribute} (h : List.Forall₂ (AttributeAlike S) as bs) :
    LinesAlike S (Pivot.query settings site as).lines (Pivot.query settings site' bs).lines := by
  have hevent : Alike S (AttributeRow.column AttributeRow.eventColumn).chars
      (AttributeRow.column AttributeRow.eventColumn).chars := .of (by decide) (by decide)
  have hitems : List.Forall₂ (fun i j : Item => Alike S i.chars j.chars)
      (Pivot.query settings site as).select (Pivot.query settings site' bs).select := by
    refine .cons (.item hevent) ?_
    rw [List.forall₂_map_left_iff, List.forall₂_map_right_iff]
    exact h.imp fun _ _ hab => alike_column hab
  have hfrom : LinesAlike S
      (Query.sourceLines "FROM " (.table settings.eventDataTable AttributeRow.relation))
      (Query.sourceLines "FROM " (.table settings.eventDataTable AttributeRow.relation)) :=
    .table (k := "FROM".toList) rfl (by decide) _ (by decide)
  have hkeys : List.Forall₂ (fun e f : Expr => Alike S e.chars f.chars)
      (as.map fun a => .text a.key) (bs.map fun a => .text a.key) := by
    rw [List.forall₂_map_left_iff, List.forall₂_map_right_iff]
    exact h.imp fun _ _ hab => .textConstant hab.key
  have hrelation : isIdentifier AttributeRow.relation = true := by decide
  have hcolumn : isIdentifier scopeColumn = true := by decide
  have hkey : isIdentifier "data_key" = true := by decide
  have hscope := Alike.compare .eq (.of hrelation hcolumn) (.userText hsite)
  have hamong := Alike.among (.of hrelation hkey) hkeys
  have hconditions : List.Forall₂ (ConditionAlike S) (Pivot.query settings site as).conditions
      (Pivot.query settings site' bs).conditions :=
    .cons (.always (.all (.cons hscope (.cons hamong .nil)))) .nil
  have hblock := ConditionAlike.blockLines hconditions (by
    intro c hc
    obtain rfl := List.mem_singleton.1 hc
    exact ⟨_, rfl⟩)
  have hgroup := LinesAlike.group (S := S) (.cons hevent .nil)
  rw [lines_query, lines_query]
  exact (((Alike.selectLines (select_query_ne _ _ _) (select_query_ne _ _ _) hitems).append hfrom).append hblock).append hgroup

theorem lines_join (settings : Settings) (site : Website) (as : List Attribute) :
    Query.joinLines [Pivot.join settings site as] =
      [.fixed (JoinKind.left.keywords ++ " (")] ::
        (Pivot.query settings site as).lines.map Line.indent ++ [[.fixed (") " ++ Pivot.relation)]] ++
        [.fixed "  ON " :: (Expr.eq (.of relation AttributeRow.eventColumn)
          (.of baseName "event_id")).pieces] := by
  simp only [Pivot.join, Query.joinLines, Query.sourceLines]
  rfl

theorem linesAlike_join (settings : Settings) {site site' : Website} (hsite : S site.id site'.id)
    {as bs : List Attribute} (h : List.Forall₂ (AttributeAlike S) as bs) :
    LinesAlike S (Query.joinLines [Pivot.join settings site as])
      (Query.joinLines [Pivot.join settings site' bs]) := by
  have hopening : Alike.isFixed (JoinKind.left.keywords ++ " (").toList = true := by decide
  have hclosing : Alike.isFixed (") " ++ Pivot.relation).toList = true := by decide
  have hblock := LinesAlike.block hopening hclosing (linesAlike_query settings hsite h)
  have hon : LinesAlike S
      [.fixed "  ON " :: (Expr.eq (.of relation AttributeRow.eventColumn)
        (.of baseName "event_id")).pieces]
      [.fixed "  ON " :: (Expr.eq (.of relation AttributeRow.eventColumn)
        (.of baseName "event_id")).pieces] :=
    .cons (.fixed (by decide)) .nil
  rw [lines_join, lines_join]
  exact hblock.append hon

end Pivot

/-! ## The whole statement -/

namespace PlanAlike

variable {p q : Plan} {w : Warehouse}

theorem linesAlike_opening (h : PlanAlike S p q) (hw : w.registry.IsValid)
    (w' : Warehouse) (hcolumns : ∀ b, Base.columns w' b = Base.columns w b) :
    LinesAlike S (p.openingLines w) (q.openingLines w') := by
  have hwith : LinesAlike S [[.fixed ("WITH " ++ baseName ++ " AS (")]]
      [[.fixed ("WITH " ++ baseName ++ " AS (")]] := .fixed (by decide)
  have hselect : LinesAlike S (Item.selectLines [.star ""]) (Item.selectLines [.star ""]) :=
    .fixed (by decide)
  have hsource : LinesAlike S
      (Query.sourceLines "FROM " (.nested (Base.columns w p.withSession)))
      (Query.sourceLines "FROM " (.nested (Base.columns w p.withSession))) := by
    have hopening : Alike.isFixed "FROM (".toList = true := by decide
    have hclosing : Alike.isFixed ")".toList = true := by decide
    exact .block hopening hclosing (Base.linesAlike_columns hw p.withSession)
  unfold Plan.openingLines
  rw [hcolumns, ← h.withSession]
  exact hwith.append (hselect.append hsource).indent

theorem linesAlike_scope (h : PlanAlike S p q) : LinesAlike S [p.scopeLine] [q.scopeLine] := by
  have hcolumn : ColumnRef.IsPlain (.bare scopeColumn) := ⟨Or.inl rfl, by decide⟩
  have hexpr := Alike.compare .eq (.column hcolumn) (.userText h.website)
  exact (ConditionAlike.firstLine hexpr).indent

theorem linesAlike_filters (h : PlanAlike S p q) : LinesAlike S p.filterLines q.filterLines :=
  (ConditionAlike.flatMap_lines h.baseConditions).indent

theorem linesAlike_select (h : PlanAlike S p q) (w' : Warehouse)
    (hjoin : ∀ site as, Pivot.join w'.settings site as = Pivot.join w.settings site as) :
    LinesAlike S (p.selectLines w) (q.selectLines w') := by
  have hclose : LinesAlike S [[.fixed ")"]] [[.fixed ")"]] := .fixed (by decide)
  have hselect := Alike.selectLines h.select_ne.1 h.select_ne.2 h.select
  have hfrom : LinesAlike S [[.fixed ("FROM " ++ baseName)]] [[.fixed ("FROM " ++ baseName)]] :=
    .fixed (by decide)
  have hjoins : LinesAlike S (Query.joinLines (p.query w).joins)
      (Query.joinLines (q.query w').joins) := by
    simp only [Plan.query, hjoin]
    cases hp : p.attributes with
    | nil =>
      have hq := h.attributes
      rw [hp, List.forall₂_nil_left_iff] at hq
      rw [hq]
      exact .nil
    | cons a as =>
      have hattributes := h.attributes
      rw [hp] at hattributes
      cases hq : q.attributes with
      | nil =>
        rw [hq] at hattributes
        cases hattributes
      | cons b bs =>
        rw [hq] at hattributes
        exact Pivot.linesAlike_join w.settings h.website hattributes
  exact hclose.append ((hselect.append hfrom).append hjoins)

theorem linesAlike_outer (h : PlanAlike S p q) : LinesAlike S p.outerLines q.outerLines :=
  ConditionAlike.blockLines h.outerConditions h.outerAlways

theorem linesAlike_tail (h : PlanAlike S p q) (w' : Warehouse)
    (hlimit : w'.settings.rowLimit = w.settings.rowLimit) :
    LinesAlike S (p.tailLines w) (q.tailLines w') := by
  unfold Plan.tailLines
  rw [← h.orderBy, hlimit]
  exact ((LinesAlike.group h.groupBy).append (.order h.orderPlain)).append (.limit _)

/-- The statements of two plans are alike line by line. The warehouses may differ in the time zone,
which is part of the plans already. -/
theorem linesAlike (h : PlanAlike S p q) (hw : w.registry.IsValid) (zone : Option String) :
    LinesAlike S (p.query w).lines
      (q.query { w with settings := { w.settings with timezone := zone } }).lines := by
  let w' : Warehouse := { w with settings := { w.settings with timezone := zone } }
  have hopening := h.linesAlike_opening hw w' fun _ => rfl
  have hselect := h.linesAlike_select (w := w) w' fun _ _ => rfl
  have htail := h.linesAlike_tail (w := w) w' rfl
  rw [Plan.lines_query, Plan.lines_query]
  exact hopening.append (h.linesAlike_scope.append (h.linesAlike_filters.append
    (hselect.append (h.linesAlike_outer.append htail))))

end PlanAlike

end

end EventReport
