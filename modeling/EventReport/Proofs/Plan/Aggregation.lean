/-
# The statement of a report is a valid aggregation

A statement with aggregates may show, besides them, only what it is grouped by, and it may
order its groups only by what it shows.  The warehouse refuses any other one.

## What is proved

`isAggregation_query`: for every warehouse and every report, valid registry or not, the
outermost statement shows something; each item that is no aggregate is a group key, and
each group key is such an item; and each sort key names an output, or is the first column
of a grouped statement.

## What it is NOT

Nothing is said of the columns that the items read; that is a matter of scope.  Nor is it
said that two outputs cannot differ in the case of letters only.

## Shape of the proof

Every output that a report asks for is of one of two kinds, an aggregate without a group
key, or a plain item with its own (`isPlanned_of_mem_askedOutputs`).  What is shown are
some of them, each together with its key (`Grows`), so nothing more is needed.
-/
import EventReport.Plan.Basic
import EventReport.Proofs.Plan.Projection

namespace EventReport

open Sql

/-! ## Valid aggregations -/

/-- How an item that is no aggregate stands among the group keys: a column as itself, and the date
bucket by its alias. -/
inductive Sql.Item.IsGroupedBy : Item → Expr → Prop
  | column (c : ColumnRef) : IsGroupedBy (.expr (.column c) none) (.column c)
  | bucket (settings : Settings) (granularity : Option Granularity) (timestamp : String) :
      IsGroupedBy
        (.expr (Projection.dateBucket settings granularity timestamp) (some Projection.dateAlias))
        (.column (.bare Projection.dateAlias))

/-- The statement shows groups of rows, each output being an aggregate or a group key. -/
structure Sql.Query.IsAggregation (q : Query) : Prop where
  select_ne : q.select ≠ []
  /-- No star, whose columns would be no keys. -/
  starless : ∀ relation, .star relation ∉ q.select
  grouped : ∀ e name, .expr e name ∈ q.select → e.isAggregate = false →
    ∃ key ∈ q.groupBy, Item.IsGroupedBy (.expr e name) key
  keys : ∀ key ∈ q.groupBy, ∃ e name, .expr e name ∈ q.select ∧ e.isAggregate = false ∧
    Item.IsGroupedBy (.expr e name) key
  /-- One group of all rows. -/
  ungrouped : q.groupBy = [] → ∀ e name, .expr e name ∈ q.select → e.isAggregate = true
  orderBy : ∀ k ∈ q.orderBy, (∃ name ∈ q.outputNames, k.target = .output name) ∨
    k.target = .position 1 ∧ q.groupBy ≠ []

/-! ## The outputs that a report asks for -/

namespace Projection

/-- An aggregate, or an item with its group key. -/
inductive Output.IsPlanned : Output → Prop
  | aggregate {e : Expr} (name : String) (h : e.isAggregate = true) :
      IsPlanned ⟨.expr e (some name), none⟩
  | key {e : Expr} {name : Option String} {key : Expr} (h : e.isAggregate = false)
      (hkey : Item.IsGroupedBy (.expr e name) key) : IsPlanned ⟨.expr e name, some key⟩

theorem isAggregate_dateBucket (settings : Settings) (granularity : Option Granularity)
    (timestamp : String) : (dateBucket settings granularity timestamp).isAggregate = false := by
  unfold dateBucket
  cases settings.timezone <;> rfl

/-- Whatever a metric falls back to is an aggregate. -/
theorem isAggregate_metric (scope : Scope) (name : String) (m : Metric) :
    (m.expr scope name).1.isAggregate = true := by
  have hexpr := m.hasExpr_expr scope name
  generalize m.expr scope name = shown at hexpr ⊢
  cases hexpr <;> rfl

variable {settings : Settings} {scope : Scope} {o : Outline}

theorem IsOutput.isPlanned {i : Item} {key : Option Expr} (h : IsOutput settings scope o i key) :
    Output.IsPlanned ⟨i, key⟩ := by
  cases h with
  | date => exact .key (isAggregate_dateBucket _ _ _) (.bucket _ _ _)
  | column => exact .key rfl (.column _)
  | metric => exact .aggregate _ (isAggregate_metric _ _ _)
  | key => exact .key rfl (.column _)
  | @folded a =>
    refine .aggregate _ ?_
    cases a.type <;> rfl

/-- The outputs that are shown, each with its key. -/
theorem exists_planned_of (settings : Settings) (scope : Scope) (o : Outline) :
    ∃ kept : List Output, (∀ x ∈ kept, x.IsPlanned) ∧
      (of settings scope o).select = kept.map Output.item ∧
      (of settings scope o).groupBy = kept.filterMap Output.key := by
  obtain ⟨_, kept, -, hgrows⟩ := exists_grows_of settings scope o
  refine ⟨kept, ?_, hgrows.select, hgrows.groupBy⟩
  intro x hx
  exact (isOutput_of_mem_askedOutputs (hgrows.sublist.subset hx)).isPlanned

/-! ## Items and keys of planned outputs -/

section Planned

variable {kept : List Output} (h : ∀ x ∈ kept, x.IsPlanned)
include h

theorem star_not_mem_of_planned (relation : String) : .star relation ∉ kept.map Output.item := by
  intro hmem
  obtain ⟨x, hx, hitem⟩ := List.mem_map.1 hmem
  cases h x hx with
  | aggregate => cases hitem
  | key => cases hitem

/-- An item that is no aggregate has its key. -/
theorem exists_key_of_planned {e : Expr} {name : Option String}
    (hi : .expr e name ∈ kept.map Output.item) (hplain : e.isAggregate = false) :
    ∃ key ∈ kept.filterMap Output.key, Item.IsGroupedBy (.expr e name) key := by
  obtain ⟨x, hx, hitem⟩ := List.mem_map.1 hi
  cases h x hx with
  | aggregate _ haggregate =>
    cases hitem
    rw [haggregate] at hplain
    cases hplain
  | @key _ _ key _ hby =>
    cases hitem
    exact ⟨key, List.mem_filterMap.2 ⟨_, hx, rfl⟩, hby⟩

/-- A key has its item, which is no aggregate. -/
theorem exists_item_of_planned {key : Expr} (hkey : key ∈ kept.filterMap Output.key) :
    ∃ e name, .expr e name ∈ kept.map Output.item ∧ e.isAggregate = false ∧
      Item.IsGroupedBy (.expr e name) key := by
  obtain ⟨x, hx, hsome⟩ := List.mem_filterMap.1 hkey
  cases h x hx with
  | aggregate => cases hsome
  | @key e name _ hplain hby =>
    obtain rfl := Option.some.inj hsome
    exact ⟨e, name, List.mem_map.2 ⟨_, hx, rfl⟩, hplain, hby⟩

end Planned

end Projection

/-! ## The statement -/

/-- The statement of every report is a valid aggregation. -/
theorem isAggregation_query (w : Warehouse) (site : Website) (r : Report) :
    ((w.plan site r).query w).IsAggregation := by
  let scope := Scope.of w.registry r.attributes
  obtain ⟨kept, hplanned, hselect, hgroupBy⟩ :=
    Projection.exists_planned_of w.settings scope r.outline
  have hshown : ((w.plan site r).query w).select = kept.map Projection.Output.item := hselect
  have hkeys : ((w.plan site r).query w).groupBy = kept.filterMap Projection.Output.key := hgroupBy
  constructor
  case select_ne => exact Projection.select_of_ne_nil w.settings scope r.outline
  case starless =>
    intro relation
    rw [hshown]
    exact Projection.star_not_mem_of_planned hplanned relation
  case grouped =>
    intro e name hi hplain
    rw [hshown] at hi
    rw [hkeys]
    exact Projection.exists_key_of_planned hplanned hi hplain
  case keys =>
    intro key hkey
    rw [hkeys] at hkey
    rw [hshown]
    exact Projection.exists_item_of_planned hplanned hkey
  case ungrouped =>
    intro hnil e name hi
    rw [hshown] at hi
    rw [hkeys] at hnil
    cases hplain : e.isAggregate with
    | true => rfl
    | false =>
      obtain ⟨key, hmem, -⟩ := Projection.exists_key_of_planned hplanned hi hplain
      rw [hnil] at hmem
      cases hmem
  case orderBy =>
    intro k hk
    exact Projection.target_of_mem_orderBy_grouped hk

end EventReport
