/-
# By what a report is ordered

A report that asks for no order of its own, or for one by an output that it does not show, is
ordered by its groups: the latest date first if it is grouped by the time, and else the
greatest first column.  Whether it is grouped by the time is not looked at, though, but
whether it shows an output with the name of the date bucket.

## What is proved

`orderBy_eq_groupedOrder_iff`: such a report is ordered by its groups exactly if it is grouped
by the time or shows nothing else under the name of the date bucket (`Report.TakesDate`).
Whatever else it shows under that name is what it is ordered by.  Even a report without any
groups may come out ordered in this way (`orderBy_ne_groupedOrder_of_metric`).

## Shape of the proof

The names that are shown are those that fields, metrics and attributes have
(`mem_names_iff_asked`), so that the name of the date bucket is shown in three ways.
The order is then read off, once for a report that is grouped by the time, once for one that
does not show the name, and once for one that shows it for something else.
-/
import EventReport.Proofs.Plan.Grouping

namespace EventReport

open Sql

namespace Projection

variable {settings : Settings} {scope : Scope} {o : Outline}

/-! ## The names that are shown -/

theorem mem_names_iff_asked {name : String} : name ∈ (of settings scope o).names ↔
    (∃ field ∈ o.groupBy, scope.registry.leadsAs name field = true) ∨
      name ∈ o.metricNames ∨ ∃ a ∈ scope.readAttributes o, a.columnId = name := by
  have hfields : (∃ x ∈ o.groupBy.flatMap (fieldOutputs settings scope o.granularity),
      x.name? = some name) ↔ ∃ field ∈ o.groupBy, scope.registry.leadsAs name field = true := by
    have hfirst := find?_fieldOutputs settings o.granularity scope o.groupBy name
    have hsome := congrArg Option.isSome hfirst
    rw [Option.isSome_map, Bool.eq_iff_iff, List.find?_isSome, List.find?_isSome] at hsome
    simpa using hsome
  have hmetrics : (∃ x ∈ o.shownMetrics.zipIdx.map (metricOutput scope), x.name? = some name) ↔
      name ∈ o.metricNames := by
    simp only [List.mem_map, exists_exists_and_eq_and, Outline.mem_metricNames_iff]
    exact exists_congr fun placed => and_congr_right fun _ => Option.some_inj
  have hattributes : (∃ x ∈ (scope.readAttributes o).map (attributeOutput scope o),
      x.name? = some name) ↔ ∃ a ∈ scope.readAttributes o, a.columnId = name := by
    simp only [List.mem_map, exists_exists_and_eq_and, Output.name?, outputName_attributeOutput,
      Option.some_inj]
  rw [mem_names_iff, ← hfields, ← hmetrics, ← hattributes, askedOutputs]
  simp only [List.mem_append, or_and_right, exists_or, or_assoc]

/-! ## The order -/

/-- An order is by an output if it is shown, the time standing for its bucket. -/
theorem orderBy_addOrder_some (registry : Registry) (ob : OrderBy) (p : Projection) :
    (p.addOrder registry (some ob)).orderBy =
      if registry.outputName ob.column ∈ p.names then
        [⟨.output (registry.outputName ob.column), ob.direction⟩]
      else p.defaultOrder := by
  unfold addOrder Registry.outputName
  dsimp only
  generalize (if registry.isTimestamp ob.column then dateAlias else ob.column) = name
  by_cases hshown : name ∈ p.names
  · rw [if_pos hshown, if_pos hshown]
  · rw [if_neg hshown, if_neg hshown]

theorem orderBy_of_some {ob : OrderBy} (hordered : o.orderBy = some ob) :
    (of settings scope o).orderBy =
      if scope.registry.outputName ob.column ∈ (of settings scope o).names then
        [⟨.output (scope.registry.outputName ob.column), ob.direction⟩]
      else (of settings scope o).defaultOrder := by
  obtain ⟨full, hof⟩ : ∃ full : Projection,
      of settings scope o = full.addOrder scope.registry o.orderBy := ⟨_, rfl⟩
  obtain ⟨keys, warnings, heq, -⟩ := addOrder_cases scope.registry o.orderBy full
  have hkeys := orderBy_addOrder_some scope.registry ob full
  rw [← hordered, heq] at hkeys
  rw [hof, heq]
  exact hkeys

theorem orderBy_of_none (hunordered : o.orderBy = none) :
    (of settings scope o).orderBy = (of settings scope o).defaultOrder := by
  unfold of addOrder
  rw [hunordered]
  rfl

end Projection

/-! ## The order of a plan -/

/-- The order that the groups of a report suggest. -/
def Outline.groupedOrder (o : Outline) (registry : Registry) (keys : List Expr) : List SortKey :=
  if registry.timestampField ∈ o.groupBy then [⟨.output Projection.dateAlias, .desc⟩]
  else if keys.isEmpty then []
  else [⟨.position 1, .desc⟩]

namespace Report

/-- The report does not order its outputs: if it asks for an order, then by a column that it does
not show, and that is not the time by which it is grouped. -/
def LeavesOrder (w : Warehouse) (site : Website) (r : Report) : Prop :=
  ∀ ob ∈ r.outline.orderBy, ob.column ∉ (w.plan site r).projection.names ∧
    ¬(w.registry.isTimestamp ob.column = true ∧ w.registry.timestampField ∈ r.outline.groupBy)

/-- Another output than the date bucket has its name. -/
inductive TakesDate (w : Warehouse) (r : Report) : Prop
  | column (htime : ¬w.registry.isTimestamp Projection.dateAlias = true)
      (hfield : Projection.dateAlias ∈ r.outline.groupBy)
      (hin : w.registry.contains Projection.dateAlias = true)
  | metric (hname : Projection.dateAlias ∈ r.outline.metricNames)

variable (w : Warehouse) (site : Website) (r : Report)

/-- The name of the date bucket is shown for it or for another output. -/
theorem dateAlias_mem_names_iff :
    Projection.dateAlias ∈ (w.plan site r).projection.names ↔
      w.registry.timestampField ∈ r.outline.groupBy ∨ r.TakesDate w := by
  have hshown : Projection.dateAlias ∈ (w.plan site r).projection.names ↔ _ :=
    Projection.mem_names_iff_asked
  rw [hshown, Registry.exists_leadsAs_iff]
  constructor
  · rintro ((⟨hfield, -⟩ | ⟨hfield, htime, hin⟩) | hname | ⟨a, -, hid⟩)
    · exact Or.inl hfield
    · exact Or.inr (.column htime hfield hin)
    · exact Or.inr (.metric hname)
    · exact absurd hid a.columnId_ne_dateAlias
  · rintro (hfield | ⟨htime, hfield, hin⟩ | ⟨hname⟩)
    · exact Or.inl (Or.inl ⟨hfield, rfl⟩)
    · exact Or.inl (Or.inr ⟨hfield, htime, hin⟩)
    · exact Or.inr (Or.inl hname)

variable {w site r} in
/-- The output with the name of the date bucket may be ordered by in the direction that was meant
for the time. -/
theorem LeavesOrder.orderBy_cases (h : r.LeavesOrder w site) :
    (w.plan site r).projection.orderBy = (w.plan site r).projection.defaultOrder ∨
      w.registry.timestampField ∉ r.outline.groupBy ∧
        Projection.dateAlias ∈ (w.plan site r).projection.names ∧
          ∃ ob ∈ r.outline.orderBy,
            (w.plan site r).projection.orderBy =
              [⟨.output Projection.dateAlias, ob.direction⟩] := by
  cases hordered : r.outline.orderBy with
  | none => exact Or.inl (Projection.orderBy_of_none hordered)
  | some ob =>
    obtain ⟨hhidden, huntimed⟩ := h ob hordered
    have hkeys : (w.plan site r).projection.orderBy = _ := Projection.orderBy_of_some hordered
    rw [hkeys]
    have hname : (Scope.of w.registry r.attributes).registry.outputName ob.column =
        if w.registry.isTimestamp ob.column then Projection.dateAlias else ob.column := rfl
    rw [hname]
    by_cases htime : w.registry.isTimestamp ob.column = true
    · rw [if_pos htime]
      by_cases hdate : Projection.dateAlias ∈ (w.plan site r).projection.names
      · exact Or.inr ⟨fun hgrouped => huntimed ⟨htime, hgrouped⟩, hdate, ob, rfl, if_pos hdate⟩
      · exact Or.inl (if_neg hdate)
    · rw [if_neg htime]
      exact Or.inl (if_neg hhidden)

end Report

theorem Outline.groupedOrder_ne {o : Outline} {registry : Registry}
    (hungrouped : registry.timestampField ∉ o.groupBy) (keys : List Expr) (d : Direction) :
    [⟨.output Projection.dateAlias, d⟩] ≠ o.groupedOrder registry keys := by
  unfold groupedOrder
  rw [if_neg hungrouped]
  split
  · simp
  · simp

/-- Another output that has the name of the date bucket is ordered by. -/
theorem Report.LeavesOrder.exists_direction {w : Warehouse} {site : Website} {r : Report}
    (hleaves : r.LeavesOrder w site) (htaken : r.TakesDate w) :
    ∃ d, (w.plan site r).projection.orderBy = [⟨.output Projection.dateAlias, d⟩] ∧
      (r.outline.orderBy = none → d = .desc) := by
  have hshown := (r.dateAlias_mem_names_iff w site).2 (Or.inr htaken)
  rcases hleaves.orderBy_cases with hdefault | ⟨-, -, ob, hob, hkeys⟩
  · exact ⟨.desc, hdefault.trans (if_pos hshown), fun _ => rfl⟩
  · refine ⟨ob.direction, hkeys, fun hnone => ?_⟩
    rw [hnone] at hob
    cases hob

/-- A report that does not order its outputs is ordered by its groups if it is grouped by the time
or no other output has the name of the date bucket, and only then.  An output that has that name is
ordered by. -/
theorem orderBy_eq_groupedOrder_iff (w : Warehouse) (site : Website) (r : Report)
    (hleaves : r.LeavesOrder w site) :
    ((w.plan site r).projection.orderBy =
        r.outline.groupedOrder w.registry (w.plan site r).projection.groupBy ↔
      w.registry.timestampField ∈ r.outline.groupBy ∨ ¬r.TakesDate w) ∧
    (r.TakesDate w →
      ∃ d, (w.plan site r).projection.orderBy = [⟨.output Projection.dateAlias, d⟩] ∧
        (r.outline.orderBy = none → d = .desc)) := by
  have hdate := r.dateAlias_mem_names_iff w site
  refine ⟨⟨?_, ?_⟩, hleaves.exists_direction⟩
  · intro hkeys
    by_contra hother
    obtain ⟨hungrouped, htaken⟩ := not_or.1 hother
    obtain ⟨d, hd, -⟩ := hleaves.exists_direction (not_not.1 htaken)
    exact Outline.groupedOrder_ne hungrouped _ d (hd.symm.trans hkeys)
  · intro hown
    by_cases hgrouped : w.registry.timestampField ∈ r.outline.groupBy
    · have hdefault := hleaves.orderBy_cases.resolve_right fun h => h.1 hgrouped
      rw [hdefault, Outline.groupedOrder, if_pos hgrouped]
      exact if_pos (hdate.2 (Or.inl hgrouped))
    · have hfree := hown.resolve_left hgrouped
      have hhidden : Projection.dateAlias ∉ (w.plan site r).projection.names :=
        fun hshown => (hdate.1 hshown).elim hgrouped hfree
      have hdefault := hleaves.orderBy_cases.resolve_right fun h => hhidden h.2.1
      rw [hdefault, Outline.groupedOrder, if_neg hgrouped]
      exact if_neg hhidden

/-- A report that would be ordered by an output that it does not show, and has no other that is
called like the date bucket. -/
theorem orderBy_eq_groupedOrder_iff_unknown :
    ∃ r : Report, r.outline.orderBy = some ⟨"visits", .asc⟩ ∧
      r.LeavesOrder {} { id := "w" } ∧
        ((Warehouse.plan {} { id := "w" } r).projection.orderBy =
            r.outline.groupedOrder .standard
              (Warehouse.plan {} { id := "w" } r).projection.groupBy ↔
          Registry.defaultTimestampField ∈ r.outline.groupBy ∨ ¬r.TakesDate {}) := by
  let r : Report := { outline := { groupBy := ["country"], orderBy := some ⟨"visits", .asc⟩ } }
  have hleaves : r.LeavesOrder {} { id := "w" } := by
    rintro ob ⟨rfl⟩
    refine ⟨by decide +kernel, ?_⟩
    rintro ⟨htime, -⟩
    exact absurd htime (by decide)
  exact ⟨r, rfl, hleaves, (orderBy_eq_groupedOrder_iff {} { id := "w" } r hleaves).1⟩

/-- A report that has no groups and asks for no order, with a metric that is called like the date
bucket: it is ordered by the metric. -/
theorem orderBy_ne_groupedOrder_of_metric :
    Registry.standard.IsValid ∧
      ∃ r : Report, r.outline.orderBy = none ∧ r.outline.groupBy = [] ∧
        (Warehouse.plan {} { id := "w" } r).projection.orderBy ≠
          r.outline.groupedOrder .standard
            (Warehouse.plan {} { id := "w" } r).projection.groupBy := by
  have hvalid : Registry.standard.validate = .ok () := by decide
  let r : Report := { outline := { metrics := [{ name := some "dato" }] } }
  exact ⟨hvalid, r, rfl, rfl, by decide +kernel⟩

end EventReport
