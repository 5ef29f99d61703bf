/-
# What a report can show

Whatever the report says, each item of the select list is of one of five kinds
(`Shows`) and each group key of one of three (`IsGroupKey`).  Where it matters which
name in the report asks for an item, `IsOutput` says so too.  Every later statement
about the outer select list is a case for each kind.  A metric, in turn, is shown in one of
six ways (`Metric.HasExpr`).
-/
import EventReport.Proofs.Plan.Outputs
import EventReport.Proofs.Plan.Reference

namespace EventReport

open Sql

namespace Projection

variable (settings : Settings) (scope : Scope) (o : Outline)

/-- The items that a report can show. -/
inductive Shows : Item → Prop where
  | date : Shows
      (.expr (dateBucket settings o.granularity scope.registry.timestampField) (some dateAlias))
  | column {c : Column} (h : c ∈ scope.registry.columns) : Shows (.expr (.of baseName c.name) none)
  | metric (m : Metric) (place : Nat) : Shows
      (.expr (m.expr scope (m.outputName place).1).1 (some (m.outputName place).1))
  /-- An attribute by which the report is grouped. -/
  | key {a : Attribute} (h : a ∈ scope.attributes) : Shows (.expr (Pivot.value a) none)
  /-- The one value of an attribute for a group. -/
  | folded {a : Attribute} (h : a ∈ scope.attributes) : Shows
      (.expr (Pivot.fold a.type ⟨baseName, scope.registry.timestampField⟩ (Pivot.value a))
        (some a.columnId))

/-- The keys by which a report can be grouped. -/
inductive IsGroupKey : Expr → Prop where
  | date : IsGroupKey (.column (.bare dateAlias))
  | column {c : Column} (h : c ∈ scope.registry.columns) : IsGroupKey (.of baseName c.name)
  | attribute {a : Attribute} (h : a ∈ scope.attributes) : IsGroupKey (Pivot.value a)

/-- The items that a report asks for, each with its group key if it is grouped by.  This says what
`Shows` and `IsGroupKey` say, and which name in the report asks for the item. -/
inductive IsOutput : Item → Option Expr → Prop where
  | date : IsOutput
      (.expr (dateBucket settings o.granularity scope.registry.timestampField) (some dateAlias))
      (some (.column (.bare dateAlias)))
  | column {field : String} {c : Column} (hfield : field ∈ o.groupBy)
      (hres : scope.resolve field = some (.column c)) :
      IsOutput (.expr (.of baseName c.name) none) (some (.of baseName c.name))
  | metric {m : Metric} (place : Nat) (hm : m ∈ o.shownMetrics) : IsOutput
      (.expr (m.expr scope (m.outputName place).1).1 (some (m.outputName place).1)) none
  | key {a : Attribute} (ha : a ∈ scope.readAttributes o) :
      IsOutput (.expr (Pivot.value a) none) (some (Pivot.value a))
  | folded {a : Attribute} (ha : a ∈ scope.readAttributes o) : IsOutput
      (.expr (Pivot.fold a.type ⟨baseName, scope.registry.timestampField⟩ (Pivot.value a))
        (some a.columnId)) none

/-- A projection of such outputs: each group key is that of an item which is shown. -/
structure IsBuilt (p : Projection) : Prop where
  select : ∀ i ∈ p.select, ∃ key, IsOutput settings scope o i key
  groupBy : ∀ e ∈ p.groupBy, ∃ i ∈ p.select, IsOutput settings scope o i (some e)

/-- A projection with such items and such keys. -/
structure IsFit (p : Projection) : Prop where
  select : ∀ i ∈ p.select, Shows settings scope o i
  groupBy : ∀ e ∈ p.groupBy, IsGroupKey scope e

variable {settings scope o}

/-! ## The order comes last and adds nothing else -/

theorem addOrder_cases (registry : Registry) (orderBy : Option OrderBy) (p : Projection) :
    ∃ keys warnings, p.addOrder registry orderBy = { p with orderBy := keys, warnings } ∧
      (keys = p.defaultOrder ∨ ∃ name ∈ p.names, ∃ d, keys = [⟨.output name, d⟩]) := by
  unfold addOrder
  split
  · exact ⟨p.defaultOrder, p.warnings, rfl, Or.inl rfl⟩
  · next ob =>
    dsimp only
    generalize (if registry.isTimestamp ob.column then dateAlias else ob.column) = name
    split
    · next h => exact ⟨_, p.warnings, rfl, Or.inr ⟨name, h, ob.direction, rfl⟩⟩
    · exact ⟨p.defaultOrder, _, rfl, Or.inl rfl⟩

/-! ## What is shown is what the report names -/

/-- What a report asks for is an output of one of the five kinds. -/
theorem isOutput_of_mem_askedOutputs {x : Output} (hx : x ∈ askedOutputs settings scope o) :
    IsOutput settings scope o x.item x.key := by
  rcases List.mem_append.1 hx with hx | hx
  · rcases List.mem_append.1 hx with hx | hx
    · obtain ⟨field, hfield, hx⟩ := List.mem_flatMap.1 hx
      unfold fieldOutputs at hx
      split at hx
      · obtain rfl := List.mem_singleton.1 hx
        exact .date
      · split at hx
        · next c hres =>
          obtain rfl := List.mem_singleton.1 hx
          exact .column hfield hres
        · cases hx
        · cases hx
    · obtain ⟨placed, hplaced, rfl⟩ := List.mem_map.1 hx
      exact .metric placed.2 (List.fst_mem_of_mem_zipIdx hplaced)
  · obtain ⟨a, ha, rfl⟩ := List.mem_map.1 hx
    unfold attributeOutput
    split
    · exact .key ha
    · exact .folded ha

/-- The projection of every report is built of outputs. -/
theorem isBuilt_of (settings : Settings) (scope : Scope) (o : Outline) :
    IsBuilt settings scope o (Projection.of settings scope o) := by
  obtain ⟨_, kept, -, hgrows⟩ := exists_grows_of settings scope o
  have houtput {x : Output} (hx : x ∈ kept) : IsOutput settings scope o x.item x.key :=
    isOutput_of_mem_askedOutputs (hgrows.sublist.subset hx)
  constructor
  case select =>
    intro i hi
    rw [hgrows.select] at hi
    obtain ⟨x, hx, rfl⟩ := List.mem_map.1 hi
    exact ⟨x.key, houtput hx⟩
  case groupBy =>
    intro e he
    rw [hgrows.groupBy] at he
    obtain ⟨x, hx, hkey⟩ := List.mem_filterMap.1 he
    refine ⟨x.item, ?_, ?_⟩
    · rw [hgrows.select]
      exact List.mem_map_of_mem hx
    · rw [← hkey]
      exact houtput hx

theorem IsOutput.shows {i : Item} {key : Option Expr} (h : IsOutput settings scope o i key) :
    Shows settings scope o i := by
  cases h with
  | date => exact .date
  | column _ hres => exact .column (Scope.mem_of_resolve_column hres)
  | metric place _ => exact .metric _ place
  | key ha => exact .key (Scope.mem_of_mem_readAttributes ha)
  | folded ha => exact .folded (Scope.mem_of_mem_readAttributes ha)

theorem IsOutput.isGroupKey {i : Item} {e : Expr} (h : IsOutput settings scope o i (some e)) :
    IsGroupKey scope e := by
  cases h with
  | date => exact .date
  | column _ hres => exact .column (Scope.mem_of_resolve_column hres)
  | key ha => exact .attribute (Scope.mem_of_mem_readAttributes ha)

/-- The projection of every report is fit. -/
theorem isFit_of (settings : Settings) (scope : Scope) (o : Outline) :
    IsFit settings scope o (Projection.of settings scope o) := by
  have h := isBuilt_of settings scope o
  refine ⟨?_, ?_⟩
  · intro i hi
    obtain ⟨key, hout⟩ := h.select i hi
    exact hout.shows
  · intro e he
    obtain ⟨i, -, hout⟩ := h.groupBy e he
    exact hout.isGroupKey

/-- By default, the first column is sorted by only where there are groups. -/
theorem target_of_mem_defaultOrder {p : Projection} {k : SortKey} (h : k ∈ p.defaultOrder) :
    (∃ name ∈ p.names, k.target = .output name) ∨ k.target = .position 1 ∧ p.groupBy ≠ [] := by
  unfold defaultOrder at h
  split at h
  · next hdate =>
    obtain rfl := List.mem_singleton.1 h
    exact Or.inl ⟨dateAlias, hdate, rfl⟩
  · split at h
    · cases h
    · next hgroups =>
      obtain rfl := List.mem_singleton.1 h
      exact Or.inr ⟨rfl, by simpa using hgroups⟩

/-- A sort key names an output, or it is the first column of a grouped report. -/
theorem target_of_mem_orderBy_grouped {k : SortKey} (h : k ∈ (of settings scope o).orderBy) :
    (∃ name ∈ (of settings scope o).names, k.target = .output name) ∨
      k.target = .position 1 ∧ (of settings scope o).groupBy ≠ [] := by
  unfold of at h ⊢
  dsimp only at h ⊢
  generalize (scope.readAttributes o).foldl (addAttribute scope o) _ = p at h ⊢
  obtain ⟨keys, warnings, heq, hkeys⟩ := addOrder_cases scope.registry o.orderBy p
  rw [heq] at h ⊢
  rcases hkeys with rfl | ⟨name, hname, d, rfl⟩
  · exact target_of_mem_defaultOrder h
  · obtain rfl := List.mem_singleton.1 h
    exact Or.inl ⟨name, hname, rfl⟩

theorem target_of_mem_orderBy {k : SortKey} (h : k ∈ (of settings scope o).orderBy) :
    k.target = .position 1 ∨ ∃ name ∈ (of settings scope o).names, k.target = .output name := by
  rcases target_of_mem_orderBy_grouped h with hname | ⟨hfirst, -⟩
  · exact Or.inr hname
  · exact Or.inl hfirst

end Projection

/-! ## Metrics -/

/-- No function with a column aggregates by counting rows. -/
theorem MetricFunction.aggregation?_ne_countRows {f : MetricFunction} {g : Aggregation}
    (h : f.aggregation? = some g) : g ≠ .countRows := by
  cases f <;> simp [aggregation?] at h <;> rw [← h] <;> simp

namespace Metric

/-- The six ways in which a metric is shown: three of them are row counts for want of anything
else, and something is said of each. -/
inductive HasExpr (scope : Scope) (name : String) (m : Metric) : Expr × List Warning → Prop
  | count (hfunction : m.function = .count) : HasExpr scope name m (.countRows, [])
  | unknownFunction {spelling : String} (hfunction : m.function = .unknown spelling) :
      HasExpr scope name m (.countRows, [.unknownFunction spelling])
  | missingColumn (hcolumn : m.column = none) :
      HasExpr scope name m (.countRows, [.missingMetricColumn name m.function.name])
  | unknownColumn {column : String} (hcolumn : m.column = some column)
      (hres : scope.resolve column = none) :
      HasExpr scope name m (.countRows, [.unknownColumn column .metric])
  | column {f : Aggregation} {column : String} {c : Column}
      (hf : m.function.aggregation? = some f) (hcolumn : m.column = some column)
      (hres : scope.resolve column = some (.column c)) :
      HasExpr scope name m (.aggregate f (some (.of baseName c.name)), [])
  | value {f : Aggregation} {column : String} {a : Attribute}
      (hf : m.function.aggregation? = some f) (hcolumn : m.column = some column)
      (hres : scope.resolve column = some (.attribute a)) :
      HasExpr scope name m (.aggregate f (some (Pivot.value a)), [])

theorem hasExpr_expr (scope : Scope) (name : String) (m : Metric) :
    m.HasExpr scope name (m.expr scope name) := by
  unfold expr
  split
  · next spelling hfunction => exact .unknownFunction hfunction
  · next hnone hknown =>
    refine .count ?_
    cases hfunction : m.function with
    | count => rfl
    | unknown spelling => exact absurd hfunction (hknown spelling)
    | countDistinct | sum | average | median | min | max =>
      rw [hfunction] at hnone
      cases hnone
  · next f hf _ =>
    split
    · next hcolumn => exact .missingColumn hcolumn
    · next column hcolumn =>
      split
      · next c hres => exact .column hf hcolumn hres
      · next a hres => exact .value hf hcolumn hres
      · next hres => exact .unknownColumn hcolumn hres

/-- What a metric can show: the row count, or an aggregate of a column or an attribute. -/
theorem expr_cases (scope : Scope) (name : String) (m : Metric) :
    (m.expr scope name).1 = .countRows ∨
      ∃ f, f ≠ Aggregation.countRows ∧
        ((∃ c ∈ scope.registry.columns,
          m.function.aggregation? = some f ∧
            (m.expr scope name).1 = .aggregate f (some (.of baseName c.name))) ∨
        ∃ a ∈ scope.attributes,
          m.function.aggregation? = some f ∧
            (m.expr scope name).1 = .aggregate f (some (Pivot.value a))) := by
  have hexpr := m.hasExpr_expr scope name
  generalize m.expr scope name = shown at hexpr ⊢
  cases hexpr with
  | count | unknownFunction | missingColumn | unknownColumn => exact Or.inl rfl
  | column hf _ hres =>
    have hc := Scope.mem_of_resolve_column hres
    exact Or.inr ⟨_, MetricFunction.aggregation?_ne_countRows hf, Or.inl ⟨_, hc, hf, rfl⟩⟩
  | value hf _ hres =>
    have ha := Scope.mem_of_resolve_attribute hres
    exact Or.inr ⟨_, MetricFunction.aggregation?_ne_countRows hf, Or.inr ⟨_, ha, hf, rfl⟩⟩

end Metric

end EventReport
