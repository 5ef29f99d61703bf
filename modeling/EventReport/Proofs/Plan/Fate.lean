/-
# What becomes of a filter

A filter is skipped for one of three reasons, or it is a condition of the base statement,
or one of the outer statement (`Filter.HasFate`).  Statements about the conditions and the
warnings of a plan are a case for each; they do not look at how a filter is planned again.

The reasons are read off the filter: it names nothing, it would be a variable on an
attribute, or it has no value for its operator (`Filter.isComplete`).  So which filters come
to a condition is said without planning any (`Filter.base?_fate`, `Filter.isSome_outer?_iff`).
-/
import EventReport.Proofs.Plan.Reference

namespace EventReport

open Sql

/-- Only an interactive filter compares nothing. -/
theorem Operator.comparator?_eq_none_iff {op : Operator} :
    op.comparator? = none ↔ op = .interactive := by
  cases op <;> simp [comparator?]

namespace Filter

/-- Whether the filter has a value, or an operator that needs none. -/
def isComplete (f : Filter) : Bool :=
  f.value.isSome || !f.values.isEmpty || f.operator ∈ [.isNull, .isNotNull, .interactive]

theorem missingValue?_eq_none_iff {f : Filter} : f.missingValue? = none ↔ f.isComplete = true := by
  have hnone : f.comparands.isEmpty = (!f.value.isSome && f.values.isEmpty) := by
    unfold comparands
    cases f.values <;> cases f.value <;> rfl
  have hop : f.operator.requiresValue =
      !decide (f.operator ∈ [.isNull, .isNotNull, .interactive]) := by
    cases f.operator <;> rfl
  rw [missingValue?, isComplete, hnone, hop]
  generalize decide (f.operator ∈ [.isNull, .isNotNull, .interactive]) = needsNone
  cases f.value.isSome <;> cases f.values.isEmpty <;> cases needsNone <;> simp

/-- A filter that is not skipped for want of a value has one where its operator needs it. -/
theorem comparands_ne_nil {f : Filter} (hmissing : f.missingValue? = none)
    (hop : f.operator.requiresValue = true) : f.comparands ≠ [] := by
  intro hnil
  simp [missingValue?, hop, hnil] at hmissing

/-- The five fates of a filter, each with the reason for it. -/
inductive HasFate (settings : Settings) (scope : Scope) (f : Filter) : Fate → Prop
  | unknown (hres : scope.resolve f.column = none) :
      HasFate settings scope f (.skipped (.unknownColumn f.column .filter))
  /-- An attribute cannot become a variable. -/
  | interactive {a : Attribute} (hres : scope.resolve f.column = some (.attribute a))
      (hop : f.operator.comparator? = none) :
      HasFate settings scope f (.skipped (.interactiveAttribute f.column))
  | missing {w : Warning} (hmissing : f.missingValue? = some w) :
      HasFate settings scope f (.skipped w)
  | base {c : Column} (hres : scope.resolve f.column = some (.column c))
      (hmissing : f.missingValue? = none) :
      HasFate settings scope f (.base (f.columnCondition c) f.note?)
  | outer {a : Attribute} {comparator : Comparator}
      (hres : scope.resolve f.column = some (.attribute a))
      (hop : f.operator.comparator? = some comparator) (hmissing : f.missingValue? = none) :
      HasFate settings scope f (.outer (f.attributeCondition settings a comparator) f.note?)

theorem hasFate_fate (settings : Settings) (scope : Scope) (f : Filter) :
    f.HasFate settings scope (f.fate settings scope) := by
  unfold fate
  split
  · next hres => exact .unknown hres
  · next c hres =>
    split
    · next w hmissing => exact .missing hmissing
    · next hmissing => exact .base hres hmissing
  · next a hres =>
    split
    · next hop => exact .interactive hres hop
    · next comparator hop =>
      split
      · next w hmissing => exact .missing hmissing
      · next hmissing => exact .outer hres hop hmissing

variable {settings : Settings} {scope : Scope} {f : Filter} {c : Condition}

/-- A condition of the base statement comes of a column of the registry, if there is something to
compare it with. -/
theorem base?_fate (settings : Settings) (scope : Scope) (f : Filter) :
    (f.fate settings scope).base? =
      if f.isComplete then (scope.registry.find? f.column).map f.columnCondition else none := by
  have hfate := f.hasFate_fate settings scope
  generalize f.fate settings scope = fate at hfate
  cases hfate with
  | unknown hres => simp [Fate.base?, Scope.find?_of_resolve_none hres]
  | interactive hres => simp [Fate.base?, (Scope.find?_of_resolve_attribute hres).1]
  | missing hmissing => simp [Fate.base?, ← missingValue?_eq_none_iff, hmissing]
  | base hres hmissing =>
    simp [Fate.base?, Scope.resolve_eq_column.1 hres, missingValue?_eq_none_iff.1 hmissing]
  | outer hres => simp [Fate.base?, (Scope.find?_of_resolve_attribute hres).1]

/-- A condition of the outermost statement comes of a comparison with an attribute, if there is
something to compare with. -/
theorem isSome_outer?_iff : (f.fate settings scope).outer?.isSome = true ↔
    (∃ a, scope.resolve f.column = some (.attribute a)) ∧ f.operator ≠ .interactive ∧
      f.isComplete = true := by
  have hfate := f.hasFate_fate settings scope
  generalize f.fate settings scope = fate at hfate
  cases hfate with
  | unknown hres => simp [Fate.outer?, hres]
  | interactive hres hop => simp [Fate.outer?, Operator.comparator?_eq_none_iff.1 hop]
  | missing hmissing => simp [Fate.outer?, ← missingValue?_eq_none_iff, hmissing]
  | base hres => simp [Fate.outer?, hres]
  | @outer a comparator hres hop hmissing =>
    have hcompares : f.operator ≠ .interactive := by
      rw [Ne, ← Operator.comparator?_eq_none_iff, hop]
      simp
    simp [Fate.outer?, hres, hcompares, missingValue?_eq_none_iff.1 hmissing]

/-- A condition of the base statement is on the column that its filter names. -/
theorem exists_of_base? (h : (f.fate settings scope).base? = some c) :
    ∃ d, scope.resolve f.column = some (.column d) ∧ c = f.columnCondition d := by
  have hfate := f.hasFate_fate settings scope
  generalize f.fate settings scope = fate at h hfate
  cases hfate with
  | base hres => exact ⟨_, hres, (Option.some.inj h).symm⟩
  | unknown | interactive | missing | outer => cases h

/-- A condition of the outermost statement is on the attribute that its filter names. -/
theorem exists_of_outer? (h : (f.fate settings scope).outer? = some c) :
    ∃ a comparator, scope.resolve f.column = some (.attribute a) ∧
      c = f.attributeCondition settings a comparator := by
  have hfate := f.hasFate_fate settings scope
  generalize f.fate settings scope = fate at h hfate
  cases hfate with
  | outer hres => exact ⟨_, _, hres, (Option.some.inj h).symm⟩
  | unknown | interactive | missing | base => cases h

end Filter

namespace Plan

variable {w : Warehouse} {site : Website} {r : Report} {c : Condition}

theorem exists_of_mem_baseConditions (h : c ∈ (w.plan site r).baseConditions) :
    ∃ f ∈ r.filters, ∃ d, (Scope.of w.registry r.attributes).resolve f.column = some (.column d) ∧
      c = f.columnCondition d := by
  obtain ⟨fate, hfate, hbase⟩ := List.mem_filterMap.1 h
  obtain ⟨f, hf, rfl⟩ := List.mem_map.1 hfate
  exact ⟨f, hf, Filter.exists_of_base? hbase⟩

theorem exists_of_mem_outerConditions (h : c ∈ (w.plan site r).outerConditions) :
    ∃ f ∈ r.filters, ∃ a comparator,
      (Scope.of w.registry r.attributes).resolve f.column = some (.attribute a) ∧
        c = f.attributeCondition w.settings a comparator := by
  obtain ⟨fate, hfate, houter⟩ := List.mem_filterMap.1 h
  obtain ⟨f, hf, rfl⟩ := List.mem_map.1 hfate
  exact ⟨f, hf, Filter.exists_of_outer? houter⟩

end Plan

end EventReport
