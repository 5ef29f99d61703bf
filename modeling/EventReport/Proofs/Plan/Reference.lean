/-
# What a name in a report refers to

A filter, a group key and a metric name a column of the registry, or else an attribute of the
report.  The keys of two attributes may come to one column, and then the first of them counts.

## What is proved

`Scope.resolve_eq_column` and `Scope.exists_resolve_attribute_iff` say what a name refers to
without the scope: a column that the registry has, or the column of an attribute of the
report that the registry does not have (`Report.namesAttribute`).

## Shape of the proof

A scope keeps the first attribute of each column (`Scope.first?_keep`, by induction on the
attributes of the report), so that a look-up in it is one in the report.
-/
import EventReport.Plan.Basic

namespace EventReport

namespace Attribute

theorem isColumnId_columnId (a : Attribute) : isColumnId a.columnId = true := by
  rw [isColumnId, columnId, String.toList_append, List.isPrefixOf_iff_prefix]
  exact List.prefix_append _ _

/-- The first attribute of a column. -/
def first? (as : List Attribute) (id : String) : Option Attribute := as.find? (·.columnId == id)

theorem first?_append (as bs : List Attribute) (id : String) :
    first? (as ++ bs) id = (first? as id).or (first? bs id) := List.find?_append

/-- An attribute of a column that is taken is not found under any. -/
theorem first?_concat_of_some {as : List Attribute} {a first : Attribute}
    (htaken : first? as a.columnId = some first) (id : String) :
    first? (as ++ [a]) id = first? as id := by
  rw [first?_append]
  by_cases hid : a.columnId = id
  · subst hid
    rw [htaken, Option.some_or]
  · rw [first?, first?, List.find?_cons_of_neg (by simpa using hid), List.find?_nil, Option.or_none]

end Attribute

open Attribute (first?)

namespace Scope

/-! ## The attributes of a scope -/

theorem first?_keep (kept as : List Attribute) (id : String) :
    first? (keep kept as).1 id = first? (kept ++ as) id := by
  induction as generalizing kept with
  | nil => simp [keep]
  | cons a as ih =>
    unfold keep
    split
    · next first htaken =>
      rw [ih, List.append_cons, Attribute.first?_append _ as, Attribute.first?_append _ as,
        Attribute.first?_concat_of_some htaken]
    · rw [ih, List.append_assoc, List.singleton_append]

/-- In a scope each column has the first attribute of the report. -/
theorem first?_attributes_of (registry : Registry) (as : List Attribute) (id : String) :
    first? (Scope.of registry as).attributes id = first? as id :=
  first?_keep [] as id

theorem mem_of_mem_keep {kept as : List Attribute} {a : Attribute} (h : a ∈ (keep kept as).1) :
    a ∈ kept ∨ a ∈ as := by
  induction as generalizing kept with
  | nil => exact Or.inl h
  | cons b as ih =>
    unfold keep at h
    split at h
    · rcases ih h with h | h
      · exact Or.inl h
      · exact Or.inr (List.mem_cons_of_mem b h)
    · rcases ih h with h | h
      · rcases List.mem_append.1 h with h | h
        · exact Or.inl h
        · rw [List.mem_singleton.1 h]
          exact Or.inr List.mem_cons_self
      · exact Or.inr (List.mem_cons_of_mem b h)

/-- A scope has attributes of its report only. -/
theorem mem_of_mem_attributes {registry : Registry} {attributes : List Attribute} {a : Attribute}
    (h : a ∈ (Scope.of registry attributes).attributes) : a ∈ attributes := by
  rcases mem_of_mem_keep h with h | h
  · cases h
  · exact h

/-! ## What a name refers to -/

section Resolve

variable {s : Scope} {name : String}

theorem resolve_eq_column {c : Column} :
    s.resolve name = some (.column c) ↔ s.registry.find? name = some c := by
  unfold resolve
  split
  · next c' hfind => simp [hfind]
  · next hfind =>
    rw [hfind]
    split
    · constructor
      · intro h
        obtain ⟨a, -, ha⟩ := Option.map_eq_some_iff.1 h
        cases ha
      · intro h
        cases h
    · simp

theorem mem_of_resolve_column {c : Column} (h : s.resolve name = some (.column c)) :
    c ∈ s.registry.columns :=
  List.mem_of_find?_eq_some (resolve_eq_column.1 h)

theorem name_of_resolve_column {c : Column} (h : s.resolve name = some (.column c)) :
    c.name = name := by
  simpa using List.find?_some (resolve_eq_column.1 h)

/-- An attribute is found under its column, where the registry has none of that name. -/
theorem resolve_eq_attribute {a : Attribute} : s.resolve name = some (.attribute a) ↔
    s.registry.find? name = none ∧ first? s.attributes name = some a := by
  unfold resolve
  split
  · next c hfind => simp [hfind]
  · next hfind =>
    rw [hfind]
    split
    · simp [Attribute.first?]
    · next hmark =>
      -- no attribute has a column without the mark
      have hnone : first? s.attributes name = none := by
        refine List.find?_eq_none.2 fun b _ hid => hmark ?_
        rw [← beq_iff_eq.1 hid]
        exact b.isColumnId_columnId
      simp [hnone]

theorem mem_of_resolve_attribute {a : Attribute} (h : s.resolve name = some (.attribute a)) :
    a ∈ s.attributes :=
  List.mem_of_find?_eq_some (resolve_eq_attribute.1 h).2

theorem find?_of_resolve_attribute {a : Attribute} (h : s.resolve name = some (.attribute a)) :
    s.registry.find? name = none ∧ a.columnId = name := by
  obtain ⟨hout, hfirst⟩ := resolve_eq_attribute.1 h
  exact ⟨hout, by simpa using List.find?_some hfirst⟩

theorem find?_of_resolve_none (h : s.resolve name = none) : s.registry.find? name = none := by
  rcases hfind : s.registry.find? name with _ | c
  · rfl
  · rw [resolve_eq_column.2 hfind] at h
    cases h

theorem attribute?_eq_some_iff {a : Attribute} :
    s.attribute? name = some a ↔ s.resolve name = some (.attribute a) := by
  unfold attribute?
  split
  · next b hres => rw [hres, Option.some.injEq, Option.some.injEq, Target.attribute.injEq]
  · next hother =>
    constructor
    · intro h
      cases h
    · intro h
      exact absurd h (hother a)

end Resolve

/-- Of an attribute of the report, the column is found unless the registry has it. -/
theorem exists_resolve_attribute_iff {registry : Registry} {as : List Attribute} {name : String} :
    (∃ a, (Scope.of registry as).resolve name = some (.attribute a)) ↔
      registry.find? name = none ∧ ∃ a ∈ as, a.columnId = name := by
  have hfirst : (∃ a, first? as name = some a) ↔ ∃ a ∈ as, a.columnId = name := by
    rw [← Option.isSome_iff_exists, first?, List.find?_isSome]
    simp only [beq_iff_eq]
  simp only [resolve_eq_attribute, first?_attributes_of, ← hfirst]
  exact exists_and_left

/-! ## The attributes that are read -/

theorem mem_readAttributes_iff {s : Scope} {o : Outline} {a : Attribute} :
    a ∈ s.readAttributes o ↔ ∃ name ∈ o.columns, s.resolve name = some (.attribute a) := by
  rw [readAttributes, List.mem_eraseDups, List.mem_filterMap]
  simp only [attribute?_eq_some_iff]

theorem mem_of_mem_readAttributes {s : Scope} {o : Outline} {a : Attribute}
    (h : a ∈ s.readAttributes o) : a ∈ s.attributes := by
  obtain ⟨name, -, hres⟩ := mem_readAttributes_iff.1 h
  exact mem_of_resolve_attribute hres

end Scope

namespace Report

/-- Whether a name is that of an attribute: the column of one of the report, and not one of the
registry. -/
def namesAttribute (w : Warehouse) (r : Report) (name : String) : Bool :=
  !w.registry.contains name && r.attributes.any (·.columnId == name)

theorem namesAttribute_iff {w : Warehouse} {r : Report} {name : String} :
    r.namesAttribute w name = true ↔
      ∃ a, (Scope.of w.registry r.attributes).resolve name = some (.attribute a) := by
  rw [Scope.exists_resolve_attribute_iff, namesAttribute, Bool.and_eq_true, Bool.not_eq_true',
    Registry.contains, Option.isSome_eq_false_iff, Option.isNone_iff_eq_none, List.any_eq_true]
  simp only [beq_iff_eq]

end Report

end EventReport
