/-
# Reports that differ in users' texts have plans that do

Two reports have the same shape when they differ in the website, in keys of
attributes that come to the same columns, in filter values that are written as
texts, and in the time zone, and in nothing else.  Planning looks at none of the
texts: it looks names up, and compares attributes by their columns.  So it takes the
same path for both reports, and the two plans differ in the texts only
(`SameShape.planAlike`).

Attributes are compared whole when the pivot's columns are collected.  That this,
too, comes out the same in both runs rests on the attributes of a scope having
pairwise different columns (`Scope.distinct_of`).
-/
import EventReport.Proofs.Plan.Layout

namespace EventReport

open Text Sql

/-! ## Lists of corresponding elements -/

section Lists

variable {α β : Type} {R : α → β → Prop}

theorem find?_rel {p : α → Bool} {q : β → Bool} (hpq : ∀ a b, R a b → p a = q b) {as : List α}
    {bs : List β} (h : List.Forall₂ R as bs) : Option.Rel R (as.find? p) (bs.find? q) := by
  induction h with
  | nil => exact .none
  | @cons a b as bs hab _ ih =>
    rw [List.find?_cons, List.find?_cons, hpq a b hab]
    cases q b with
    | true => exact .some hab
    | false => exact ih

/-- Where elements are equal in the one list exactly if they are in the other, the same places are
repeated ones. -/
theorem eraseDups_rel [BEq α] [BEq β]
    (heq : ∀ a b a' b', R a b → R a' b' → (a' == a) = (b' == b)) {as : List α} {bs : List β}
    (h : List.Forall₂ R as bs) : List.Forall₂ R as.eraseDups bs.eraseDups := by
  have go : ∀ n, ∀ {as : List α} {bs : List β}, as.length ≤ n → List.Forall₂ R as bs →
      List.Forall₂ R as.eraseDups bs.eraseDups := by
    intro n
    induction n with
    | zero =>
      intro as bs hn h
      obtain rfl : as = [] := List.length_eq_zero_iff.1 (Nat.le_zero.1 hn)
      rw [List.forall₂_nil_left_iff] at h
      rw [h]
      exact .nil
    | succ n ih =>
      intro as bs hn h
      cases h with
      | nil => exact .nil
      | @cons a b as bs hab hrest =>
        rw [List.eraseDups_cons, List.eraseDups_cons]
        refine .cons hab (ih ?_ ?_)
        · exact Nat.le_trans (List.length_filter_le _ _) (Nat.le_of_succ_le_succ hn)
        · refine List.rel_filter ?_ hrest
          intro x y hxy
          show (!x == a) = true ↔ (!y == b) = true
          rw [heq a b x y hab hxy]
  exact go as.length (Nat.le_refl _) h

end Lists

/-- Reports that name the same columns, filter by filter and in their outlines. -/
theorem Report.columns_eq {r r' : Report}
    (hfilters : List.Forall₂ (fun f g : Filter => f.column = g.column) r.filters r'.filters)
    (houtline : r.outline = r'.outline) : r.columns = r'.columns := by
  have hcolumns : r.filters.map Filter.column = r'.filters.map Filter.column := by
    rw [← List.forall₂_eq_eq_eq, List.forall₂_map_left_iff, List.forall₂_map_right_iff]
    exact hfilters
  unfold Report.columns
  rw [hcolumns, houtline]

/-! ## Scopes -/

/-- Scopes over one registry whose attributes correspond. -/
structure ScopeAlike (S : String → String → Prop) (s t : Scope) : Prop where
  registry : t.registry = s.registry
  attributes : List.Forall₂ (AttributeAlike S) s.attributes t.attributes

namespace Scope

/-- No two attributes of a scope come to the same column. -/
def IsDistinct (s : Scope) : Prop := (s.attributes.map Attribute.columnId).Nodup

theorem nodup_keep {kept : List Attribute} (h : (kept.map Attribute.columnId).Nodup)
    (as : List Attribute) : ((keep kept as).1.map Attribute.columnId).Nodup := by
  induction as generalizing kept with
  | nil => exact h
  | cons a as ih =>
    unfold keep
    split
    · exact ih h
    · next hfind =>
      refine ih ?_
      have hnew : a.columnId ∉ kept.map Attribute.columnId := by
        intro hmem
        obtain ⟨b, hb, hid⟩ := List.mem_map.1 hmem
        have := List.find?_eq_none.1 hfind b hb
        simp [hid] at this
      rw [List.map_append, List.map_singleton, List.nodup_append]
      refine ⟨h, List.nodup_singleton _, ?_⟩
      intro x hx y hy hxy
      obtain rfl := List.mem_singleton.1 hy
      exact hnew (hxy ▸ hx)

theorem distinct_of (registry : Registry) (attributes : List Attribute) :
    (Scope.of registry attributes).IsDistinct := by
  have hnil : (([] : List Attribute).map Attribute.columnId).Nodup := .nil
  exact nodup_keep hnil attributes

theorem IsDistinct.eq_iff {s : Scope} (h : s.IsDistinct) {a b : Attribute}
    (ha : a ∈ s.attributes) (hb : b ∈ s.attributes) : a = b ↔ a.columnId = b.columnId :=
  ⟨congrArg _, fun hid => List.inj_on_of_nodup_map h ha hb hid⟩

section

variable {S : String → String → Prop}

theorem keep_rel {as bs : List Attribute} (h : List.Forall₂ (AttributeAlike S) as bs)
    {kept kept' : List Attribute} (hkept : List.Forall₂ (AttributeAlike S) kept kept') :
    List.Forall₂ (AttributeAlike S) (keep kept as).1 (keep kept' bs).1 := by
  induction h generalizing kept kept' with
  | nil => exact hkept
  | @cons a b as bs hab _ ih =>
    have hfind := find?_rel (p := (·.columnId == a.columnId)) (q := (·.columnId == b.columnId))
      (fun x y hxy => by rw [hxy.columnId, hab.columnId]) hkept
    unfold keep
    generalize kept.find? (·.columnId == a.columnId) = x at hfind ⊢
    generalize kept'.find? (·.columnId == b.columnId) = y at hfind ⊢
    cases hfind with
    | none => exact ih (List.rel_append hkept (.cons hab .nil))
    | some => exact ih hkept

theorem alike_of (registry : Registry) {as bs : List Attribute}
    (h : List.Forall₂ (AttributeAlike S) as bs) :
    ScopeAlike S (.of registry as) (.of registry bs) := ⟨rfl, keep_rel h .nil⟩

end

end Scope

/-- Targets of one name: the same column, or attributes that correspond. -/
inductive TargetAlike (S : String → String → Prop) (s t : Scope) : Target → Target → Prop where
  | column {c : Column} (hc : c ∈ s.registry.columns) : TargetAlike S s t (.column c) (.column c)
  | key {a b : Attribute} (ha : a ∈ s.attributes) (hb : b ∈ t.attributes)
      (h : AttributeAlike S a b) : TargetAlike S s t (.attribute a) (.attribute b)

namespace ScopeAlike

variable {S : String → String → Prop} {s t : Scope}

theorem resolve (h : ScopeAlike S s t) (name : String) :
    Option.Rel (TargetAlike S s t) (s.resolve name) (t.resolve name) := by
  have hattributes := find?_rel (p := (·.columnId == name)) (q := (·.columnId == name))
    (fun x y hxy => by rw [hxy.columnId]) h.attributes
  unfold Scope.resolve
  rw [h.registry]
  cases hfind : s.registry.find? name with
  | some c => exact .some (.column (List.mem_of_find?_eq_some hfind))
  | none =>
    dsimp only
    split
    · generalize hx : s.attributes.find? (·.columnId == name) = x at hattributes ⊢
      generalize hy : t.attributes.find? (·.columnId == name) = y at hattributes ⊢
      cases hattributes with
      | none => exact .none
      | some hab =>
        exact .some (.key (List.mem_of_find?_eq_some hx) (List.mem_of_find?_eq_some hy) hab)
    · exact .none

/-- Attributes of the two scopes that correspond. -/
def Pair (S : String → String → Prop) (s t : Scope) (a b : Attribute) : Prop :=
  a ∈ s.attributes ∧ b ∈ t.attributes ∧ AttributeAlike S a b

theorem attribute? (h : ScopeAlike S s t) (name : String) :
    Option.Rel (Pair S s t) (s.attribute? name) (t.attribute? name) := by
  have hresolve := h.resolve name
  unfold Scope.attribute?
  generalize s.resolve name = x at hresolve ⊢
  generalize t.resolve name = y at hresolve ⊢
  cases hresolve with
  | none => exact .none
  | some hxy =>
    cases hxy with
    | column => exact .none
    | key ha hb hab => exact .some ⟨ha, hb, hab⟩

/-- An attribute is repeated in the one run exactly if it is in the other. -/
theorem beq_eq (hs : s.IsDistinct) (ht : t.IsDistinct) {a b a' b' : Attribute}
    (h : Pair S s t a b) (h' : Pair S s t a' b') : (a' == a) = (b' == b) := by
  have hiff : a' = a ↔ b' = b := by
    rw [hs.eq_iff h'.1 h.1, ht.eq_iff h'.2.1 h.2.1, h.2.2.columnId, h'.2.2.columnId]
  rw [Bool.eq_iff_iff, beq_iff_eq, beq_iff_eq]
  exact hiff

theorem readAttributes (h : ScopeAlike S s t) (hs : s.IsDistinct) (ht : t.IsDistinct)
    (o : Outline) : List.Forall₂ (Pair S s t) (s.readAttributes o) (t.readAttributes o) := by
  have hmentioned : List.Forall₂ (Pair S s t) (o.columns.filterMap s.attribute?)
      (o.columns.filterMap t.attribute?) := by
    refine List.rel_filterMap (R := Eq) ?_ (List.forall₂_refl _)
    rintro x _ rfl
    exact h.attribute? x
  exact eraseDups_rel (fun a b a' b' hab hab' => beq_eq hs ht hab hab') hmentioned

theorem isGrouped (h : ScopeAlike S s t) (hs : s.IsDistinct) (ht : t.IsDistinct) (o : Outline)
    {a b : Attribute} (hab : Pair S s t a b) :
    Projection.isGrouped s o a = Projection.isGrouped t o b := by
  have hfield : ∀ field, (s.attribute? field == some a) = (t.attribute? field == some b) := by
    intro field
    have hrel := h.attribute? field
    generalize s.attribute? field = x at hrel ⊢
    generalize t.attribute? field = y at hrel ⊢
    cases hrel with
    | none => rfl
    | some hxy => exact beq_eq hs ht hab hxy
  unfold Projection.isGrouped
  rw [h.registry]
  simp only [hfield]

end ScopeAlike

end EventReport
