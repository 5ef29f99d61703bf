/-
# Of the outputs with one name, the first is shown

A report asks for outputs one after the other, and each is shown unless its name is taken.
So it matters for every statement about names which output came first, and nothing else.

## What is proved

`isMadeOf_of`: what a report shows, with its group keys, is what it asks for, less each
output with the name of an earlier one (`accept`).  From this, an output is shown exactly if
it is the first that is asked for under its name (`mem_shownOutputs_iff`), the names shown
are those asked for (`mem_names_iff`), and a group key is there exactly if the first output
of its name has it (`column_mem_groupBy_iff`), and then once (`nodup_groupBy`).

## Shape of the proof

One lemma for each way of adding an output says what becomes of the outputs shown so far
(`IsMadeOf`); the fold over all that is asked for follows.  What `accept` does to a list of
outputs is said apart from that, with no report in sight.
-/
import EventReport.Proofs.Plan.Projection
import Mathlib.Data.List.Nodup

namespace EventReport

open Sql

namespace Projection

def Output.name? (x : Output) : Option String := x.item.outputName?

/-- Adds an output to those that are shown, unless one of them has its name. -/
def accept (shown : List Output) (x : Output) : List Output :=
  if shown.any (·.name? == x.name?) then shown else shown ++ [x]

/-! ## Outputs that are accepted one after the other -/

section Accept

variable {shown : List Output} {x : Output}

/-- Under each name stands the first output that came with it. -/
theorem find?_foldl_accept (shown l : List Output) (name : Option String) :
    (l.foldl accept shown).find? (·.name? == name) = (shown ++ l).find? (·.name? == name) := by
  induction l generalizing shown with
  | nil => rw [List.foldl_nil, List.append_nil]
  | cons x l ih =>
    rw [List.foldl_cons, ih, accept]
    split
    · next htaken =>
      obtain ⟨y, hy, hname⟩ := List.any_eq_true.1 htaken
      rw [List.find?_append, List.find?_append, List.find?_cons]
      split
      · next hx =>
        -- the name that is looked for is the one that is taken
        have hfound : (shown.find? (·.name? == name)).isSome = true := by
          rw [List.find?_isSome]
          refine ⟨y, hy, ?_⟩
          rw [beq_iff_eq] at hname hx ⊢
          rw [hname, hx]
        obtain ⟨z, hz⟩ := Option.isSome_iff_exists.1 hfound
        rw [hz, Option.some_or, Option.some_or]
      · rfl
    · rw [List.append_assoc, List.singleton_append]

theorem nodup_names_foldl_accept (h : (shown.map Output.name?).Nodup) (l : List Output) :
    ((l.foldl accept shown).map Output.name?).Nodup := by
  induction l generalizing shown with
  | nil => exact h
  | cons x l ih =>
    refine ih ?_
    unfold accept
    split
    · exact h
    · next hfree =>
      have hnew : x.name? ∉ shown.map Output.name? := by
        simpa using hfree
      rw [List.map_append, List.map_singleton, List.nodup_append]
      refine ⟨h, List.nodup_singleton _, ?_⟩
      rintro a ha b hb rfl
      exact hnew (List.mem_singleton.1 hb ▸ ha)

/-- An output is accepted if it is the first of its name. -/
theorem mem_foldl_accept_iff {l : List Output} :
    x ∈ l.foldl accept [] ↔ l.find? (·.name? == x.name?) = some x := by
  have hnone : (([] : List Output).map Output.name?).Nodup := List.nodup_nil
  have hnodup := nodup_names_foldl_accept hnone l
  have hfirst := find?_foldl_accept [] l x.name?
  rw [List.nil_append] at hfirst
  rw [← hfirst]
  constructor
  · intro hx
    have hfound : ((l.foldl accept []).find? (·.name? == x.name?)).isSome = true :=
      List.find?_isSome.2 ⟨x, hx, beq_self_eq_true _⟩
    obtain ⟨y, hy⟩ := Option.isSome_iff_exists.1 hfound
    have hname : y.name? = x.name? := by simpa using List.find?_some hy
    rw [hy, List.inj_on_of_nodup_map hnodup (List.mem_of_find?_eq_some hy) hx hname]
  · exact List.mem_of_find?_eq_some

/-- No name is lost. -/
theorem exists_name?_foldl_accept {l : List Output} (hx : x ∈ l) :
    ∃ y ∈ l.foldl accept [], y.name? = x.name? := by
  have hfound : ((l.foldl accept []).find? (·.name? == x.name?)).isSome = true := by
    rw [find?_foldl_accept, List.nil_append, List.find?_isSome]
    exact ⟨x, hx, beq_self_eq_true _⟩
  obtain ⟨y, hy⟩ := Option.isSome_iff_exists.1 hfound
  exact ⟨y, List.mem_of_find?_eq_some hy, by simpa using List.find?_some hy⟩

end Accept

/-! ## A projection and the outputs that it shows -/

structure IsMadeOf (p : Projection) (shown : List Output) : Prop where
  select : p.select = shown.map Output.item
  groupBy : p.groupBy = shown.filterMap Output.key

namespace IsMadeOf

variable {p : Projection} {shown : List Output}

theorem warn (h : p.IsMadeOf shown) (ws : List Warning) : (p.warn ws).IsMadeOf shown :=
  ⟨h.select, h.groupBy⟩

theorem add (h : p.IsMadeOf shown) (x : Output) : (p.add x).IsMadeOf (shown ++ [x]) where
  select := by rw [Projection.add, h.select, List.map_append, List.map_singleton]
  groupBy := by
    rw [Projection.add, h.groupBy, List.filterMap_append]
    cases hkey : x.key <;> simp [hkey]

theorem mem_names_iff (h : p.IsMadeOf shown) {x : Output} {name : String}
    (hname : x.name? = some name) : name ∈ p.names ↔ shown.any (·.name? == x.name?) = true := by
  rw [names, h.select, List.filterMap_map, hname]
  simp [Output.name?]

/-- A name is reserved for an output unless it is taken. -/
theorem reserve (h : p.IsMadeOf shown) {x : Output} {name : String} (hname : x.name? = some name)
    {add : Projection → Projection} (hadd : (add p).IsMadeOf (shown ++ [x])) :
    (p.reserve name add).IsMadeOf (accept shown x) := by
  have htaken := h.mem_names_iff hname
  unfold Projection.reserve accept
  by_cases hmem : name ∈ p.names
  · rw [if_pos hmem, if_pos (htaken.1 hmem)]
    exact h.warn _
  · rw [if_neg hmem, if_neg (fun hany => hmem (htaken.2 hany))]
    exact hadd

/-- A run of steps, each of which asks for some outputs. -/
theorem foldl {α : Type} {step : Projection → α → Projection} {asked : α → List Output}
    (hstep : ∀ p shown a, p.IsMadeOf shown → (step p a).IsMadeOf ((asked a).foldl accept shown))
    (h : p.IsMadeOf shown) (l : List α) :
    (l.foldl step p).IsMadeOf ((l.flatMap asked).foldl accept shown) := by
  induction l generalizing p shown with
  | nil => exact h
  | cons a l ih =>
    rw [List.foldl_cons, List.flatMap_cons, List.foldl_append]
    exact ih (hstep p shown a h)

variable (settings : Settings) (scope : Scope) (o : Outline)

theorem addGroupField (h : p.IsMadeOf shown) (granularity : Option Granularity) (field : String) :
    (p.addGroupField settings scope granularity field).IsMadeOf
      ((fieldOutputs settings scope granularity field).foldl accept shown) := by
  unfold Projection.addGroupField fieldOutputs
  split
  · have hbucket := h.add
      ⟨.expr (dateBucket settings granularity scope.registry.timestampField) (some dateAlias),
        some (.column (.bare dateAlias))⟩
    exact h.reserve rfl hbucket
  · rcases scope.resolve field with _ | c | a
    · exact h.warn _
    · have hcolumn := h.add ⟨.expr (.of baseName c.name) none, some (.of baseName c.name)⟩
      exact h.reserve rfl hcolumn
    · exact h

theorem addMetric (h : p.IsMadeOf shown) (placed : Metric × Nat) :
    (p.addMetric scope placed).IsMadeOf (accept shown (metricOutput scope placed)) := by
  unfold Projection.addMetric
  simp only [addItem_eq_add]
  exact (h.warn _).reserve rfl (((h.warn _).warn _).add (metricOutput scope placed))

theorem addAttribute (h : p.IsMadeOf shown) (a : Attribute) :
    (p.addAttribute scope o a).IsMadeOf (accept shown (attributeOutput scope o a)) := by
  have hadd : p.addAttribute scope o a =
      p.reserve a.columnId (fun q => q.add (attributeOutput scope o a)) := by
    unfold Projection.addAttribute attributeOutput
    split
    · rfl
    · rw [funext (addItem_eq_add _)]
  rw [hadd]
  exact h.reserve (outputName_attributeOutput a) (h.add _)

theorem addOrder (h : p.IsMadeOf shown) (registry : Registry) (orderBy : Option OrderBy) :
    (p.addOrder registry orderBy).IsMadeOf shown := by
  unfold Projection.addOrder
  split
  · exact ⟨h.select, h.groupBy⟩
  · next ob =>
    dsimp only
    generalize (if registry.isTimestamp ob.column then dateAlias else ob.column) = name
    split
    · exact ⟨h.select, h.groupBy⟩
    · exact ⟨h.select, h.groupBy⟩

end IsMadeOf

/-! ## What a report shows -/

section Of

variable (settings : Settings) (scope : Scope) (o : Outline)

/-- The outputs that a report shows: the first of each name. -/
def shownOutputs : List Output := (askedOutputs settings scope o).foldl accept []

theorem isMadeOf_of : (of settings scope o).IsMadeOf (shownOutputs settings scope o) := by
  have hempty : ({} : Projection).IsMadeOf [] := ⟨rfl, rfl⟩
  have hfields := hempty.foldl
    (fun _ _ field h => h.addGroupField settings scope o.granularity field) o.groupBy
  have hmetric (q : Projection) (shown : List Output) (placed : Metric × Nat)
      (h : q.IsMadeOf shown) : (q.addMetric scope placed).IsMadeOf
        (([metricOutput scope placed]).foldl accept shown) := h.addMetric scope placed
  have hattribute (q : Projection) (shown : List Output) (a : Attribute) (h : q.IsMadeOf shown) :
      (q.addAttribute scope o a).IsMadeOf (([attributeOutput scope o a]).foldl accept shown) :=
    h.addAttribute scope o a
  have hmetrics := hfields.foldl hmetric o.shownMetrics.zipIdx
  have hattributes := hmetrics.foldl hattribute (scope.readAttributes o)
  rw [shownOutputs, askedOutputs, List.foldl_append, List.foldl_append, List.map_eq_flatMap,
    List.map_eq_flatMap]
  exact hattributes.addOrder scope.registry o.orderBy

variable {settings scope o}

theorem mem_shownOutputs_iff {x : Output} : x ∈ shownOutputs settings scope o ↔
    (askedOutputs settings scope o).find? (·.name? == x.name?) = some x :=
  mem_foldl_accept_iff

theorem nodup_name?_shownOutputs :
    ((shownOutputs settings scope o).map Output.name?).Nodup := by
  have hnone : (([] : List Output).map Output.name?).Nodup := List.nodup_nil
  exact nodup_names_foldl_accept hnone _

/-- A name that is asked for is shown. -/
theorem mem_names_iff {name : String} : name ∈ (of settings scope o).names ↔
    ∃ x ∈ askedOutputs settings scope o, x.name? = some name := by
  rw [names, (isMadeOf_of settings scope o).select, List.filterMap_map, List.mem_filterMap]
  constructor
  · rintro ⟨x, hx, hname⟩
    exact ⟨x, List.mem_of_find?_eq_some (mem_shownOutputs_iff.1 hx), hname⟩
  · rintro ⟨x, hx, hname⟩
    obtain ⟨y, hy, hsame⟩ := exists_name?_foldl_accept hx
    exact ⟨y, hy, hsame.trans hname⟩

/-- A group key is a column, and its output has the name of the column. -/
theorem IsOutput.exists_column {i : Item} {e : Expr} (h : IsOutput settings scope o i (some e)) :
    ∃ c : ColumnRef, e = .column c ∧ i.outputName? = some c.name := by
  cases h with
  | date => exact ⟨.bare dateAlias, rfl, rfl⟩
  | @column _ c _ _ => exact ⟨⟨baseName, c.name⟩, rfl, rfl⟩
  | @key a _ => exact ⟨⟨Pivot.relation, a.columnId⟩, rfl, rfl⟩

theorem name?_of_key {x : Output} (hx : x ∈ askedOutputs settings scope o) {e : Expr}
    (hkey : x.key = some e) : ∃ c : ColumnRef, e = .column c ∧ x.name? = some c.name := by
  have hout := isOutput_of_mem_askedOutputs hx
  rw [hkey] at hout
  exact hout.exists_column

/-- A report is grouped by a column if the first output of that name is. -/
theorem column_mem_groupBy_iff {c : ColumnRef} : .column c ∈ (of settings scope o).groupBy ↔
    ∃ x, (askedOutputs settings scope o).find? (·.name? == some c.name) = some x ∧
      x.key = some (.column c) := by
  rw [(isMadeOf_of settings scope o).groupBy, List.mem_filterMap]
  refine exists_congr fun x => and_congr_left fun hkey => ?_
  have hname (hx : x ∈ askedOutputs settings scope o) : x.name? = some c.name := by
    obtain ⟨_, heq, hname⟩ := name?_of_key hx hkey
    cases heq
    exact hname
  rw [mem_shownOutputs_iff]
  constructor
  · intro hfirst
    rwa [hname (List.mem_of_find?_eq_some hfirst)] at hfirst
  · intro hfirst
    rwa [hname (List.mem_of_find?_eq_some hfirst)]

/-- No group key comes twice. -/
theorem nodup_groupBy : (of settings scope o).groupBy.Nodup := by
  rw [(isMadeOf_of settings scope o).groupBy, List.Nodup, List.pairwise_filterMap]
  refine (List.pairwise_map.1 nodup_name?_shownOutputs).imp_of_mem ?_
  rintro x y hx hy hne e hex _ hey rfl
  have hasked {z : Output} (hz : z ∈ shownOutputs settings scope o) :
      z ∈ askedOutputs settings scope o := List.mem_of_find?_eq_some (mem_shownOutputs_iff.1 hz)
  -- one key for both would be one name for both
  obtain ⟨_, rfl, hname⟩ := name?_of_key (hasked hx) hex
  obtain ⟨_, heq, hname'⟩ := name?_of_key (hasked hy) hey
  cases heq
  exact hne (hname.trans hname'.symm)

end Of

end Projection

end EventReport
