/-
# The outputs that a report asks for, and the ones it gets

A group field, a metric and an attribute each ask for an output: an item of the select
list, with a group key if the report is grouped by it.  The three kinds are asked for in
this order, and an output is refused for one reason only, that its name is taken.

## What is proved

`exists_grows_of`: what a report shows are some of the outputs it asks for, in their order
(`Grows.sublist`), and the group keys are those of the outputs shown.  There are at least
as many warnings as outputs that are refused (`Grows.refused`).  If none is refused, what
is said is what the fields and metrics themselves have to say, and on the order
(`Grows.noted`).

## Shape of the proof

`Grows` is a step that may be made of steps (`Grows.trans`), so there is one lemma for
each way of adding, and one for a fold of them.  Statements about the select list of a
report follow from this one and from a look at the outputs that are asked for; they do
not look at the folds again.
-/
import EventReport.Plan.Projection

namespace EventReport

open Sql

namespace Projection

/-- An item to show, and its key if the report is grouped by it. -/
structure Output where
  item : Item
  key : Option Expr := none

/-! ## What is asked for -/

section Asked

variable (settings : Settings) (scope : Scope) (o : Outline)

/-- What a group field asks for. An attribute is asked for with the other attributes. -/
def fieldOutputs (granularity : Option Granularity) (field : String) : List Output :=
  if scope.registry.isTimestamp field then
    [⟨.expr (dateBucket settings granularity scope.registry.timestampField) (some dateAlias),
      some (.column (.bare dateAlias))⟩]
  else
    match scope.resolve field with
    | some (.column c) => [⟨.expr (.of baseName c.name) none, some (.of baseName c.name)⟩]
    | some (.attribute _) | none => []

/-- What a group field has to say. -/
def fieldNotes (field : String) : List Warning :=
  if scope.registry.isTimestamp field then []
  else
    match scope.resolve field with
    | some _ => []
    | none => [.unknownColumn field .groupBy]

/-- What a metric at a place asks for. -/
def metricOutput (placed : Metric × Nat) : Output :=
  let name := (placed.1.outputName placed.2).1
  ⟨.expr (placed.1.expr scope name).1 (some name), none⟩

/-- What a metric at a place has to say. -/
def metricNotes (placed : Metric × Nat) : List Warning :=
  let name := (placed.1.outputName placed.2).1
  (placed.1.outputName placed.2).2 ++ (placed.1.expr scope name).2

/-- What an attribute asks for. -/
def attributeOutput (a : Attribute) : Output :=
  if isGrouped scope o a then ⟨.expr (Pivot.value a) none, some (Pivot.value a)⟩
  else
    ⟨.expr (Pivot.fold a.type ⟨baseName, scope.registry.timestampField⟩ (Pivot.value a))
      (some a.columnId), none⟩

variable {scope o} in
theorem outputName_attributeOutput (a : Attribute) :
    (attributeOutput scope o a).item.outputName? = some a.columnId := by
  unfold attributeOutput
  split
  · rfl
  · rfl

/-- The outputs that a report asks for, in order. -/
def askedOutputs : List Output :=
  o.groupBy.flatMap (fieldOutputs settings scope o.granularity) ++
    o.shownMetrics.zipIdx.map (metricOutput scope) ++
    (scope.readAttributes o).map (attributeOutput scope o)

/-- What the group fields and metrics of a report have to say. -/
def askedNotes : List Warning :=
  o.groupBy.flatMap (fieldNotes scope) ++ o.shownMetrics.zipIdx.flatMap (metricNotes scope)

end Asked

/-! ## How a projection grows -/

/-- Adds an output. -/
def add (p : Projection) (x : Output) : Projection :=
  { p with select := p.select ++ [x.item], groupBy := p.groupBy ++ x.key.toList }

theorem addItem_eq_add (i : Item) (p : Projection) : p.addItem i = p.add ⟨i, none⟩ := by
  simp [addItem, add]

/-- From `p` to `q`, the outputs `kept` out of the ones asked for are added. -/
structure Grows (asked : List Output) (notes : List Warning) (p q : Projection)
    (kept : List Output) : Prop where
  sublist : kept.Sublist asked
  select : q.select = p.select ++ kept.map Output.item
  groupBy : q.groupBy = p.groupBy ++ kept.filterMap Output.key
  /-- Each output that is refused leaves a warning. -/
  refused : asked.length + p.warnings.length ≤ kept.length + q.warnings.length
  /-- Where none is refused, this is all that is said. -/
  noted : kept = asked → q.warnings = p.warnings ++ notes
  /-- In any case nothing is said but this and that a name is taken. -/
  said : ∀ w ∈ q.warnings, w ∈ p.warnings ∨ w ∈ notes ∨ ∃ name, w = .duplicateOutput name

namespace Grows

variable {p q : Projection}

theorem refl (p : Projection) : Grows [] [] p p [] where
  sublist := .slnil
  select := by simp
  groupBy := by simp
  refused := Nat.le_refl _
  noted := by simp
  said := fun _ hw => Or.inl hw

theorem warn (p : Projection) (ws : List Warning) : Grows [] ws p (p.warn ws) [] where
  sublist := .slnil
  select := by simp [Projection.warn]
  groupBy := by simp [Projection.warn]
  refused := by simp [Projection.warn]
  noted := fun _ => rfl
  said := by
    intro w hw
    rcases List.mem_append.1 hw with hw | hw
    · exact Or.inl hw
    · exact Or.inr (Or.inl hw)

theorem add (p : Projection) (x : Output) : Grows [x] [] p (p.add x) [x] where
  sublist := List.Sublist.refl _
  select := rfl
  groupBy := by cases h : x.key <;> simp [Projection.add, h]
  refused := Nat.le_refl _
  noted := by simp [Projection.add]
  said := fun _ hw => Or.inl hw

theorem trans {asked asked' : List Output} {notes notes' : List Warning} {r : Projection}
    {kept kept' : List Output} (h : Grows asked notes p q kept)
    (h' : Grows asked' notes' q r kept') :
    Grows (asked ++ asked') (notes ++ notes') p r (kept ++ kept') where
  sublist := h.sublist.append h'.sublist
  select := by rw [h'.select, h.select, List.map_append, List.append_assoc]
  groupBy := by rw [h'.groupBy, h.groupBy, List.filterMap_append, List.append_assoc]
  refused := by
    have := h.refused
    have := h'.refused
    simp only [List.length_append]
    omega
  noted := by
    intro heq
    have hlength := h.sublist.length_le
    have hlength' := h'.sublist.length_le
    have htotal := congrArg List.length heq
    rw [List.length_append, List.length_append] at htotal
    have hkept : kept = asked := h.sublist.eq_of_length (by omega)
    have hkept' : kept' = asked' := h'.sublist.eq_of_length (by omega)
    rw [h'.noted hkept', h.noted hkept, List.append_assoc]
  said := by
    intro w hw
    rcases h'.said w hw with hw | hw | hname
    · rcases h.said w hw with hw | hw | hname
      · exact Or.inl hw
      · exact Or.inr (Or.inl (List.mem_append_left _ hw))
      · exact Or.inr (Or.inr hname)
    · exact Or.inr (Or.inl (List.mem_append_right _ hw))
    · exact Or.inr (Or.inr hname)

/-- An output may be refused because of its name. -/
theorem reserve {x : Output} {notes : List Warning} (p : Projection) (name : String)
    {add : Projection → Projection} (h : Grows [x] notes p (add p) [x]) :
    ∃ kept, Grows [x] notes p (p.reserve name add) kept := by
  unfold Projection.reserve
  split
  · refine ⟨[], ?_⟩
    exact
      { sublist := List.nil_sublist _
        select := by simp [Projection.warn]
        groupBy := by simp [Projection.warn]
        refused := by simp [Projection.warn]; omega
        noted := by simp
        said := by
          intro w hw
          rcases List.mem_append.1 hw with hw | hw
          · exact Or.inl hw
          · exact Or.inr (Or.inr ⟨name, List.mem_singleton.1 hw⟩) }
  · exact ⟨[x], h⟩

/-- A run of steps, each of which asks for some outputs. -/
theorem foldl {α : Type} {step : Projection → α → Projection} {asked : α → List Output}
    {notes : α → List Warning} (l : List α)
    (h : ∀ p, ∀ a ∈ l, ∃ kept, Grows (asked a) (notes a) p (step p a) kept) (p : Projection) :
    ∃ kept, Grows (l.flatMap asked) (l.flatMap notes) p (l.foldl step p) kept := by
  induction l generalizing p with
  | nil => exact ⟨[], refl p⟩
  | cons a l ih =>
    obtain ⟨kept, hstep⟩ := h p a List.mem_cons_self
    obtain ⟨kept', hrest⟩ := ih (fun q b hb => h q b (List.mem_cons_of_mem a hb)) (step p a)
    exact ⟨kept ++ kept', hstep.trans hrest⟩

/-! ### The four kinds of steps -/

variable (settings : Settings) (scope : Scope) (o : Outline)

theorem addGroupField (granularity : Option Granularity) (p : Projection) (field : String) :
    ∃ kept, Grows (fieldOutputs settings scope granularity field) (fieldNotes scope field) p
      (p.addGroupField settings scope granularity field) kept := by
  unfold Projection.addGroupField fieldOutputs fieldNotes
  split
  · exact reserve p dateAlias (add p _)
  · rcases scope.resolve field with _ | c | a
    · exact ⟨[], warn p _⟩
    · exact reserve p c.name (add p _)
    · exact ⟨[], refl p⟩

theorem addMetric (p : Projection) (placed : Metric × Nat) :
    ∃ kept, Grows [metricOutput scope placed] (metricNotes scope placed) p
      (p.addMetric scope placed) kept := by
  obtain ⟨m, place⟩ := placed
  let name := (m.outputName place).1
  let p' := p.warn (m.outputName place).2
  -- first it is said what is wrong with the name, and then the name is reserved
  have hsaid : Grows [] (m.outputName place).2 p p' [] := warn p _
  let addShown (q : Projection) : Projection :=
    (q.warn (m.expr scope name).2).add (metricOutput scope (m, place))
  have hshown : Grows [metricOutput scope (m, place)] ((m.expr scope name).2 ++ []) p' (addShown p')
      [metricOutput scope (m, place)] := (warn p' _).trans (add _ _)
  rw [List.append_nil] at hshown
  obtain ⟨kept, hreserved⟩ : ∃ kept, Grows _ _ p' (p'.reserve name addShown) kept :=
    reserve p' name hshown
  refine ⟨kept, ?_⟩
  unfold Projection.addMetric
  simp only [addItem_eq_add]
  exact hsaid.trans hreserved

theorem addAttribute (p : Projection) (a : Attribute) :
    ∃ kept, Grows [attributeOutput scope o a] [] p (p.addAttribute scope o a) kept := by
  unfold Projection.addAttribute attributeOutput
  split
  · exact reserve p a.columnId (add p _)
  · rw [funext (addItem_eq_add _)]
    exact reserve p a.columnId (add p _)

theorem addOrder (registry : Registry) (orderBy : Option OrderBy) (p : Projection) :
    ∃ notes, (∀ w ∈ notes, ∃ column, w = .unknownOrderColumn column) ∧
      Grows [] notes p (p.addOrder registry orderBy) [] := by
  have hordered {ws : List Warning} {q : Projection} (h : Grows [] ws p q [])
      (keys : List SortKey) : Grows [] ws p { q with orderBy := keys } [] :=
    ⟨h.sublist, h.select, h.groupBy, h.refused, h.noted, h.said⟩
  unfold Projection.addOrder
  split
  · exact ⟨[], by simp, hordered (refl p) _⟩
  · next ob =>
    dsimp only
    generalize (if registry.isTimestamp ob.column then dateAlias else ob.column) = name
    split
    · exact ⟨[], by simp, hordered (refl p) _⟩
    · exact ⟨[.unknownOrderColumn ob.column], by simp, hordered (warn p _) _⟩

end Grows

/-! ## What a report gets -/

section Of

variable (settings : Settings) (scope : Scope) (o : Outline)

/-- What a report shows are some of the outputs it asks for. -/
theorem exists_grows_of : ∃ ordering kept,
    (∀ w ∈ ordering, ∃ column, w = .unknownOrderColumn column) ∧
      Grows (askedOutputs settings scope o) (askedNotes scope o ++ ordering) {}
        (of settings scope o) kept := by
  let grouped := o.groupBy.foldl (addGroupField settings scope o.granularity) {}
  let measured := o.shownMetrics.zipIdx.foldl (addMetric scope) grouped
  let full := (scope.readAttributes o).foldl (addAttribute scope o) measured
  obtain ⟨fields, hfields⟩ : ∃ kept, Grows _ _ {} grouped kept :=
    Grows.foldl o.groupBy
      (fun p field _ => Grows.addGroupField settings scope o.granularity p field) {}
  obtain ⟨metrics, hmetrics⟩ : ∃ kept, Grows _ _ grouped measured kept :=
    Grows.foldl o.shownMetrics.zipIdx (fun p placed _ => Grows.addMetric scope p placed) grouped
  obtain ⟨attributes, hattributes⟩ : ∃ kept, Grows _ _ measured full kept :=
    Grows.foldl (scope.readAttributes o) (fun p a _ => Grows.addAttribute scope o p a) measured
  obtain ⟨ordering, hordering, horder⟩ := Grows.addOrder scope.registry o.orderBy full
  have hall := ((hfields.trans hmetrics).trans hattributes).trans horder
  have hof : of settings scope o = full.addOrder scope.registry o.orderBy := rfl
  -- no attribute has anything to say
  have hsilent : (scope.readAttributes o).flatMap (fun _ => ([] : List Warning)) = [] :=
    List.flatMap_eq_nil_iff.2 fun _ _ => rfl
  refine ⟨ordering, fields ++ metrics ++ attributes ++ [], hordering, ?_⟩
  rw [hof]
  simp only [askedOutputs, askedNotes, List.map_eq_flatMap]
  simpa [hsilent] using hall

theorem Grows.select_ne_nil {asked : List Output} {notes : List Warning} {p q : Projection}
    {kept : List Output} (h : Grows asked notes p q kept) (hp : p.select ≠ []) :
    q.select ≠ [] := by
  rw [h.select]
  exact List.append_ne_nil_of_left_ne_nil hp _

/-- A metric is refused only if its name is shown already. -/
theorem select_addMetric_ne_nil (p : Projection) (placed : Metric × Nat) :
    (p.addMetric scope placed).select ≠ [] := by
  unfold addMetric reserve
  dsimp only
  split
  · next hname =>
    intro hnil
    have hnone : p.select = [] := hnil
    simp [names, warn, hnone] at hname
  · simp [addItem]

/-- A report shows something, at least what its first metric has the name of. -/
theorem select_of_ne_nil : (of settings scope o).select ≠ [] := by
  let grouped := o.groupBy.foldl (addGroupField settings scope o.granularity) {}
  obtain ⟨first, rest, hmetrics⟩ : ∃ first rest, o.shownMetrics.zipIdx = first :: rest := by
    refine List.exists_cons_of_ne_nil ?_
    unfold Outline.shownMetrics
    split <;> simp_all
  let begun := addMetric scope grouped first
  let measured := rest.foldl (addMetric scope) begun
  let full := (scope.readAttributes o).foldl (addAttribute scope o) measured
  obtain ⟨_, hrest⟩ : ∃ kept, Grows _ _ begun measured kept :=
    Grows.foldl rest (fun p placed _ => Grows.addMetric scope p placed) begun
  obtain ⟨_, hattributes⟩ : ∃ kept, Grows _ _ measured full kept :=
    Grows.foldl (scope.readAttributes o) (fun p a _ => Grows.addAttribute scope o p a) measured
  obtain ⟨_, -, horder⟩ := Grows.addOrder scope.registry o.orderBy full
  have hof : of settings scope o = full.addOrder scope.registry o.orderBy := by
    unfold of
    rw [hmetrics]
    rfl
  rw [hof]
  exact ((hrest.trans hattributes).trans horder).select_ne_nil
    (select_addMetric_ne_nil scope grouped first)

end Of

end Projection

end EventReport
