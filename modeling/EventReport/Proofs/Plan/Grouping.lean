/-
# Which group fields are kept

A group field is a key of the statement only if its output is shown, and an output is shown
only if no earlier one has its name.  The time and the columns of the registry come before
the metrics, so that only one of them can be in the way of another, namely a column that is
called like the date bucket.  An attribute comes after the metrics, whose names the report
is free to choose.

## What is proved

`groupKey_mem_iff`: no key comes twice, and a group field that means something has its key
exactly if its name is not taken (`Report.LosesName`).  There is no other way to lose a key.
A metric can take the only key of a report in this way (`groupKey_not_mem_of_metric`).

## Shape of the proof

The first output of a name is looked for in each of the three parts of what is asked for
(`find?_fieldOutputs`, `find?_metricOutputs_eq_none_iff`, `find?_attributeOutputs`).  Among
group fields it is the one that the report names first (`find?_eq_some_iff_idxOf`).
-/
import EventReport.Proofs.Plan.Account
import EventReport.Proofs.Plan.Correspondence
import EventReport.Proofs.Plan.Naming

namespace EventReport

open Sql

/-- Of the elements that are looked for, the first is found. -/
theorem find?_eq_some_iff_idxOf {α : Type} [DecidableEq α] {l : List α} {q : α → Bool} {a : α}
    (ha : a ∈ l) (hq : q a = true) :
    l.find? q = some a ↔ ∀ b, q b = true → ¬l.idxOf b < l.idxOf a := by
  induction l with
  | nil => cases ha
  | cons x l ih =>
    by_cases hxa : x = a
    · subst hxa
      simp [hq]
    · have ha : a ∈ l := (List.mem_cons.1 ha).resolve_left (Ne.symm hxa)
      rw [List.idxOf_cons_ne l hxa]
      by_cases hx : q x = true
      · rw [List.find?_cons_of_pos hx]
        constructor
        · intro heq
          exact absurd (Option.some.inj heq) hxa
        · intro hfirst
          have hzero : (x :: l).idxOf x = 0 := List.idxOf_cons_self
          exact absurd (hzero ▸ Nat.succ_pos _) (hfirst x hx)
      · rw [List.find?_cons_of_neg hx, ih ha]
        refine forall₂_congr fun b hb => ?_
        have hne : x ≠ b := by
          rintro rfl
          exact hx hb
        rw [List.idxOf_cons_ne l hne, Nat.succ_lt_succ_iff]

/-! ## Names and keys of group fields -/

/-- No attribute is called like the date bucket. -/
theorem Attribute.columnId_ne_dateAlias (a : Attribute) : a.columnId ≠ Projection.dateAlias := by
  intro h
  have hfirst := congrArg (·.toList.head?) h
  simp [columnId, columnMark, Projection.dateAlias] at hfirst

namespace Registry

/-- The name under which a group field is shown. -/
def outputName (r : Registry) (field : String) : String :=
  if r.isTimestamp field then Projection.dateAlias else field

/-- Whether a group field is shown before the metrics. -/
def leads (r : Registry) (field : String) : Bool := r.isTimestamp field || r.contains field

/-- Whether a group field is shown before the metrics under a name. -/
def leadsAs (r : Registry) (name field : String) : Bool :=
  r.leads field && r.outputName field == name

variable {r : Registry} {field rival : String}

theorem leadsAs_iff {name : String} :
    r.leadsAs name field = true ↔ r.leads field = true ∧ r.outputName field = name := by
  rw [leadsAs, Bool.and_eq_true, beq_iff_eq]

theorem leads_cases (h : r.leads field = true) : r.isTimestamp field = true ∨
    ¬r.isTimestamp field = true ∧ ∃ c, r.find? field = some c := by
  by_cases htime : r.isTimestamp field = true
  · exact Or.inl htime
  · refine Or.inr ⟨htime, Option.isSome_iff_exists.1 ?_⟩
    simpa [leads, contains, htime] using h

/-- The names of the group fields that are shown before the metrics: the one of the date bucket, and
those of columns. -/
theorem exists_leadsAs_iff {fields : List String} {name : String} :
    (∃ field ∈ fields, r.leadsAs name field = true) ↔
      r.timestampField ∈ fields ∧ name = Projection.dateAlias ∨
        name ∈ fields ∧ ¬r.isTimestamp name = true ∧ r.contains name = true := by
  constructor
  · rintro ⟨field, hfield, hleadsAs⟩
    obtain ⟨hleads, rfl⟩ := leadsAs_iff.1 hleadsAs
    rcases leads_cases hleads with htime | ⟨htime, c, hfind⟩
    · exact Or.inl ⟨beq_iff_eq.1 htime ▸ hfield, if_pos htime⟩
    · rw [outputName, if_neg htime]
      exact Or.inr ⟨hfield, htime, Option.isSome_iff_exists.2 ⟨c, hfind⟩⟩
  · rintro (⟨hfield, rfl⟩ | ⟨hfield, htime, hin⟩)
    · have hself : r.isTimestamp r.timestampField = true := beq_self_eq_true _
      refine ⟨_, hfield, leadsAs_iff.2 ⟨?_, if_pos hself⟩⟩
      rw [leads, hself, Bool.true_or]
    · refine ⟨_, hfield, leadsAs_iff.2 ⟨?_, if_neg htime⟩⟩
      rw [leads, hin, Bool.or_true]

/-- A group field is shown under the name of the column that is its key. -/
theorem exists_column_groupKey (r : Registry) (field : String) :
    ∃ c : ColumnRef, r.groupKey field = .column c ∧ c.name = r.outputName field := by
  unfold groupKey outputName
  split
  · exact ⟨.bare Projection.dateAlias, rfl, rfl⟩
  · split
    · exact ⟨⟨baseName, field⟩, rfl, rfl⟩
    · exact ⟨⟨Pivot.relation, field⟩, rfl, rfl⟩

/-- Group fields that are shown before the metrics have different keys. -/
theorem groupKey_inj (hfield : r.leads field = true) (hrival : r.leads rival = true)
    (h : r.groupKey rival = r.groupKey field) : rival = field := by
  -- the date bucket has no relation
  have hapart (name : String) : Expr.of baseName name ≠ .column (.bare Projection.dateAlias) := by
    simp [Expr.of, ColumnRef.bare, baseName]
  rcases leads_cases hfield with htime | ⟨htime, _, hfind⟩
  · rcases leads_cases hrival with htime' | ⟨htime', _, hfind'⟩
    · exact (beq_iff_eq.1 htime').trans (beq_iff_eq.1 htime).symm
    · rw [groupKey_time htime, groupKey_column htime' hfind'] at h
      exact absurd h (hapart rival)
  · rcases leads_cases hrival with htime' | ⟨htime', _, hfind'⟩
    · rw [groupKey_time htime', groupKey_column htime hfind] at h
      exact absurd h.symm (hapart field)
    · rw [groupKey_column htime hfind, groupKey_column htime' hfind'] at h
      simpa [Expr.of] using h

end Registry

namespace Projection

variable (settings : Settings) (granularity : Option Granularity)

/-- The output of a group field that is shown before the metrics. -/
def fieldOutput (r : Registry) (field : String) : Output where
  item :=
    if r.isTimestamp field then
      .expr (dateBucket settings granularity r.timestampField) (some dateAlias)
    else .expr (.of baseName field) none
  key := some (r.groupKey field)

theorem name?_fieldOutput (r : Registry) (field : String) :
    (fieldOutput settings granularity r field).name? = some (r.outputName field) := by
  unfold fieldOutput Output.name? Registry.outputName
  split
  · rfl
  · rfl

theorem fieldOutputs_eq (scope : Scope) (field : String) :
    fieldOutputs settings scope granularity field =
      if scope.registry.leads field then [fieldOutput settings granularity scope.registry field]
      else [] := by
  unfold fieldOutputs fieldOutput Registry.leads
  by_cases htime : scope.registry.isTimestamp field = true
  · simp [htime, Registry.groupKey_time htime]
  · rcases hres : scope.resolve field with _ | c | a
    · have hout : scope.registry.find? field = none := Scope.find?_of_resolve_none hres
      simp [htime, Registry.contains, hout]
    · have hfind := Scope.resolve_eq_column.1 hres
      have hname := Scope.name_of_resolve_column hres
      simp [htime, Registry.contains, hfind, hname, Registry.groupKey_column htime hfind]
    · obtain ⟨hout, -⟩ := Scope.find?_of_resolve_attribute hres
      simp [htime, Registry.contains, hout]

/-- The first of the group fields that are shown under a name. -/
theorem find?_fieldOutputs (scope : Scope) (fields : List String) (name : String) :
    (fields.flatMap (fieldOutputs settings scope granularity)).find? (·.name? == some name) =
      (fields.find? (scope.registry.leadsAs name)).map
        (fieldOutput settings granularity scope.registry) := by
  induction fields with
  | nil => rfl
  | cons field fields ih =>
    have hname := name?_fieldOutput settings granularity scope.registry field
    rw [List.flatMap_cons, List.find?_append, ih, fieldOutputs_eq]
    by_cases hleads : scope.registry.leads field = true
    · by_cases hsame : scope.registry.outputName field = name
      · have hfirst := Registry.leadsAs_iff.2 ⟨hleads, hsame⟩
        rw [if_pos hleads, List.find?_cons_of_pos hfirst,
          List.find?_cons_of_pos (by simp [hname, hsame])]
        rfl
      · have hother : ¬scope.registry.leadsAs name field = true :=
          fun h => hsame (Registry.leadsAs_iff.1 h).2
        rw [if_pos hleads, List.find?_cons_of_neg hother,
          List.find?_cons_of_neg (by simp [hname, hsame])]
        rfl
    · have hother : ¬scope.registry.leadsAs name field = true :=
        fun h => hleads (Registry.leadsAs_iff.1 h).1
      rw [if_neg hleads, List.find?_cons_of_neg hother]
      rfl

/-! ## The first output of a name -/

variable {settings : Settings} {scope : Scope} {o : Outline} {field : String}

/-- A group field before the metrics has its key if no such field of the same name is before it. -/
theorem groupKey_mem_iff_of_leads (hfield : field ∈ o.groupBy)
    (hleads : scope.registry.leads field = true) :
    scope.registry.groupKey field ∈ (of settings scope o).groupBy ↔
      ∀ rival, scope.registry.leadsAs (scope.registry.outputName field) rival = true →
        ¬o.groupBy.idxOf rival < o.groupBy.idxOf field := by
  have hnamed := Registry.leadsAs_iff.2 ⟨hleads, rfl⟩
  obtain ⟨c, hkey, hname⟩ := scope.registry.exists_column_groupKey field
  obtain ⟨first, hfirst⟩ := Option.isSome_iff_exists.1 (List.find?_isSome.2 ⟨field, hfield, hnamed⟩)
  obtain ⟨hfirstLeads, -⟩ := Registry.leadsAs_iff.1 (List.find?_some hfirst)
  have hasked : (askedOutputs settings scope o).find? (·.name? == some c.name) =
      some (fieldOutput settings o.granularity scope.registry first) := by
    rw [askedOutputs, List.append_assoc, List.find?_append, hname, find?_fieldOutputs, hfirst]
    rfl
  calc scope.registry.groupKey field ∈ (of settings scope o).groupBy
      ↔ scope.registry.groupKey first = scope.registry.groupKey field := by
        rw [hkey, column_mem_groupBy_iff, hasked]
        simp [fieldOutput]
    _ ↔ first = field := ⟨Registry.groupKey_inj hleads hfirstLeads, congrArg _⟩
    _ ↔ o.groupBy.find? (scope.registry.leadsAs (scope.registry.outputName field)) =
        some field := by rw [hfirst, Option.some.injEq]
    _ ↔ _ := find?_eq_some_iff_idxOf hfield hnamed

/-- No group field before the metrics has the name of an attribute. -/
theorem not_leadsAs_of_attribute {a : Attribute} (hres : scope.resolve field = some (.attribute a))
    (other : String) : ¬scope.registry.leadsAs field other = true := by
  obtain ⟨hout, hid⟩ := Scope.find?_of_resolve_attribute hres
  intro h
  obtain ⟨hleads, hname⟩ := Registry.leadsAs_iff.1 h
  rw [Registry.outputName] at hname
  rcases Registry.leads_cases hleads with htime | ⟨htime, _, hfind⟩
  · rw [if_pos htime, ← hid] at hname
    exact a.columnId_ne_dateAlias hname.symm
  · rw [if_neg htime] at hname
    rw [hname, hout] at hfind
    cases hfind

theorem find?_metricOutputs_eq_none_iff (scope : Scope) {name : String} :
    (o.shownMetrics.zipIdx.map (metricOutput scope)).find? (·.name? == some name) = none ↔
      name ∉ o.metricNames := by
  rw [List.find?_eq_none, List.forall_mem_map, Outline.mem_metricNames_iff]
  simp only [beq_iff_eq, not_exists, not_and]
  exact forall₂_congr fun placed _ => not_congr Option.some_inj

theorem find?_attributeOutputs (hdistinct : scope.IsDistinct) {a : Attribute}
    (ha : a ∈ scope.readAttributes o) :
    ((scope.readAttributes o).map (attributeOutput scope o)).find? (·.name? == some a.columnId) =
      some (attributeOutput scope o a) := by
  have hmem : attributeOutput scope o a ∈ (scope.readAttributes o).map (attributeOutput scope o) :=
    List.mem_map_of_mem ha
  have hnamed : ((attributeOutput scope o a).name? == some a.columnId) = true :=
    beq_iff_eq.2 (outputName_attributeOutput a)
  have hfound : (((scope.readAttributes o).map (attributeOutput scope o)).find?
      (·.name? == some a.columnId)).isSome = true := List.find?_isSome.2 ⟨_, hmem, hnamed⟩
  obtain ⟨x, hx⟩ := Option.isSome_iff_exists.1 hfound
  obtain ⟨b, hb, rfl⟩ := List.mem_map.1 (List.mem_of_find?_eq_some hx)
  have hname : b.columnId = a.columnId := by
    have hsame := List.find?_some hx
    rw [beq_iff_eq, Output.name?, outputName_attributeOutput] at hsame
    exact Option.some.inj hsame
  have hsame : b = a := (hdistinct.eq_iff (Scope.mem_of_mem_readAttributes hb)
    (Scope.mem_of_mem_readAttributes ha)).2 hname
  rw [hx, hsame]

/-- An attribute has its key if no metric has its name. -/
theorem groupKey_mem_iff_of_attribute (hdistinct : scope.IsDistinct) {a : Attribute}
    (hfield : field ∈ o.groupBy) (htime : ¬scope.registry.isTimestamp field = true)
    (hres : scope.resolve field = some (.attribute a)) :
    scope.registry.groupKey field ∈ (of settings scope o).groupBy ↔ field ∉ o.metricNames := by
  obtain ⟨hout, rfl⟩ := Scope.find?_of_resolve_attribute hres
  have hfields : o.groupBy.find? (scope.registry.leadsAs a.columnId) = none :=
    List.find?_eq_none.2 fun other _ => not_leadsAs_of_attribute hres other
  have hread : a ∈ scope.readAttributes o :=
    Scope.mem_readAttributes_iff.2 ⟨_, Outline.mem_columns_of_mem_groupBy hfield, hres⟩
  rw [Registry.groupKey_attribute htime hout, Expr.of, column_mem_groupBy_iff, askedOutputs,
    List.append_assoc, List.find?_append, find?_fieldOutputs, hfields, Option.map_none,
    Option.none_or, List.find?_append, find?_attributeOutputs hdistinct hread,
    ← find?_metricOutputs_eq_none_iff scope]
  constructor
  · rintro ⟨x, hx, hkey⟩
    by_contra hfound
    -- the metric is found before the attribute, and it has no key
    obtain ⟨y, hy⟩ := Option.ne_none_iff_exists'.1 hfound
    obtain ⟨placed, -, rfl⟩ := List.mem_map.1 (List.mem_of_find?_eq_some hy)
    rw [hy] at hx
    cases hx
    cases hkey
  · intro hnone
    refine ⟨attributeOutput scope o a, ?_, ?_⟩
    · rw [hnone, Option.none_or]
    · rw [attributeOutput, if_pos (isGrouped_of_mem hfield htime hres)]
      rfl

end Projection

/-! ## The group keys of a plan -/

/-- The output name of a group field is taken before its own output is asked for. -/
inductive Report.LosesName (w : Warehouse) (r : Report) (field : String) : Prop
  /-- By a field before it: the time and a column that is called like the date bucket. -/
  | toField {rival : String} (hleads : w.registry.leads rival = true)
      (hname : w.registry.outputName rival = w.registry.outputName field)
      (hbefore : r.outline.groupBy.idxOf rival < r.outline.groupBy.idxOf field)
  /-- By a metric, if the field is an attribute. -/
  | toMetric (hout : ¬w.registry.leads field = true) (hname : field ∈ r.outline.metricNames)

/-- No group key comes twice, and a group field that means something has its key, unless its name
is taken. -/
theorem groupKey_mem_iff (w : Warehouse) (site : Website) (r : Report) {field : String}
    (hfield : field ∈ r.outline.groupBy)
    (hres : w.registry.isTimestamp field = true ∨
      ((Scope.of w.registry r.attributes).resolve field).isSome = true) :
    (w.plan site r).projection.groupBy.Nodup ∧
      (w.registry.groupKey field ∈ (w.plan site r).projection.groupBy ↔
        ¬r.LosesName w field) := by
  have hprojection : (w.plan site r).projection =
      .of w.settings (.of w.registry r.attributes) r.outline := rfl
  rw [hprojection]
  refine ⟨Projection.nodup_groupBy, ?_⟩
  by_cases hleads : w.registry.leads field = true
  · refine (Projection.groupKey_mem_iff_of_leads hfield hleads).trans ⟨?_, ?_⟩
    · rintro hfree (⟨hrival, hname, hbefore⟩ | ⟨hout, -⟩)
      · exact hfree _ (Registry.leadsAs_iff.2 ⟨hrival, hname⟩) hbefore
      · exact hout hleads
    · intro hfree rival hrival hbefore
      obtain ⟨hrival, hname⟩ := Registry.leadsAs_iff.1 hrival
      exact hfree (.toField hrival hname hbefore)
  · have hother : ¬w.registry.isTimestamp field = true ∧ w.registry.find? field = none := by
      simpa [Registry.leads, Registry.contains] using hleads
    obtain ⟨htime, hout⟩ := hother
    obtain ⟨target, htarget⟩ := Option.isSome_iff_exists.1 (hres.resolve_left htime)
    rcases target with c | a
    · have hin : w.registry.find? field = some c := Scope.resolve_eq_column.1 htarget
      rw [hout] at hin
      cases hin
    · have hdistinct := Scope.distinct_of w.registry r.attributes
      refine (Projection.groupKey_mem_iff_of_attribute hdistinct hfield htime htarget).trans
        ⟨?_, ?_⟩
      · rintro hfree (⟨hrival, hname, -⟩ | ⟨-, hname⟩)
        · have hself : w.registry.outputName field = field := if_neg htime
          rw [hself] at hname
          exact Projection.not_leadsAs_of_attribute htarget _
            (Registry.leadsAs_iff.2 ⟨hrival, hname⟩)
        · exact hfree hname
      · intro hfree hname
        exact hfree (.toMetric hleads hname)

/-- A report that names a field of each kind twice. -/
theorem groupKey_mem_iff_repeated :
    ∃ r : Report,
      r.outline.groupBy = ["created_at", "param_a", "country", "param_a", "country", "created_at"] ∧
        (Warehouse.plan {} { id := "w" } r).projection.groupBy.Nodup ∧
          (Registry.standard.groupKey "param_a" ∈
              (Warehouse.plan {} { id := "w" } r).projection.groupBy ↔
            ¬r.LosesName {} "param_a") := by
  let r : Report :=
    { attributes := [⟨"a", .string⟩]
      outline :=
        { metrics := [{ name := some "dato" }]
          groupBy := ["created_at", "param_a", "country", "param_a", "country", "created_at"] } }
  have hres : ((Scope.of .standard r.attributes).resolve "param_a").isSome = true := by decide
  exact ⟨r, rfl, groupKey_mem_iff {} { id := "w" } r (by decide) (Or.inr hres)⟩

/-- A metric that is called like the one group field of its report: the report is not grouped. -/
theorem groupKey_not_mem_of_metric :
    Registry.standard.IsValid ∧
      ∃ r : Report, "param_x" ∈ r.outline.groupBy ∧
        ((Scope.of .standard r.attributes).resolve "param_x").isSome = true ∧
          Registry.standard.groupKey "param_x" ∉
            (Warehouse.plan {} { id := "w" } r).projection.groupBy := by
  have hvalid : Registry.standard.validate = .ok () := by decide
  let r : Report :=
    { attributes := [⟨"x", .string⟩]
      outline := { metrics := [{}, { name := some "param_x" }], groupBy := ["param_x"] } }
  have hnone : (Warehouse.plan {} { id := "w" } r).projection.groupBy.isEmpty = true := by
    decide +kernel
  refine ⟨hvalid, r, by decide, by decide, ?_⟩
  rw [List.isEmpty_iff.1 hnone]
  exact List.not_mem_nil

end EventReport
