/-
# Output names that differ in case only

The warehouse does not tell the columns `Visits` and `visits` apart, and refuses a statement
that has both.  A report never shows two outputs of the same name, but names are compared
with their case, and those of metrics are free to choose.

## What is proved

`caseless_outputNames_nodup_iff`, for every report and every registry whose columns differ in
more than case: each item that is shown has a name, no two have the same one, and they differ
in more than case exactly if the report asks for no two names that do not (`Report.CaseClash`).
That can happen in three ways only: a metric is called like any other output, or a column of
the registry like the date bucket or like an attribute.  Two metrics suffice
(`caseless_outputNames_not_nodup`).

## Shape of the proof

The names that are shown are those that are asked for (`mem_names_iff_asked`).  Two columns
cannot clash by assumption, and two attributes, or an attribute and the date bucket, cannot
because their names are in lower case.
-/
import EventReport.Proofs.Plan.Ordering

namespace EventReport

open Sql

/-- A text without regard to the case of its ASCII letters. -/
def Text.caseless (s : String) : List Char := s.toList.map Char.toLower

open Text (caseless)

/-! ## Names in lower case -/

theorem Attribute.caseless_columnId (a : Attribute) : caseless a.columnId = a.columnId.toList := by
  have hmark : columnMark.toList.map Char.toLower = columnMark.toList := by decide
  rw [caseless, columnId, String.toList_append, List.map_append, hmark, Text.keyFragment,
    String.toList_ofList, List.map_map]
  congr 1
  exact List.map_congr_left fun c _ => Char.toLower_toLower_eq_toLower _

theorem Projection.caseless_dateAlias : caseless dateAlias = dateAlias.toList := by decide

/-! ## Names that are shown once -/

namespace Projection

variable {settings : Settings} {scope : Scope} {o : Outline}

theorem IsOutput.exists_outputName? {i : Item} {key : Option Expr}
    (h : IsOutput settings scope o i key) : ∃ name, i.outputName? = some name := by
  cases h with
  | date => exact ⟨_, rfl⟩
  | column => exact ⟨_, rfl⟩
  | metric => exact ⟨_, rfl⟩
  | key => exact ⟨_, rfl⟩
  | folded => exact ⟨_, rfl⟩

/-- Each item that is shown has a name. -/
theorem map_outputName?_select : (of settings scope o).select.map Item.outputName? =
    (of settings scope o).names.map some := by
  rw [names, List.map_filterMap_some_eq_filter_map_isSome, eq_comm, List.filter_eq_self]
  intro name hname
  obtain ⟨i, hi, rfl⟩ := List.mem_map.1 hname
  obtain ⟨key, hout⟩ := (isBuilt_of settings scope o).select i hi
  obtain ⟨name, hname⟩ := hout.exists_outputName?
  rw [hname, Option.isSome_some]

/-- No two of the names are the same. -/
theorem nodup_names : (of settings scope o).names.Nodup := by
  have hshown : (of settings scope o).names.map some =
      (shownOutputs settings scope o).map Output.name? := by
    rw [← map_outputName?_select, (isMadeOf_of settings scope o).select, List.map_map]
    rfl
  refine List.Nodup.of_map some ?_
  rw [hshown]
  exact nodup_name?_shownOutputs

end Projection

/-! ## The names that a report asks for -/

namespace Report

variable (w : Warehouse) (r : Report)

/-- The columns of the registry that are shown as group fields. -/
def groupedColumns : List String :=
  r.outline.groupBy.filter fun field =>
    !w.registry.isTimestamp field && w.registry.contains field

/-- The names of attributes among the group keys and the columns of metrics. -/
def attributeNames : List String :=
  (r.outline.groupBy ++ r.outline.metrics.filterMap Metric.column).filter (r.namesAttribute w)

/-- A name that the report asks for, with what it is asked for. -/
inductive Names : String → Prop
  | date (h : w.registry.timestampField ∈ r.outline.groupBy) : Names Projection.dateAlias
  | column {name : String} (h : name ∈ r.groupedColumns w) : Names name
  | metric {name : String} (h : name ∈ r.outline.metricNames) : Names name
  | read {name : String} (h : name ∈ r.attributeNames w) : Names name

/-- Two outputs have names that differ in case only. -/
inductive CaseClash : Prop
  /-- A metric and any other output. -/
  | metric {name other : String} (h : name ∈ r.outline.metricNames) (hother : r.Names w other)
      (hne : name ≠ other) (hsame : caseless name = caseless other)
  /-- A column and the date bucket. -/
  | date {name : String} (h : name ∈ r.groupedColumns w)
      (htime : w.registry.timestampField ∈ r.outline.groupBy) (hne : name ≠ Projection.dateAlias)
      (hsame : caseless name = caseless Projection.dateAlias)
  /-- A column and an attribute. -/
  | read {name other : String} (h : name ∈ r.groupedColumns w)
      (hother : other ∈ r.attributeNames w) (hne : name ≠ other)
      (hsame : caseless name = caseless other)

variable {w r}

theorem mem_groupedColumns_iff {name : String} : name ∈ r.groupedColumns w ↔
    name ∈ r.outline.groupBy ∧ ¬w.registry.isTimestamp name = true ∧
      w.registry.contains name = true := by
  rw [groupedColumns, List.mem_filter, Bool.and_eq_true, Bool.not_eq_true', Bool.not_eq_true]

theorem mem_attributeNames_iff {name : String} : name ∈ r.attributeNames w ↔
    ∃ a ∈ (Scope.of w.registry r.attributes).readAttributes r.outline, a.columnId = name := by
  rw [attributeNames, List.mem_filter, namesAttribute_iff]
  simp only [Scope.mem_readAttributes_iff]
  constructor
  · rintro ⟨hname, a, hres⟩
    exact ⟨a, ⟨name, hname, hres⟩, (Scope.find?_of_resolve_attribute hres).2⟩
  · rintro ⟨a, ⟨field, hfield, hres⟩, hid⟩
    obtain rfl : field = name := (Scope.find?_of_resolve_attribute hres).2.symm.trans hid
    exact ⟨hfield, a, hres⟩

/-- The names that are shown are those that the report asks for. -/
theorem mem_names_iff_names (site : Website) {name : String} :
    name ∈ (w.plan site r).projection.names ↔ r.Names w name := by
  have hasked : name ∈ (w.plan site r).projection.names ↔
      (∃ field ∈ r.outline.groupBy, w.registry.leadsAs name field = true) ∨ _ :=
    Projection.mem_names_iff_asked
  rw [hasked, Registry.exists_leadsAs_iff, ← mem_groupedColumns_iff, ← mem_attributeNames_iff]
  constructor
  · rintro ((⟨htime, rfl⟩ | hcolumn) | hmetric | hattribute)
    · exact .date htime
    · exact .column hcolumn
    · exact .metric hmetric
    · exact .read hattribute
  · intro hname
    cases hname with
    | date h => exact Or.inl (Or.inl ⟨h, rfl⟩)
    | column h => exact Or.inl (Or.inr h)
    | metric h => exact Or.inr (Or.inl h)
    | read h => exact Or.inr (Or.inr h)

/-! ## Names that differ in case only -/

/-- A column of the registry is known by its name without its case, if the columns are. -/
theorem eq_of_mem_groupedColumns
    (hcolumns : (w.registry.columns.map fun c => caseless c.name).Nodup) {name other : String}
    (h : name ∈ r.groupedColumns w) (hother : other ∈ r.groupedColumns w)
    (hsame : caseless name = caseless other) : name = other := by
  obtain ⟨-, -, hin⟩ := mem_groupedColumns_iff.1 h
  obtain ⟨-, -, hin'⟩ := mem_groupedColumns_iff.1 hother
  obtain ⟨c, hc⟩ := Option.isSome_iff_exists.1 hin
  obtain ⟨d, hd⟩ := Option.isSome_iff_exists.1 hin'
  obtain rfl : c.name = name := by simpa using List.find?_some hc
  obtain rfl : d.name = other := by simpa using List.find?_some hd
  have hcd : c = d := List.inj_on_of_nodup_map hcolumns (List.mem_of_find?_eq_some hc)
    (List.mem_of_find?_eq_some hd) hsame
  rw [hcd]

/-- The name of the date bucket and those of attributes are in lower case. -/
theorem caseless_of_mem_attributeNames {name : String} (h : name ∈ r.attributeNames w) :
    caseless name = name.toList := by
  obtain ⟨a, -, rfl⟩ := mem_attributeNames_iff.1 h
  exact a.caseless_columnId

theorem Names.caseClash (hcolumns : (w.registry.columns.map fun c => caseless c.name).Nodup)
    {name other : String} (h : r.Names w name) (hother : r.Names w other) (hne : name ≠ other)
    (hsame : caseless name = caseless other) : r.CaseClash w := by
  have hlower (hname : caseless name = name.toList) (hname' : caseless other = other.toList) :
      r.CaseClash w :=
    absurd (String.toList_injective (hname.symm.trans (hsame.trans hname'))) hne
  have hdate : caseless Projection.dateAlias = Projection.dateAlias.toList :=
    Projection.caseless_dateAlias
  cases h with
  | metric h => exact .metric h hother hne hsame
  | date h =>
    cases hother with
    | metric h' => exact .metric h' (.date h) hne.symm hsame.symm
    | column h' => exact .date h' h hne.symm hsame.symm
    | date h' => exact absurd rfl hne
    | read h' => exact hlower hdate (caseless_of_mem_attributeNames h')
  | column h =>
    cases hother with
    | metric h' => exact .metric h' (.column h) hne.symm hsame.symm
    | column h' => exact absurd (eq_of_mem_groupedColumns hcolumns h h' hsame) hne
    | date h' => exact .date h h' hne hsame
    | read h' => exact .read h h' hne hsame
  | read h =>
    cases hother with
    | metric h' => exact .metric h' (.read h) hne.symm hsame.symm
    | column h' => exact .read h' h hne.symm hsame.symm
    | date h' => exact hlower (caseless_of_mem_attributeNames h) hdate
    | read h' =>
      exact hlower (caseless_of_mem_attributeNames h) (caseless_of_mem_attributeNames h')

/-- Two names that the report asks for differ in case only if they are of one of three kinds. -/
theorem caseClash_iff (hcolumns : (w.registry.columns.map fun c => caseless c.name).Nodup) :
    r.CaseClash w ↔ ∃ name other, r.Names w name ∧ r.Names w other ∧ name ≠ other ∧
      caseless name = caseless other := by
  constructor
  · intro hclash
    cases hclash with
    | metric h hother hne hsame => exact ⟨_, _, .metric h, hother, hne, hsame⟩
    | date h htime hne hsame => exact ⟨_, _, .column h, .date htime, hne, hsame⟩
    | read h hother hne hsame => exact ⟨_, _, .column h, .read hother, hne, hsame⟩
  · rintro ⟨name, other, h, hother, hne, hsame⟩
    exact h.caseClash hcolumns hother hne hsame

end Report

/-! ## The names that are shown -/

/-- Whatever the columns of the registry are called, each item has a name, and no two have the same
one.  Where the columns differ in more than case, the names do exactly if the report asks for no two
that do not. -/
theorem caseless_outputNames_nodup_iff (w : Warehouse) (site : Website) (r : Report)
    (hcolumns : (w.registry.columns.map fun c => caseless c.name).Nodup) :
    ((w.plan site r).query w).select.map Item.outputName? =
        ((w.plan site r).query w).outputNames.map some ∧
      ((w.plan site r).query w).outputNames.Nodup ∧
      ((((w.plan site r).query w).outputNames.map caseless).Nodup ↔ ¬r.CaseClash w) := by
  have hselect : ((w.plan site r).query w).select.map Item.outputName? =
      ((w.plan site r).query w).outputNames.map some := Projection.map_outputName?_select
  have hnodup : ((w.plan site r).query w).outputNames.Nodup := Projection.nodup_names
  have hnames {name : String} : name ∈ ((w.plan site r).query w).outputNames ↔ r.Names w name :=
    Report.mem_names_iff_names site
  refine ⟨hselect, hnodup, ?_⟩
  rw [List.nodup_map_iff_inj_on hnodup, Report.caseClash_iff hcolumns]
  constructor
  · rintro hinj ⟨name, other, h, hother, hne, hsame⟩
    exact hne (hinj name (hnames.2 h) other (hnames.2 hother) hsame)
  · intro hapart name h other hother hsame
    by_contra hne
    exact hapart ⟨name, other, hnames.1 h, hnames.1 hother, hne, hsame⟩

/-- The usual columns, and a report with an output of each kind. -/
theorem caseless_outputNames_nodup_iff_standard :
    (Registry.standard.columns.map fun c => caseless c.name).Nodup ∧
      ∃ r : Report, ((Warehouse.plan {} { id := "w" } r).query {}).outputNames =
          ["dato", "country", "Antall", "metric_2", "param_kilde"] ∧
        ((Warehouse.plan {} { id := "w" } r).query {}).outputNames.Nodup ∧
        ((((Warehouse.plan {} { id := "w" } r).query {}).outputNames.map caseless).Nodup ↔
          ¬r.CaseClash {}) := by
  have hcolumns : (Registry.standard.columns.map fun c => caseless c.name).Nodup := by decide
  let r : Report :=
    { attributes := [⟨"Kilde", .string⟩, ⟨"kilde", .number⟩]
      outline := { metrics := [{ name := some "Antall" }, {}],
                   groupBy := ["created_at", "country", "param_kilde"] } }
  obtain ⟨-, hnodup, hiff⟩ := caseless_outputNames_nodup_iff {} { id := "w" } r hcolumns
  exact ⟨hcolumns, r, by decide +kernel, hnodup, hiff⟩

/-- Two metrics that the report calls alike but for the case of a letter are both shown. -/
theorem caseless_outputNames_not_nodup :
    Registry.standard.IsValid ∧
      (Registry.standard.columns.map fun c => caseless c.name).Nodup ∧
      ∃ r : Report, ((Warehouse.plan {} { id := "w" } r).query {}).outputNames =
          ["Antall", "antall"] ∧
        ¬(((Warehouse.plan {} { id := "w" } r).query {}).outputNames.map caseless).Nodup := by
  have hvalid : Registry.standard.validate = .ok () := by decide
  let r : Report :=
    { outline := { metrics := [{ name := some "Antall" },
                               { function := .countDistinct, column := some "session_id",
                                 name := some "antall" }] } }
  exact ⟨hvalid, by decide, r, by decide +kernel, by decide +kernel⟩

end EventReport
