/-
# What a warning is about

Each warning of a plan is about an attribute, a filter or an output of its report, and the
three kinds come one after the other (`Plan.warnings_eq`).  So a statement about the warnings
of one kind need not look at how the others come about.
-/
import EventReport.Proofs.Plan.Fate
import EventReport.Proofs.Plan.Projection

namespace EventReport

open Sql

namespace Warning

/-- The part of a report that a warning is about. -/
inductive Subject where
  | attribute
  | filter
  | output
deriving DecidableEq, Repr

def subject : Warning → Subject
  | duplicateAttribute .. => .attribute
  | unknownOperator .. | missingValue .. | interactiveAttribute .. | unknownColumn _ .filter =>
    .filter
  | unknownColumn _ .groupBy | unknownColumn _ .metric | unknownFunction .. | missingMetricColumn ..
  | unknownOrderColumn .. | invalidAlias .. | duplicateOutput .. => .output

end Warning

/-! ## Attributes -/

theorem Scope.subject_keep {kept as : List Attribute} {w : Warning} (hw : w ∈ (keep kept as).2) :
    w.subject = .attribute := by
  induction as generalizing kept with
  | nil => cases hw
  | cons a as ih =>
    unfold keep at hw
    split at hw
    · rcases List.mem_cons.1 hw with rfl | hw
      · rfl
      · exact ih hw
    · exact ih hw

theorem Scope.subject_duplicates {attributes : List Attribute} {w : Warning}
    (hw : w ∈ duplicates attributes) : w.subject = .attribute := subject_keep hw

/-! ## Filters -/

namespace Filter

variable {f : Filter} {w : Warning}

theorem subject_missingValue? (hw : f.missingValue? = some w) : w.subject = .filter := by
  unfold missingValue? at hw
  split at hw
  · rw [← Option.some.inj hw]
    rfl
  · cases hw

theorem subject_note? (hw : f.note? = some w) : w.subject = .filter := by
  unfold note? at hw
  split at hw
  · rw [← Option.some.inj hw]
    rfl
  · cases hw

theorem subject_warning? {settings : Settings} {scope : Scope}
    (hw : (f.fate settings scope).warning? = some w) : w.subject = .filter := by
  have hfate := f.hasFate_fate settings scope
  generalize f.fate settings scope = fate at hw hfate
  cases hfate with
  | unknown | interactive =>
    rw [← Option.some.inj hw]
    rfl
  | missing hmissing => exact Option.some.inj hw ▸ subject_missingValue? hmissing
  | base | outer => exact subject_note? hw

end Filter

/-! ## Outputs -/

namespace Metric

theorem subject_outputName (m : Metric) {place : Nat} {w : Warning}
    (hw : w ∈ (m.outputName place).2) : w.subject = .output := by
  unfold outputName at hw
  split at hw
  · cases hw
  · split at hw
    · cases hw
    · split at hw
      · cases hw
      · rw [List.mem_singleton.1 hw]
        rfl

theorem subject_expr (m : Metric) {scope : Scope} {name : String} {w : Warning}
    (hw : w ∈ (m.expr scope name).2) : w.subject = .output := by
  have hexpr := m.hasExpr_expr scope name
  generalize m.expr scope name = shown at hexpr hw
  cases hexpr with
  | count | column | value => cases hw
  | unknownFunction | missingColumn | unknownColumn =>
    rw [List.mem_singleton.1 hw]
    rfl

end Metric

namespace Projection

variable {settings : Settings} {scope : Scope} {o : Outline}

theorem subject_fieldNotes {field : String} {w : Warning} (hw : w ∈ fieldNotes scope field) :
    w.subject = .output := by
  unfold fieldNotes at hw
  split at hw
  · cases hw
  · split at hw
    · cases hw
    · rw [List.mem_singleton.1 hw]
      rfl

theorem subject_metricNotes {placed : Metric × Nat} {w : Warning}
    (hw : w ∈ metricNotes scope placed) : w.subject = .output := by
  rcases List.mem_append.1 hw with hw | hw
  · exact placed.1.subject_outputName hw
  · exact placed.1.subject_expr hw

theorem subject_warnings {w : Warning} (hw : w ∈ (of settings scope o).warnings) :
    w.subject = .output := by
  obtain ⟨ordering, kept, hordering, hgrows⟩ := exists_grows_of settings scope o
  rcases hgrows.said w hw with hw | hw | ⟨name, rfl⟩
  · cases hw
  · rcases List.mem_append.1 hw with hw | hw
    · rcases List.mem_append.1 hw with hw | hw
      · obtain ⟨field, -, hw⟩ := List.mem_flatMap.1 hw
        exact subject_fieldNotes hw
      · obtain ⟨placed, -, hw⟩ := List.mem_flatMap.1 hw
        exact subject_metricNotes hw
    · obtain ⟨column, rfl⟩ := hordering w hw
      rfl
  · rfl

end Projection

/-! ## The warnings of a plan -/

namespace Plan

variable (w : Warehouse) (site : Website) (r : Report)

/-- What is said of the filters of a report. -/
def filterWarnings : List Warning :=
  (r.filters.map (Filter.fate w.settings (.of w.registry r.attributes))).filterMap Fate.warning?

/-- What is said of the outputs of a report. -/
def outputWarnings : List Warning :=
  (Projection.of w.settings (.of w.registry r.attributes) r.outline).warnings

theorem warnings_eq : (w.plan site r).warnings =
    Scope.duplicates r.attributes ++ filterWarnings w r ++ outputWarnings w r := rfl

variable {w r}

theorem subject_filterWarnings {warning : Warning} (h : warning ∈ filterWarnings w r) :
    warning.subject = .filter := by
  obtain ⟨fate, hfate, hwarning⟩ := List.mem_filterMap.1 h
  obtain ⟨f, -, rfl⟩ := List.mem_map.1 hfate
  exact Filter.subject_warning? hwarning

end Plan

end EventReport
