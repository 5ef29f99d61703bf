/-
# Every name in a statement is an identifier

Names get into a statement from three sides: from the registry, whose columns are
identifiers if it is valid; from the keys of attributes, out of which a column
name is made; and from the names of metrics, which are replaced where they are no
identifiers.  None of them can hold a character with a meaning in SQL.

The names of metrics are free to choose, and may be those of other outputs.  Which ones they
come to is said on the report (`Outline.metricNames`).
-/
import EventReport.Plan.Basic
import EventReport.Proofs.Plan.Projection
import EventReport.Proofs.Text.Character
import EventReport.Proofs.Warehouse.Validation

namespace EventReport

open Text Sql

/-! ## Text -/

namespace Text

theorem isIdentifierStart_of_isIdentifierChar {c : Char} (h : isIdentifierChar c = true)
    (hd : c.isDigit = false) : isIdentifierStart c = true := by
  simp only [isIdentifierChar, Char.isAlphanum, hd, Bool.or_false] at h
  exact h

theorem isIdentifierChar_identifierChar (c : Char) : isIdentifierChar (identifierChar c) = true := by
  unfold identifierChar
  split
  · assumption
  · decide

theorem isIdentifierChars_cons {c : Char} {cs : List Char} (hc : isIdentifierStart c = true)
    (hcs : ∀ d ∈ cs, isIdentifierChar d = true) : isIdentifierChars (c :: cs) = true :=
  isIdentifierChars_iff.2 ⟨c, cs, rfl, hc, hcs⟩

/-- More characters may follow an identifier. -/
theorem isIdentifierChars_append {cs ds : List Char} (h : isIdentifierChars cs = true)
    (hds : ∀ d ∈ ds, isIdentifierChar d = true) : isIdentifierChars (cs ++ ds) = true := by
  obtain ⟨c, rest, rfl, hc, hrest⟩ := isIdentifierChars_iff.1 h
  refine isIdentifierChars_cons hc ?_
  intro d hd
  rcases List.mem_append.1 hd with hd | hd
  · exact hrest d hd
  · exact hds d hd

/-- What is made from a free text is an identifier. -/
theorem isIdentifier_of_toIdentifier? {s t : String} (h : toIdentifier? s = some t) :
    isIdentifier t = true := by
  obtain ⟨cs, hcs, rfl⟩ := Option.map_eq_some_iff.1 h
  have hmapped : ∀ d ∈ (trimChars s.toList).map identifierChar, isIdentifierChar d = true := by
    intro d hd
    obtain ⟨e, -, rfl⟩ := List.mem_map.1 hd
    exact isIdentifierChar_identifierChar e
  unfold identifierChars? at hcs
  dsimp only at hcs
  generalize (trimChars s.toList).map identifierChar = mapped at hcs hmapped
  rw [isIdentifier, String.toList_ofList]
  split at hcs
  · cases hcs
  · split at hcs
    · next _ c ds _ =>
      split at hcs
      · obtain rfl := Option.some.inj hcs
        exact isIdentifierChars_cons (by decide) hmapped
      · next hdigit =>
        obtain rfl := Option.some.inj hcs
        have hc := hmapped c List.mem_cons_self
        have hd : c.isDigit = false := by simpa using hdigit
        exact isIdentifierChars_cons (isIdentifierStart_of_isIdentifierChar hc hd)
          fun d hd => hmapped d (List.mem_cons_of_mem c hd)
    · cases hcs

theorem isIdentifierChar_toLower {c : Char} (h : isIdentifierChar c = true) :
    isIdentifierChar c.toLower = true := by
  have hn := toNat_of_isIdentifierChar h
  have hall : ∀ n : Fin 128, isIdentifierChar (Char.ofNat n) = true →
      isIdentifierChar (Char.ofNat n).toLower = true := by decide
  have hc : Char.ofNat c.toNat = c := Char.ofNat_toNat c
  have := hall ⟨c.toNat, by omega⟩
  rw [hc] at this
  exact this h

end Text

/-! ## Attributes -/

theorem Attribute.isIdentifier_columnId (a : Attribute) : isIdentifier a.columnId = true := by
  have hmark : isIdentifierChars columnMark.toList = true := by decide
  rw [isIdentifier, columnId, String.toList_append]
  refine isIdentifierChars_append hmark ?_
  intro d hd
  rw [keyFragment, String.toList_ofList] at hd
  obtain ⟨c, -, rfl⟩ := List.mem_map.1 hd
  exact isIdentifierChar_toLower (isIdentifierChar_identifierChar c)

/-! ## The registry -/

namespace Registry

/-- A registry that passes its validation. -/
def IsValid (r : Registry) : Prop := r.validate = .ok ()

theorem fault?_of_isValid {r : Registry} (h : r.IsValid) : r.fault? = none := by
  unfold IsValid validate at h
  split at h
  · cases h
  · assumption

section Valid

variable {r : Registry} (h : r.IsValid)

include h

theorem areGood_of_isValid : AreGood r.columns := (fault?_eq_none_iff.1 (fault?_of_isValid h)).1

theorem isIdentifier_of_mem {c : Column} (hc : c ∈ r.columns) : isIdentifier c.name = true :=
  isIdentifier_iff.2 ((areGood_of_isValid h).names c hc)

/-- Every computed column has an expression. -/
theorem exists_computed? {c : Column} (hc : c ∈ r.columns) (htable : c.table = .computed) :
    ∃ k, c.computed? = some k := by
  obtain ⟨k, hk⟩ := (areGood_of_isValid h).computed c hc htable
  exact Option.ne_none_iff_exists'.1 fun hnone =>
    (Column.computed?_eq_none_iff htable).1 hnone k hk

/-- The timestamp field is a column of the event table. -/
theorem exists_timestamp : ∃ c ∈ r.columns, c.name = r.timestampField ∧ c.table = .event :=
  (fault?_eq_none_iff.1 (fault?_of_isValid h)).2

theorem isIdentifier_timestampField : isIdentifier r.timestampField = true := by
  obtain ⟨c, hc, hname, -⟩ := exists_timestamp h
  rw [← hname]
  exact isIdentifier_of_mem h hc

end Valid

end Registry

/-! ## Names of metrics are identifiers -/

theorem Metric.isIdentifier_positionalName (place : Nat) :
    isIdentifier (Metric.positionalName place) = true := by
  have hmetric : isIdentifierChars "metric_".toList = true := by decide
  rw [isIdentifier, Metric.positionalName, String.toList_append]
  refine isIdentifierChars_append hmetric ?_
  intro d hd
  rw [Nat.toString_eq_ofList_toDigits, String.toList_ofList] at hd
  have hdigit := Nat.isDigit_of_mem_toDigits (by decide) (by decide) hd
  simp [isIdentifierChar, Char.isAlphanum, hdigit]

theorem Metric.isIdentifier_outputName (m : Metric) (place : Nat) :
    isIdentifier (m.outputName place).1 = true := by
  have hplace := Metric.isIdentifier_positionalName place
  unfold Metric.outputName
  split
  · exact hplace
  · next name _ =>
    split
    · exact hplace
    · split
      · assumption
      · cases hname : toIdentifier? name with
        | none => exact hplace
        | some t => exact isIdentifier_of_toIdentifier? hname

/-! ## The names of metrics -/

/-- The name under which a metric at a place is shown: the one that it is given, without blanks
around it, if that is an identifier; or else the identifier made of it; and if there is neither, the
one of its place. -/
def Metric.shownName (m : Metric) (place : Nat) : String :=
  let given := trim (m.name.getD "")
  if isIdentifier given then given
  else (toIdentifier? given).getD ("metric_" ++ toString (place + 1))

theorem Metric.outputName_eq_shownName (m : Metric) (place : Nat) :
    (m.outputName place).1 = m.shownName place := by
  have hblank : isIdentifier "" = false ∧ toIdentifier? "" = none := by decide
  have hnone : trim "" = "" := rfl
  unfold outputName shownName positionalName
  rcases m.name with _ | given
  · simp only [Option.map_none, Option.getD_none, hnone, hblank.1, hblank.2]
    rfl
  · simp only [Option.map_some, Option.getD_some]
    by_cases hempty : trim given = ""
    · rw [if_pos hempty, hempty, hblank.1, hblank.2]
      rfl
    · rw [if_neg hempty]
      by_cases hplain : isIdentifier (trim given) = true
      · rw [if_pos hplain, if_pos hplain]
      · rw [if_neg hplain, if_neg hplain]

/-- The names of the metrics, in order. A report without metrics has a row count. -/
def Outline.metricNames (o : Outline) : List String :=
  if o.metrics = [] then ["metric_1"] else o.metrics.mapIdx fun place m => m.shownName place

theorem Outline.shownMetrics_eq_self {o : Outline} (h : o.metrics ≠ []) :
    o.shownMetrics = o.metrics :=
  if_neg fun hnone => h (List.isEmpty_iff.1 hnone)

theorem Outline.metricNames_eq (o : Outline) :
    o.metricNames = o.shownMetrics.zipIdx.map fun placed => (placed.1.outputName placed.2).1 := by
  unfold metricNames
  by_cases hnone : o.metrics = []
  · rw [if_pos hnone, shownMetrics, hnone]
    rfl
  · rw [if_neg hnone, shownMetrics_eq_self hnone, List.mapIdx_eq_zipIdx_map]
    exact List.map_congr_left fun placed _ => (placed.1.outputName_eq_shownName placed.2).symm

theorem Outline.mem_metricNames_iff {o : Outline} {name : String} : name ∈ o.metricNames ↔
    ∃ placed ∈ o.shownMetrics.zipIdx, (placed.1.outputName placed.2).1 = name := by
  rw [metricNames_eq, List.mem_map]

/-! ## The names of outputs -/

namespace Projection

variable {settings : Settings} {scope : Scope} {o : Outline}

/-- The output names of a report are identifiers. -/
theorem Shows.isIdentifier_outputName (h : scope.registry.IsValid) {i : Item} {name : String}
    (hi : Shows settings scope o i) (hname : i.outputName? = some name) :
    isIdentifier name = true := by
  cases hi with
  | date =>
    obtain rfl : dateAlias = name := by simpa [Item.outputName?] using hname
    decide
  | column hc =>
    obtain rfl := Option.some.inj hname
    exact Registry.isIdentifier_of_mem h hc
  | metric m place =>
    obtain rfl := Option.some.inj hname
    exact m.isIdentifier_outputName place
  | key ha =>
    obtain rfl := Option.some.inj hname
    exact Attribute.isIdentifier_columnId _
  | folded ha =>
    obtain rfl := Option.some.inj hname
    exact Attribute.isIdentifier_columnId _

theorem isIdentifier_of_mem_names (h : scope.registry.IsValid) {name : String}
    (hname : name ∈ (Projection.of settings scope o).names) : isIdentifier name = true := by
  obtain ⟨i, hi, hname⟩ := List.mem_filterMap.1 hname
  exact ((isFit_of settings scope o).select i hi).isIdentifier_outputName h hname

end Projection

end EventReport
