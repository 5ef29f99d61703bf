/-
# Nothing in a report is lost silently

A plan leaves out what it cannot take from its report, and says so in a warning.  So the
plan and its warnings account for the whole report.

## What is proved

`plan_accountsFor` has two parts, both for every warehouse and every report, and both about
the statement that the plan comes to.  Each filter is a condition, of the base statement or
of the outer one, or it has a warning that skips it: the three numbers add up.  And if there
is no warning at all, the statement has all of the report (`Report.IsKept`): a condition for
each filter, in order, on its column and with its operator; the key of each group field; and
an output for each metric, in order, under its name and with its function of its column, or
one row count if the report has no metric.

What a filter, a group field and a metric ask for is written out as expressions of the
statement.  Of a pattern only the texts are said that it matches.

## What it is NOT

Nothing is said of the values of a filter that its operator has no use for: of several
values all but `oneOf` take the first.

## Shape of the proof

For filters, a case for each fate, and an induction on the list.  For outputs there is no
induction any more: without a warning no output is refused (`Grows.refused`), and no field
or metric had anything to say (`Grows.noted`).
-/
import EventReport.Proofs.Plan.Aggregation
import EventReport.Proofs.Plan.Fate
import EventReport.Proofs.Plan.Provision
import EventReport.Proofs.Plan.Subject
import EventReport.Proofs.Text.Pattern
import Mathlib.Data.List.Forall2

namespace EventReport

open Text Sql

/-! ## What a filter asks for -/

/-- What a pattern is matched with: a number is, as text. -/
def Sql.Expr.asText (e : Expr) (numeric : Bool) : Expr :=
  if numeric then .cast e "STRING" else e

/-- The comparison of a target with values that an operator means. A pattern may be any that matches
the texts that the operator asks for. -/
inductive Operator.Compares (target : Expr) (numeric : Bool) :
    Operator → List String → Expr → Prop
  | equals (v : String) (vs : List String) : Compares target numeric .equals (v :: vs)
      (.eq target (.value (.ofValue numeric v)))
  | notEquals (v : String) (vs : List String) : Compares target numeric .notEquals (v :: vs)
      (.ne target (.value (.ofValue numeric v)))
  | contains (v : String) (vs : List String) {p : String}
      (hp : ∀ x, Pattern.Matches p.toList x ↔ v.toList <:+: x) :
      Compares target numeric .contains (v :: vs)
        (.like (target.asText numeric) (.value (.text p)) false)
  | notContains (v : String) (vs : List String) {p : String}
      (hp : ∀ x, Pattern.Matches p.toList x ↔ v.toList <:+: x) :
      Compares target numeric .notContains (v :: vs)
        (.like (target.asText numeric) (.value (.text p)) true)
  | startsWith (v : String) (vs : List String) {p : String}
      (hp : ∀ x, Pattern.Matches p.toList x ↔ v.toList <+: x) :
      Compares target numeric .startsWith (v :: vs)
        (.like (target.asText numeric) (.value (.text p)) false)
  | endsWith (v : String) (vs : List String) {p : String}
      (hp : ∀ x, Pattern.Matches p.toList x ↔ v.toList <:+ x) :
      Compares target numeric .endsWith (v :: vs)
        (.like (target.asText numeric) (.value (.text p)) false)
  | oneOf (v : String) (vs : List String) : Compares target numeric .oneOf (v :: vs)
      (.among target ((v :: vs).map fun u => .value (.ofValue numeric u)))
  | isNull (vs : List String) : Compares target numeric .isNull vs (.isNull target)
  | isNotNull (vs : List String) : Compares target numeric .isNotNull vs (.isNotNull target)

/-- The column of the attribute table in which the values of an attribute stand. -/
def Attribute.stored (a : Attribute) : Expr :=
  match a.type with
  | .string => .of "d" "string_value"
  | .number => .of "d" "number_value"

namespace Filter

/-- The values that a filter gives: the list, or the single one where there is no list. -/
def given (f : Filter) : List String :=
  match f.values, f.value with
  | [], none => []
  | [], some v => [v]
  | v :: vs, _ => v :: vs

/-- The condition that a filter on a column asks for. -/
inductive OnColumn (f : Filter) (numeric : Bool) : Condition → Prop
  | compares {e : Expr} (h : f.operator.Compares (.column (.bare f.column)) numeric f.given e) :
      OnColumn f numeric (.always e)
  | interactive (h : f.operator = .interactive) :
      OnColumn f numeric (.optional (.placeholder f.column))

/-- Whether the table of attributes has a row for the event, or has none. -/
def rowCondition (settings : Settings) (a : Attribute) (absent : Bool) (also : List Expr) :
    Condition :=
  .always (.hasRow absent settings.eventDataTable "d"
    (.eq (.of "d" "website_event_id") (.of "base" "event_id") ::
      .eq (.of "d" "data_key") (.text a.key) :: also))

/-- The condition that a filter on an attribute asks for. What is asked not to hold must hold of no
row. -/
inductive OnAttribute (settings : Settings) (f : Filter) (a : Attribute) : Condition → Prop
  | holds {e : Expr}
      (hop : f.operator ∈ [.equals, .contains, .startsWith, .endsWith, .oneOf])
      (h : f.operator.Compares a.stored (a.type == .number) f.given e) :
      OnAttribute settings f a (rowCondition settings a false [e])
  | notEquals {e : Expr} (hop : f.operator = .notEquals)
      (h : Operator.equals.Compares a.stored (a.type == .number) f.given e) :
      OnAttribute settings f a (rowCondition settings a true [e])
  | notContains {e : Expr} (hop : f.operator = .notContains)
      (h : Operator.contains.Compares a.stored (a.type == .number) f.given e) :
      OnAttribute settings f a (rowCondition settings a true [e])
  | isNull (hop : f.operator = .isNull) : OnAttribute settings f a (rowCondition settings a true [])
  | isNotNull (hop : f.operator = .isNotNull) :
      OnAttribute settings f a (rowCondition settings a false [])

/-- The condition that a filter asks for, of the base statement (on the left) if its column is one
of the registry, and else of the outer one. -/
inductive Asks (w : Warehouse) (attributes : List Attribute) (f : Filter) :
    Condition ⊕ Condition → Prop
  | base {c : Column} {condition : Condition} (hc : w.registry.find? f.column = some c)
      (h : f.OnColumn c.type.isNumeric condition) : Asks w attributes f (.inl condition)
  | outer {a : Attribute} {condition : Condition} (hc : w.registry.find? f.column = none)
      (ha : a ∈ attributes) (hid : a.columnId = f.column)
      (h : f.OnAttribute w.settings a condition) : Asks w attributes f (.inr condition)

end Filter

/-! ## What a group field and a metric ask for -/

/-- The key of a group field: the date bucket, a column of the base statement, or one of the
pivot. -/
def Registry.groupKey (r : Registry) (field : String) : Expr :=
  if r.isTimestamp field then .column (.bare "dato")
  else if r.contains field then .of "base" field
  else .of "event_data" field

namespace Registry

variable {r : Registry} {field : String}

theorem groupKey_time (htime : r.isTimestamp field = true) :
    r.groupKey field = .column (.bare Projection.dateAlias) := by
  rw [groupKey, if_pos htime]
  rfl

theorem groupKey_column (htime : ¬r.isTimestamp field = true) {c : Column}
    (hfind : r.find? field = some c) : r.groupKey field = .of baseName field := by
  have hin : r.contains field = true := by rw [contains, hfind, Option.isSome_some]
  rw [groupKey, if_neg htime, if_pos hin]
  rfl

theorem groupKey_attribute (htime : ¬r.isTimestamp field = true) (hfind : r.find? field = none) :
    r.groupKey field = .of Pivot.relation field := by
  have hout : ¬r.contains field = true := by simp [contains, hfind]
  rw [groupKey, if_neg htime, if_neg hout]
  rfl

end Registry

/-- The aggregation that a function other than the row count means. -/
inductive MetricFunction.Aggregates : MetricFunction → Aggregation → Prop
  | countDistinct : Aggregates .countDistinct .countDistinct
  | sum : Aggregates .sum .sum
  | average : Aggregates .average .average
  | median : Aggregates .median .median
  | min : Aggregates .min .min
  | max : Aggregates .max .max

namespace Metric

/-- The name of a metric, without blanks around it; one without a name is named by its place. -/
def ownName (m : Metric) (place : Nat) : String :=
  ((m.name.map trim).filter (· ≠ "")).getD ("metric_" ++ toString (place + 1))

/-- The output that a metric at a place asks for. -/
inductive Asks (w : Warehouse) (attributes : List Attribute) (m : Metric) (place : Nat) :
    Item → Prop
  /-- A row count has no use for a column. -/
  | count (h : m.function = .count) :
      Asks w attributes m place (.expr .countRows (some (m.ownName place)))
  | column {f : Aggregation} {column : String} (hf : m.function.Aggregates f)
      (hcolumn : m.column = some column) (hin : w.registry.contains column = true) :
      Asks w attributes m place
        (.expr (.aggregate f (some (.of "base" column))) (some (m.ownName place)))
  | attribute {f : Aggregation} {a : Attribute} (hf : m.function.Aggregates f)
      (hcolumn : m.column = some a.columnId) (hout : w.registry.contains a.columnId = false)
      (ha : a ∈ attributes) : Asks w attributes m place
        (.expr (.aggregate f (some (.of "event_data" a.columnId))) (some (m.ownName place)))

end Metric

/-- The outputs that the metrics of a report ask for. -/
inductive Report.Measures (w : Warehouse) (r : Report) : List Item → Prop
  /-- Without a metric, the rows are counted. -/
  | rows (h : r.outline.metrics = []) : Measures w r [.expr .countRows (some "metric_1")]
  /-- One output for each metric, in order. -/
  | metrics {shown : List Item} (h : r.outline.metrics ≠ [])
      (hshown : List.Forall₂ (fun (m : Metric × Nat) i => m.1.Asks w r.attributes m.2 i)
        r.outline.metrics.zipIdx shown) : Measures w r shown

/-- The conditions of the named statements. -/
def Sql.Query.namedConditions (q : Query) : List Condition := q.ctes.flatMap (·.query.conditions)

/-- A statement has all that the report asks for. Its named statements have conditions of their own
besides the one on the website. -/
structure Report.IsKept (w : Warehouse) (r : Report) (own : List Condition) (q : Query) :
    Prop where
  /-- One condition for each filter, in order. -/
  filters : ∃ conditions : List (Condition ⊕ Condition),
    List.Forall₂ (Filter.Asks w r.attributes) r.filters conditions ∧
      own = conditions.filterMap Sum.getLeft? ∧ q.conditions = conditions.filterMap Sum.getRight?
  groupBy : ∀ field ∈ r.outline.groupBy, w.registry.groupKey field ∈ q.groupBy
  /-- The outputs of the metrics stand between group fields and attributes. -/
  metrics : ∃ before shown after, q.select = before ++ shown ++ after ∧
    (∀ i ∈ before, ∃ field ∈ r.outline.groupBy, i.IsGroupedBy (w.registry.groupKey field)) ∧
    r.Measures w shown ∧
    ∀ i ∈ after, ∃ a ∈ r.attributes, i.outputName? = some a.columnId

/-! ## Filters and their warnings -/

/-- Whether the warning skips a filter. -/
def Warning.skipsFilter : Warning → Bool
  | missingValue .. | interactiveAttribute .. | unknownColumn _ .filter => true
  | _ => false

namespace Fate

/-- A note goes with a condition; any other warning skips the filter. -/
def IsSettled : Fate → Prop
  | base _ note | outer _ note => ∀ w ∈ note, w.skipsFilter = false
  | skipped w => w.skipsFilter = true

/-- Each fate is a condition, or it has a warning that skips. -/
theorem IsSettled.one {fate : Fate} (h : fate.IsSettled) :
    fate.base?.toList.length + fate.outer?.toList.length +
      fate.warning?.toList.countP Warning.skipsFilter = 1 := by
  have hnote {note : Option Warning} (hnote : ∀ w ∈ note, w.skipsFilter = false) :
      note.toList.countP Warning.skipsFilter = 0 := by
    rw [List.countP_eq_zero]
    intro w hw
    simpa using hnote w (Option.mem_toList.1 hw)
  cases fate with
  | base c note => simp [base?, outer?, warning?, hnote h]
  | outer c note => simp [base?, outer?, warning?, hnote h]
  | skipped w =>
    have hw : w.skipsFilter = true := h
    simp [base?, outer?, warning?, hw]

theorem length_of_isSettled {fates : List Fate} (h : ∀ fate ∈ fates, fate.IsSettled) :
    (fates.filterMap base?).length + (fates.filterMap outer?).length +
      (fates.filterMap warning?).countP Warning.skipsFilter = fates.length := by
  have hcons {α : Type} (f : Fate → Option α) (fate : Fate) (fates : List Fate) :
      (fate :: fates).filterMap f = (f fate).toList ++ fates.filterMap f := by
    cases hf : f fate <;> simp [hf]
  induction fates with
  | nil => rfl
  | cons fate fates ih =>
    have hrest := ih fun fate' hmem => h fate' (List.mem_cons_of_mem _ hmem)
    have hfirst := (h fate List.mem_cons_self).one
    simp only [hcons, List.length_append, List.countP_append, List.length_cons]
    omega

end Fate

namespace Filter

variable {settings : Settings} {scope : Scope}

theorem skipsFilter_of_missingValue? {f : Filter} {w : Warning} (h : f.missingValue? = some w) :
    w.skipsFilter = true := by
  unfold missingValue? at h
  split at h
  · rw [← Option.some.inj h]
    rfl
  · cases h

theorem skipsFilter_of_note? {f : Filter} {w : Warning} (h : f.note? = some w) :
    w.skipsFilter = false := by
  unfold note? at h
  split at h
  · rw [← Option.some.inj h]
    rfl
  · cases h

theorem isSettled_fate (settings : Settings) (scope : Scope) (f : Filter) :
    (f.fate settings scope).IsSettled := by
  have hnote : ∀ w ∈ f.note?, w.skipsFilter = false := by
    intro w hw
    exact skipsFilter_of_note? hw
  have hfate := f.hasFate_fate settings scope
  generalize f.fate settings scope = fate at hfate ⊢
  cases hfate with
  | unknown => rfl
  | interactive => rfl
  | missing hmissing => exact skipsFilter_of_missingValue? hmissing
  | base => exact hnote
  | outer => exact hnote

end Filter

/-! ## The number of conditions -/

theorem Warning.skipsFilter_of_subject {w : Warning} (h : w.subject ≠ .filter) :
    w.skipsFilter = false := by
  cases w with
  | unknownColumn _ place =>
    cases place with
    | filter => exact absurd rfl h
    | groupBy | metric => rfl
  | missingValue | interactiveAttribute => exact absurd rfl h
  | _ => rfl

/-- The conditions of a plan and the warnings that skip filters are as many as the filters. -/
theorem length_conditions (w : Warehouse) (site : Website) (r : Report) :
    (w.plan site r).baseConditions.length + (w.plan site r).outerConditions.length +
      (w.plan site r).warnings.countP Warning.skipsFilter = r.filters.length := by
  let scope := Scope.of w.registry r.attributes
  let fates := r.filters.map (Filter.fate w.settings scope)
  have hfates : ∀ fate ∈ fates, fate.IsSettled := by
    intro fate hfate
    obtain ⟨f, -, rfl⟩ := List.mem_map.1 hfate
    exact f.isSettled_fate _ _
  have hduplicates : (Scope.duplicates r.attributes).countP Warning.skipsFilter = 0 := by
    rw [List.countP_eq_zero]
    intro w hw
    simp [Warning.skipsFilter_of_subject, Scope.subject_duplicates hw]
  have hprojection : (Projection.of w.settings scope r.outline).warnings.countP
      Warning.skipsFilter = 0 := by
    rw [List.countP_eq_zero]
    intro w hw
    simp [Warning.skipsFilter_of_subject, Projection.subject_warnings hw]
  have hcount := Fate.length_of_isSettled hfates
  rw [List.length_map] at hcount
  show (fates.filterMap Fate.base?).length + (fates.filterMap Fate.outer?).length +
    (Scope.duplicates r.attributes ++ fates.filterMap Fate.warning? ++
      (Projection.of w.settings scope r.outline).warnings).countP Warning.skipsFilter = _
  rw [List.countP_append, List.countP_append, hduplicates, hprojection]
  omega

/-! ## Filters without a warning -/

/-- A known operator with the values it needs compares as it says. -/
theorem Operator.compares_compare {op : Operator} {comparator : Comparator}
    (hop : op.comparator? = some comparator) (hknown : ∀ spelling, op ≠ .unknown spelling)
    (target : Expr) (numeric : Bool) {values : List String}
    (hvalues : op.requiresValue = true → values ≠ []) :
    op.Compares target numeric values (comparator.compare target numeric values) := by
  cases op with
  | interactive => cases hop
  | unknown spelling => exact absurd rfl (hknown spelling)
  | isNull | isNotNull =>
    cases hop
    constructor
  | equals | notEquals | oneOf =>
    obtain ⟨v, vs, rfl⟩ := List.exists_cons_of_ne_nil (hvalues rfl)
    cases hop
    constructor
  | contains | notContains =>
    obtain ⟨v, vs, rfl⟩ := List.exists_cons_of_ne_nil (hvalues rfl)
    cases hop
    constructor
    exact fun _ => Pattern.matches_containing
  | startsWith =>
    obtain ⟨v, vs, rfl⟩ := List.exists_cons_of_ne_nil (hvalues rfl)
    cases hop
    exact .startsWith v vs fun _ => Pattern.matches_startingWith
  | endsWith =>
    obtain ⟨v, vs, rfl⟩ := List.exists_cons_of_ne_nil (hvalues rfl)
    cases hop
    exact .endsWith v vs fun _ => Pattern.matches_endingWith

theorem Attribute.column_valueColumn (a : Attribute) :
    AttributeRow.column a.type.valueColumn = a.stored := by
  unfold stored
  cases a.type with
  | string => rfl
  | number => rfl

namespace Filter

variable {w : Warehouse} {attributes : List Attribute} {f : Filter}

theorem comparands_eq_given (f : Filter) : f.comparands = f.given := by
  unfold comparands given
  rcases f.values with _ | ⟨v, vs⟩
  · cases f.value <;> rfl
  · rfl

theorem given_ne_nil (hmissing : f.missingValue? = none)
    (hop : f.operator.requiresValue = true) : f.given ≠ [] := by
  rw [← comparands_eq_given]
  exact comparands_ne_nil hmissing hop

theorem ne_unknown_of_note? (h : f.note? = none) (spelling : String) :
    f.operator ≠ .unknown spelling := by
  intro hop
  simp [note?, hop] at h

theorem onColumn_columnCondition {c : Column} (hname : c.name = f.column)
    (hmissing : f.missingValue? = none) (hnote : f.note? = none) :
    f.OnColumn c.type.isNumeric (f.columnCondition c) := by
  unfold columnCondition
  rw [hname, comparands_eq_given]
  cases hop : f.operator.comparator? with
  | none =>
    exact .interactive (Operator.comparator?_eq_none_iff.1 hop)
  | some comparator =>
    exact .compares (Operator.compares_compare hop (ne_unknown_of_note? hnote) _ _
      (given_ne_nil hmissing))

theorem onAttribute_attributeCondition (settings : Settings) (a : Attribute)
    {comparator : Comparator} (hop : f.operator.comparator? = some comparator)
    (hmissing : f.missingValue? = none) (hnote : f.note? = none) :
    f.OnAttribute settings a (f.attributeCondition settings a comparator) := by
  have hvalues := given_ne_nil hmissing
  have hknown := ne_unknown_of_note? hnote
  have hcompares {op : Operator} {c : Comparator} (h : op.comparator? = some c)
      (hne : ∀ spelling, op ≠ .unknown spelling) (hrequires : f.operator.requiresValue = true) :=
    Operator.compares_compare h hne a.stored (a.type == .number) fun _ => hvalues hrequires
  unfold attributeCondition
  rw [a.column_valueColumn, comparands_eq_given]
  cases h : f.operator with
  | interactive =>
    rw [h] at hop
    cases hop
  | unknown spelling => exact absurd h (hknown spelling)
  | isNull =>
    rw [h] at hop
    cases hop
    exact .isNull h
  | isNotNull =>
    rw [h] at hop
    cases hop
    exact .isNotNull h
  | notEquals =>
    rw [h] at hop hcompares
    cases hop
    exact .notEquals h (hcompares rfl (by simp) rfl)
  | notContains =>
    rw [h] at hop hcompares
    cases hop
    exact .notContains h (hcompares rfl (by simp) rfl)
  | equals | contains | startsWith | endsWith | oneOf =>
    have hcompared := hcompares hop hknown (by rw [h]; rfl)
    have hlisted : f.operator ∈ [.equals, .contains, .startsWith, .endsWith, .oneOf] := by
      simp [h]
    rw [h] at hop
    cases hop
    exact .holds hlisted hcompared

/-- A filter without a warning is the condition that it asks for. -/
theorem exists_asks (h : (f.fate w.settings (.of w.registry attributes)).warning? = none) :
    ∃ condition, f.Asks w attributes condition ∧
      (f.fate w.settings (.of w.registry attributes)).base? = condition.getLeft? ∧
      (f.fate w.settings (.of w.registry attributes)).outer? = condition.getRight? := by
  have hfate := f.hasFate_fate w.settings (.of w.registry attributes)
  generalize f.fate w.settings (.of w.registry attributes) = fate at h hfate ⊢
  cases hfate with
  | unknown | interactive | missing => cases h
  | base hres hmissing =>
    have hname := Scope.name_of_resolve_column hres
    have hfind := Scope.resolve_eq_column.1 hres
    exact ⟨.inl _, .base hfind (onColumn_columnCondition hname hmissing h), rfl, rfl⟩
  | outer hres hop hmissing =>
    obtain ⟨hfind, hid⟩ := Scope.find?_of_resolve_attribute hres
    have ha := Scope.mem_of_mem_attributes (Scope.mem_of_resolve_attribute hres)
    exact ⟨.inr _, .outer hfind ha hid
      (onAttribute_attributeCondition w.settings _ hop hmissing h), rfl, rfl⟩

/-- Filters without a warning are the conditions that they ask for, in order. -/
theorem exists_conditions {filters : List Filter} (h : ∀ f ∈ filters,
    (f.fate w.settings (.of w.registry attributes)).warning? = none) :
    ∃ conditions : List (Condition ⊕ Condition),
      List.Forall₂ (Asks w attributes) filters conditions ∧
      (filters.map (fate w.settings (.of w.registry attributes))).filterMap Fate.base? =
        conditions.filterMap Sum.getLeft? ∧
      (filters.map (fate w.settings (.of w.registry attributes))).filterMap Fate.outer? =
        conditions.filterMap Sum.getRight? := by
  induction filters with
  | nil => exact ⟨[], .nil, rfl, rfl⟩
  | cons f filters ih =>
    obtain ⟨condition, hasks, hbase, houter⟩ := exists_asks (h f List.mem_cons_self)
    obtain ⟨conditions, hrest, hbases, houters⟩ :=
      ih fun g hg => h g (List.mem_cons_of_mem f hg)
    refine ⟨condition :: conditions, .cons hasks hrest, ?_, ?_⟩
    · rw [List.map_cons, List.filterMap_cons, List.filterMap_cons, hbase, hbases]
    · rw [List.map_cons, List.filterMap_cons, List.filterMap_cons, houter, houters]

end Filter

/-! ## Outputs without a warning -/

theorem MetricFunction.aggregates_of_aggregation? {f : MetricFunction} {g : Aggregation}
    (h : f.aggregation? = some g) : f.Aggregates g := by
  cases f with
  | count | unknown => cases h
  | countDistinct | sum | average | median | min | max =>
    cases h
    constructor

namespace Metric

/-- A metric of whose name nothing is said has the name that it asks for. -/
theorem outputName_eq_ownName (m : Metric) (place : Nat) (h : (m.outputName place).2 = []) :
    (m.outputName place).1 = m.ownName place := by
  unfold outputName positionalName at h ⊢
  unfold ownName
  split
  · next hnone => simp [hnone]
  · next name hname =>
    rw [hname] at h ⊢
    dsimp only at h ⊢
    split
    · next hblank => simp [Option.filter, hblank]
    · next hne =>
      rw [if_neg hne] at h
      split
      · simp [Option.filter, hne]
      · next hplain =>
        rw [if_neg hplain] at h
        cases h

/-- A metric of which nothing is said is shown as it asks to be. -/
theorem asks_of_silent {w : Warehouse} {attributes : List Attribute} (m : Metric) (place : Nat)
    (hname : (m.outputName place).2 = [])
    (hexpr : (m.expr (.of w.registry attributes) (m.outputName place).1).2 = []) :
    m.Asks w attributes place
      (.expr (m.expr (.of w.registry attributes) (m.outputName place).1).1
        (some (m.outputName place).1)) := by
  rw [m.outputName_eq_ownName place hname] at hexpr ⊢
  have hshown := m.hasExpr_expr (.of w.registry attributes) (m.ownName place)
  generalize m.expr (.of w.registry attributes) (m.ownName place) = shown at hexpr hshown ⊢
  cases hshown with
  | unknownFunction | missingColumn | unknownColumn => cases hexpr
  | count hfunction => exact .count hfunction
  | @column f column c hf hcolumn hres =>
    have hfind : w.registry.find? column = some c := Scope.resolve_eq_column.1 hres
    have hin : w.registry.contains column = true := by simp [Registry.contains, hfind]
    rw [Scope.name_of_resolve_column hres]
    exact .column (MetricFunction.aggregates_of_aggregation? hf) hcolumn hin
  | @value f column a hf hcolumn hres =>
    obtain ⟨hfind, rfl⟩ := Scope.find?_of_resolve_attribute hres
    have ha := Scope.mem_of_mem_attributes (Scope.mem_of_resolve_attribute hres)
    have hout : w.registry.contains a.columnId = false := by
      rw [Registry.contains, show w.registry.find? a.columnId = none from hfind]
      rfl
    exact .attribute (MetricFunction.aggregates_of_aggregation? hf) hcolumn hout ha

end Metric

namespace Projection

variable {settings : Settings} {scope : Scope} {o : Outline}

/-- Without a warning, every output is shown, and nothing had to be said of any. -/
theorem select_of_silent (h : (of settings scope o).warnings = []) :
    (of settings scope o).select = (askedOutputs settings scope o).map Output.item ∧
      (of settings scope o).groupBy = (askedOutputs settings scope o).filterMap Output.key ∧
      askedNotes scope o = [] := by
  obtain ⟨ordering, kept, -, hgrows⟩ := exists_grows_of settings scope o
  have hrefused := hgrows.refused
  rw [h] at hrefused
  have hkept : kept = askedOutputs settings scope o :=
    hgrows.sublist.eq_of_length_le (by simpa using hrefused)
  have hnoted := hgrows.noted hkept
  rw [h] at hnoted
  have hsilent : askedNotes scope o = [] :=
    (List.append_eq_nil_iff.1 (List.append_eq_nil_iff.1 hnoted.symm).2).1
  refine ⟨?_, ?_, hsilent⟩
  · rw [hgrows.select, hkept]
    rfl
  · rw [hgrows.groupBy, hkept]
    rfl

theorem isGrouped_of_mem {field : String} {a : Attribute} (hfield : field ∈ o.groupBy)
    (htime : ¬scope.registry.isTimestamp field = true)
    (hres : scope.resolve field = some (.attribute a)) : isGrouped scope o a = true := by
  have hattribute : scope.attribute? field = some a := by rw [Scope.attribute?, hres]
  refine List.any_eq_true.2 ⟨field, hfield, ?_⟩
  simp [htime, hattribute]

/-- A group field of which nothing is said asks for its key, itself or by its attribute. -/
theorem groupKey_mem_of_silent {field : String} (hfield : field ∈ o.groupBy)
    (hsilent : fieldNotes scope field = []) :
    scope.registry.groupKey field ∈ (askedOutputs settings scope o).filterMap Output.key := by
  have hasked : ∀ x ∈ fieldOutputs settings scope o.granularity field,
      x ∈ askedOutputs settings scope o := by
    intro x hx
    exact List.mem_append_left _ (List.mem_append_left _ (List.mem_flatMap.2 ⟨field, hfield, hx⟩))
  unfold fieldNotes at hsilent
  unfold fieldOutputs at hasked
  refine List.mem_filterMap.2 ?_
  split at hsilent
  · next htime =>
    rw [if_pos htime] at hasked
    rw [Registry.groupKey_time htime]
    exact ⟨_, hasked _ List.mem_cons_self, rfl⟩
  · next htime =>
    rw [if_neg htime] at hasked
    split at hsilent
    · next target hres =>
      rw [hres] at hasked
      rcases target with c | a
      · have hfind := Scope.resolve_eq_column.1 hres
        rw [Registry.groupKey_column htime hfind, ← Scope.name_of_resolve_column hres]
        exact ⟨_, hasked _ List.mem_cons_self, rfl⟩
      · obtain ⟨hfind, hid⟩ := Scope.find?_of_resolve_attribute hres
        have hread : a ∈ scope.readAttributes o :=
          Scope.mem_readAttributes_iff.2 ⟨field, Outline.mem_columns_of_mem_groupBy hfield, hres⟩
        have hkey : (attributeOutput scope o a).key = some (Pivot.value a) := by
          rw [attributeOutput, if_pos (isGrouped_of_mem hfield htime hres)]
        rw [Registry.groupKey_attribute htime hfind, ← hid]
        exact ⟨_, List.mem_append_right _ (List.mem_map_of_mem hread), hkey⟩
    · cases hsilent

/-- What a group field asks for is grouped by its key. -/
theorem isGroupedBy_of_mem_fieldOutputs {granularity : Option Granularity} {field : String}
    {x : Output} (hx : x ∈ fieldOutputs settings scope granularity field) :
    x.item.IsGroupedBy (scope.registry.groupKey field) := by
  unfold fieldOutputs at hx
  split at hx
  · next htime =>
    rw [List.mem_singleton.1 hx, Registry.groupKey_time htime]
    exact .bucket _ _ _
  · next htime =>
    split at hx
    · next c hres =>
      have hfind := Scope.resolve_eq_column.1 hres
      rw [List.mem_singleton.1 hx, Registry.groupKey_column htime hfind,
        ← Scope.name_of_resolve_column hres]
      exact .column _
    · cases hx
    · cases hx

end Projection

/-! ## The account -/

/-- The metrics of which nothing is said are shown as they ask to be. -/
theorem Report.measures_of_silent {w : Warehouse} {r : Report}
    (hsilent : r.outline.shownMetrics.zipIdx.flatMap
      (Projection.metricNotes (.of w.registry r.attributes)) = []) :
    r.Measures w ((r.outline.shownMetrics.zipIdx.map
      (Projection.metricOutput (.of w.registry r.attributes))).map Projection.Output.item) := by
  by_cases hnone : r.outline.metrics = []
  · rw [Outline.shownMetrics, hnone]
    exact .rows hnone
  · rw [Outline.shownMetrics_eq_self hnone] at hsilent ⊢
    refine .metrics hnone ?_
    rw [List.map_map, List.forall₂_map_right_iff, List.forall₂_same]
    intro placed hplaced
    obtain ⟨hname, hexpr⟩ :=
      List.append_eq_nil_iff.1 (List.flatMap_eq_nil_iff.1 hsilent placed hplaced)
    exact placed.1.asks_of_silent placed.2 hname hexpr

/-- The statement of a plan without warnings has all that the report asks for. -/
theorem isKept_plan (w : Warehouse) (site : Website) (r : Report)
    (hsilent : (w.plan site r).warnings = []) :
    r.IsKept w (w.plan site r).baseConditions ((w.plan site r).query w) := by
  let scope := Scope.of w.registry r.attributes
  let o := r.outline
  have hsaid : Scope.duplicates r.attributes ++
      (r.filters.map (Filter.fate w.settings scope)).filterMap Fate.warning? ++
      (Projection.of w.settings scope o).warnings = [] := hsilent
  obtain ⟨hbefore, hprojection⟩ := List.append_eq_nil_iff.1 hsaid
  obtain ⟨-, hfates⟩ := List.append_eq_nil_iff.1 hbefore
  obtain ⟨hselect, hgroupBy, hnotes⟩ := Projection.select_of_silent hprojection
  obtain ⟨hfields, hmetrics⟩ := List.append_eq_nil_iff.1 hnotes
  constructor
  case filters =>
    refine Filter.exists_conditions fun f hf => ?_
    exact List.filterMap_eq_nil_iff.1 hfates _ (List.mem_map_of_mem hf)
  case groupBy =>
    intro field hfield
    show _ ∈ (Projection.of w.settings scope o).groupBy
    rw [hgroupBy]
    have hfieldSilent := List.flatMap_eq_nil_iff.1 hfields field hfield
    exact Projection.groupKey_mem_of_silent hfield hfieldSilent
  case metrics =>
    have hshown : ((w.plan site r).query w).select = _ := hselect
    rw [Projection.askedOutputs, List.map_append, List.map_append] at hshown
    refine ⟨_, _, _, hshown, ?_, Report.measures_of_silent hmetrics, ?_⟩
    · intro i hi
      obtain ⟨x, hx, rfl⟩ := List.mem_map.1 hi
      obtain ⟨field, hfield, hx⟩ := List.mem_flatMap.1 hx
      exact ⟨field, hfield, Projection.isGroupedBy_of_mem_fieldOutputs hx⟩
    · intro i hi
      obtain ⟨x, hx, rfl⟩ := List.mem_map.1 hi
      obtain ⟨a, ha, rfl⟩ := List.mem_map.1 hx
      exact ⟨a, Scope.mem_of_mem_attributes (Scope.mem_of_mem_readAttributes ha),
        Projection.outputName_attributeOutput a⟩

theorem namedConditions_plan (w : Warehouse) (site : Website) (r : Report) :
    ((w.plan site r).query w).namedConditions =
      .always (.eq (.column (.bare "website_id")) (.value (.text site.id))) ::
        (w.plan site r).baseConditions := by
  rw [Query.namedConditions, Plan.query, List.flatMap_cons, List.flatMap_nil, List.append_nil]
  rfl

/-- The statement of a report and the warnings account for the whole report. -/
theorem plan_accountsFor (w : Warehouse) (site : Website) (r : Report) :
    ∃ own, ((w.plan site r).query w).namedConditions =
        .always (.eq (.column (.bare "website_id")) (.value (.text site.id))) :: own ∧
      own.length + ((w.plan site r).query w).conditions.length +
        (w.plan site r).warnings.countP Warning.skipsFilter = r.filters.length ∧
      ((w.plan site r).warnings = [] → r.IsKept w own ((w.plan site r).query w)) :=
  ⟨(w.plan site r).baseConditions, namedConditions_plan w site r, length_conditions w site r,
    isKept_plan w site r⟩

/-- A report without a warning, which has filters of the base statement and of the outer one, a
group field of each kind and a metric of each kind. -/
theorem plan_accountsFor_standard :
    ∃ (r : Report) (own : List Condition), (Warehouse.plan {} { id := "w" } r).warnings = [] ∧
      r.filters.length = 4 ∧ r.outline.groupBy.length = 3 ∧ r.outline.metrics.length = 3 ∧
      ((Warehouse.plan {} { id := "w" } r).query {}).namedConditions =
        .always (.eq (.column (.bare "website_id")) (.value (.text "w"))) :: own ∧
      own.length = 2 ∧ ((Warehouse.plan {} { id := "w" } r).query {}).conditions.length = 2 ∧
      r.IsKept {} own ((Warehouse.plan {} { id := "w" } r).query {}) := by
  let r : Report :=
    { filters := [.oneOf "country" ["NO", "SE"], .isNull "param_a", .interactive "url_path",
        .startsWith "param_b" "1"]
      attributes := [⟨"a", .string⟩, ⟨"b", .number⟩]
      outline :=
        { metrics := [{ name := some " visits " }, { function := .sum, column := some "param_b" },
            { function := .countDistinct, column := some "session_id" }]
          groupBy := ["created_at", "param_a", "url_fullpath"] } }
  have hsilent : (Warehouse.plan {} { id := "w" } r).warnings = [] := by decide +kernel
  have houter : ((Warehouse.plan {} { id := "w" } r).query {}).conditions.length = 2 := by
    decide +kernel
  obtain ⟨own, hnamed, hcount, hkept⟩ := plan_accountsFor {} { id := "w" } r
  rw [houter, hsilent] at hcount
  have hown : own.length = 2 := Nat.add_right_cancel hcount
  exact ⟨r, own, hsilent, rfl, rfl, rfl, hnamed, hown, houter, hkept hsilent⟩

end EventReport
