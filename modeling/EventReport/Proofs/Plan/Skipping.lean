/-
# A skipped filter leaves nothing but its warning

A filter that comes to no condition is left out.  The plan is the one of the report without
it, with two exceptions: there is one more warning, at the place of the filter, and the
sessions may be joined because the filter names a column of them, though it does not read
it.

## What is proved

`plan_skips`, for every warehouse, website and report, and a filter at any place that comes to
no condition: it is skipped for one of three reasons, and what is said of it stands between
what is said of the filters before and after it.  The statement is that of the report without
the filter, unless the filter alone names a column of sessions (`Filter.JoinsSessions`); then,
and only then, the base statement has the join of the sessions and their columns besides
(`Plan.sessionQuery`).

## Shape of the proof

The conditions of a plan and what is said of filters are lists by filter, from which the one
filter drops out or in which it has its own place.  All else in a plan is made from the
attributes and the outline, apart from the question whether sessions are named.
-/
import EventReport.Proofs.Plan.Account

namespace EventReport

open Sql

/-! ## Why a filter is skipped -/

namespace Filter

/-- The three reasons to skip a filter, with what is said of each. -/
inductive Skips (scope : Scope) (f : Filter) : Warning → Prop
  | unknown (hres : scope.resolve f.column = none) :
      Skips scope f (.unknownColumn f.column .filter)
  | missing (hres : scope.resolve f.column ≠ none) (hop : f.operator.requiresValue = true)
      (hnone : f.comparands = []) : Skips scope f (.missingValue f.column f.operator.name)
  | interactive {a : Attribute} (hres : scope.resolve f.column = some (.attribute a))
      (hop : f.operator = .interactive) : Skips scope f (.interactiveAttribute f.column)

variable {settings : Settings} {scope : Scope} {f : Filter}

theorem skips_missing (hres : scope.resolve f.column ≠ none) {w : Warning}
    (hmissing : f.missingValue? = some w) : f.Skips scope w := by
  unfold missingValue? at hmissing
  split at hmissing
  · next h =>
    obtain ⟨hop, hnone⟩ := Bool.and_eq_true_iff.1 h
    rw [← Option.some.inj hmissing]
    exact .missing hres hop (List.isEmpty_iff.1 hnone)
  · cases hmissing

/-- A filter is skipped for these reasons and no other. -/
theorem fate_eq_skipped_iff {note : Warning} :
    f.fate settings scope = .skipped note ↔ f.Skips scope note := by
  have hunknown (hres : scope.resolve f.column = none) :
      f.fate settings scope = .skipped (.unknownColumn f.column .filter) := by
    unfold fate
    rw [hres]
  constructor
  · intro hskipped
    by_cases hres : scope.resolve f.column = none
    · rw [hunknown hres] at hskipped
      cases hskipped
      exact .unknown hres
    · have hfate := f.hasFate_fate settings scope
      rw [hskipped] at hfate
      cases hfate with
      | unknown hnone => exact absurd hnone hres
      | interactive hattribute hop =>
        exact .interactive hattribute (Operator.comparator?_eq_none_iff.1 hop)
      | missing hmissing => exact skips_missing hres hmissing
  · intro hskips
    cases hskips with
    | unknown hres => exact hunknown hres
    | missing hres hop hnone =>
      have hmissing : f.missingValue? = some (.missingValue f.column f.operator.name) := by
        rw [missingValue?, hop, hnone]
        rfl
      unfold fate
      rcases htarget : scope.resolve f.column with _ | c | a
      · exact absurd htarget hres
      · rw [hmissing]
      · -- an operator that needs a value compares
        cases hcomparator : f.operator.comparator? with
        | none =>
          rw [Operator.comparator?_eq_none_iff.1 hcomparator] at hop
          cases hop
        | some comparator => rw [hmissing]
    | interactive hres hop =>
      unfold fate
      rw [hres, hop]
      rfl

theorem exists_skips (hbase : (f.fate settings scope).base? = none)
    (houter : (f.fate settings scope).outer? = none) :
    ∃ note, f.fate settings scope = .skipped note ∧ f.Skips scope note := by
  cases hfate : f.fate settings scope with
  | base =>
    rw [hfate] at hbase
    cases hbase
  | outer =>
    rw [hfate] at houter
    cases houter
  | skipped note => exact ⟨note, rfl, fate_eq_skipped_iff.1 hfate⟩

end Filter

/-! ## The base statement with and without sessions -/

/-- The columns of the events with the columns of their sessions besides. -/
def Base.joinSessions (w : Warehouse) (q : Query) : Query :=
  { q with
    select := q.select ++ sessionItems w.registry
    joins := q.joins ++ [sessionJoin w.settings] }

theorem Base.columns_true (w : Warehouse) :
    columns w true = joinSessions w (columns w false) := by
  unfold columns joinSessions
  simp

namespace Plan

/-- The statement of a plan with the sessions joined in its base statement. -/
def sessionQuery (p : Plan) (w : Warehouse) : Query :=
  { p.query w with
    ctes := [⟨baseName, { Base.query w p.website p.withSession p.baseConditions with
      source := .nested (Base.joinSessions w (Base.columns w p.withSession)) }⟩] }

theorem query_withSession_true (p : Plan) (w : Warehouse) (h : p.withSession = false) :
    ({ p with withSession := true } : Plan).query w = p.sessionQuery w := by
  unfold sessionQuery query Base.query
  rw [h, ← Base.columns_true]

/-- The join tells the two statements apart. -/
theorem sessionQuery_ne (p : Plan) (w : Warehouse) : p.sessionQuery w ≠ p.query w := by
  intro h
  have hcolumns : Base.joinSessions w (Base.columns w p.withSession) =
      Base.columns w p.withSession := by
    simpa [sessionQuery, query, Base.query] using congrArg Query.ctes h
  have hjoins := congrArg (·.joins.length) hcolumns
  simp [Base.joinSessions] at hjoins

end Plan

/-! ## The plan -/

/-- The filter names a column of sessions, and nothing else in the report does. -/
def Filter.JoinsSessions (w : Warehouse) (f : Filter) (others : Report) : Prop :=
  w.registry.tableOf? f.column = some .session ∧ others.namesSession w = false

/-- How the plan `p` of a report with a filter in the middle stands to the plan `q` without it:
there is a warning more, and the sessions may be joined. -/
structure Filter.LeavesWarning (w : Warehouse) (r : Report) (before : List Filter) (f : Filter)
    (after : List Filter) (p q : Plan) : Prop where
  warnings : ∃ note, f.Skips (.of w.registry r.attributes) note ∧
    p.warnings = Scope.duplicates r.attributes ++
      (Plan.filterWarnings w { r with filters := before } ++ [note] ++
        Plan.filterWarnings w { r with filters := after }) ++ Plan.outputWarnings w r ∧
    q.warnings = Scope.duplicates r.attributes ++
      (Plan.filterWarnings w { r with filters := before } ++
        Plan.filterWarnings w { r with filters := after }) ++ Plan.outputWarnings w r
  /-- The plans are the same in all else. -/
  rest : p = { q with withSession := p.withSession, warnings := p.warnings }
  query_eq : ¬f.JoinsSessions w { r with filters := before ++ after } → p.query w = q.query w
  query_ne : f.JoinsSessions w { r with filters := before ++ after } →
    p.query w = q.sessionQuery w ∧ p.query w ≠ q.query w

section Skips

variable (w : Warehouse) (site : Website) (r : Report) (before after : List Filter) {f : Filter}

theorem namesSession_insert :
    { r with filters := before ++ f :: after }.namesSession w =
      ((w.registry.tableOf? f.column == some .session) ||
        { r with filters := before ++ after }.namesSession w) := by
  unfold Report.namesSession
  simp only [List.map_append, List.map_cons, List.any_append, List.any_cons]
  ac_rfl

/-- Of a skipped filter there is no condition. -/
theorem plan_insert {note : Warning}
    (hskipped : f.fate w.settings (.of w.registry r.attributes) = .skipped note) :
    w.plan site { r with filters := before ++ f :: after } =
      { w.plan site { r with filters := before ++ after } with
        withSession := (w.plan site { r with filters := before ++ f :: after }).withSession
        warnings := (w.plan site { r with filters := before ++ f :: after }).warnings } := by
  unfold Warehouse.plan
  simp only [List.map_append, List.map_cons, List.filterMap_append, List.filterMap_cons, hskipped,
    Fate.base?, Fate.outer?]

theorem filterWarnings_append :
    Plan.filterWarnings w { r with filters := before ++ after } =
      Plan.filterWarnings w { r with filters := before } ++
        Plan.filterWarnings w { r with filters := after } := by
  unfold Plan.filterWarnings
  rw [List.map_append, List.filterMap_append]

theorem filterWarnings_cons {note : Warning}
    (hskipped : f.fate w.settings (.of w.registry r.attributes) = .skipped note) :
    Plan.filterWarnings w { r with filters := f :: after } =
      note :: Plan.filterWarnings w { r with filters := after } := by
  unfold Plan.filterWarnings
  rw [List.map_cons, hskipped]
  rfl

/-- A filter that comes to no condition leaves a warning in its place, with the reason for which it
is skipped, and nothing else, but that the sessions are joined if it alone names a column of
them. -/
theorem plan_skips (hbase : (f.fate w.settings (.of w.registry r.attributes)).base? = none)
    (houter : (f.fate w.settings (.of w.registry r.attributes)).outer? = none) :
    f.LeavesWarning w r before after (w.plan site { r with filters := before ++ f :: after })
      (w.plan site { r with filters := before ++ after }) := by
  obtain ⟨note, hskipped, hreason⟩ := f.exists_skips hbase houter
  have hrest := plan_insert w site r before after hskipped
  have hsession : (w.plan site { r with filters := before ++ f :: after }).withSession =
      ((w.registry.tableOf? f.column == some .session) ||
        { r with filters := before ++ after }.namesSession w) := by
    rw [withSession_plan, namesSession_insert]
  have hother : (w.plan site { r with filters := before ++ after }).withSession =
      { r with filters := before ++ after }.namesSession w := withSession_plan w site _
  have hquery : (w.plan site { r with filters := before ++ f :: after }).query w =
      ({ w.plan site { r with filters := before ++ after } with
        withSession := (w.plan site { r with filters := before ++ f :: after }).withSession } :
          Plan).query w := by
    rw [hrest]
    rfl
  generalize hp : w.plan site { r with filters := before ++ f :: after } = p at *
  generalize hq : w.plan site { r with filters := before ++ after } = q at *
  constructor
  case warnings =>
    refine ⟨note, hreason, ?_, ?_⟩
    · rw [← hp, Plan.warnings_eq, filterWarnings_append, filterWarnings_cons w r after hskipped,
        List.append_assoc (Plan.filterWarnings w _), List.singleton_append]
      rfl
    · rw [← hq, Plan.warnings_eq, filterWarnings_append]
      rfl
  case rest => exact hrest
  case query_eq =>
    intro hshared
    have hsame : p.withSession = q.withSession := by
      rw [hsession, hother]
      by_cases htable : w.registry.tableOf? f.column = some .session
      · have hnamed : { r with filters := before ++ after }.namesSession w = true := by
          simpa using fun hnone => hshared ⟨htable, hnone⟩
        rw [hnamed, Bool.or_true]
      · rw [beq_eq_false_iff_ne.2 htable, Bool.false_or]
    rw [hquery, hsame]
  case query_ne =>
    rintro ⟨htable, hnone⟩
    have hjoined : p.withSession = true := by
      rw [hsession, htable]
      rfl
    have hsessions : p.query w = q.sessionQuery w := by
      rw [hquery, hjoined, q.query_withSession_true w (hother.trans hnone)]
    exact ⟨hsessions, hsessions ▸ q.sessionQuery_ne w⟩

end Skips

/-- A filter on a column of sessions that has no value, between a filter on an event and one on an
unknown column: the sessions are joined for nothing. -/
theorem plan_skips_country : ∃ (r : Report) (before after : List Filter) (f : Filter),
    f.comparands = [] ∧ f.JoinsSessions {} { r with filters := before ++ after } ∧
      f.LeavesWarning {} r before after
        (Warehouse.plan {} { id := "w" } { r with filters := before ++ f :: after })
        (Warehouse.plan {} { id := "w" } { r with filters := before ++ after }) := by
  let r : Report := { outline := { groupBy := ["url_path"] } }
  let f : Filter := { column := "country", operator := .equals }
  exact ⟨r, [.equals "event_name" "a"], [.equals "nowhere" "b"], f, rfl, ⟨by decide, by decide⟩,
    plan_skips {} { id := "w" } r [.equals "event_name" "a"] [.equals "nowhere" "b"]
      (f := f) (by decide) (by decide)⟩

end EventReport
