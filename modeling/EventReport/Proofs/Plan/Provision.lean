/-
# Every column that a statement reads is provided

Four things are settled apart from each other: whether sessions are joined, which
attributes the pivot holds, which columns the base statement makes, and which columns the
conditions, the select list and the group keys read.  They have to fit.

## What is proved

`isWellScoped_query`: for a valid registry and every report, a condition of the base
statement reads columns that the statement inside it provides; the outermost statement
reads columns of the base statement that are provided, columns that the pivot has, and its
own outputs; and sessions and the pivot are joined exactly if the report names one of
their columns.

## Shape of the proof

What a report reads is known from the kinds of its outputs (`IsOutput.isRead`), and there
are three cases: the time of an event, a column that the report names, an attribute that
it names.  Each of them is in scope for a reason of its own.
-/
import EventReport.Proofs.Plan.Fate
import EventReport.Proofs.Plan.Names

namespace EventReport

open Sql

/-! ## What an expression reads -/

namespace Sql

/-- The column by which an aggregate orders its values. -/
def Aggregation.reads : Aggregation → List ColumnRef
  | .firstText orderBy => [orderBy]
  | _ => []

namespace Expr

mutual

/-- The columns that an expression reads from the relations around it. A variable of the dashboard
tool stands for a condition on the column of its name. -/
def reads : Expr → List ColumnRef
  | column c => [c]
  | literal _ | value _ => []
  | placeholder name => [.bare name]
  | compare _ left right => reads left ++ reads right
  | like e pattern _ => reads e ++ reads pattern
  | among e values => reads e ++ listReads values
  | all parts => listReads parts
  | isNull e | isNotNull e => reads e
  | choose branches otherwise => branchReads branches ++ otherwiseReads otherwise
  | call _ args => listReads args
  | cast e _ => reads e
  | aggregate f arg => f.reads ++ otherwiseReads arg
  -- The conditions on a row also read the row itself, which is not around the expression.
  | hasRow _ _ relation conditions => (listReads conditions).filter (·.relation != relation)

def listReads : List Expr → List ColumnRef
  | [] => []
  | e :: es => reads e ++ listReads es

def branchReads : List (Expr × Expr) → List ColumnRef
  | [] => []
  | (condition, result) :: branches => reads condition ++ reads result ++ branchReads branches

def otherwiseReads : Option Expr → List ColumnRef
  | none => []
  | some e => reads e

end

theorem listReads_eq_flatMap (es : List Expr) : listReads es = es.flatMap reads := by
  induction es with
  | nil => rfl
  | cons e es ih => rw [listReads, ih, List.flatMap_cons]

/-- Expressions that read nothing. -/
theorem listReads_eq_nil {es : List Expr} (h : ∀ e ∈ es, e.reads = []) : listReads es = [] := by
  rw [listReads_eq_flatMap, List.flatMap_eq_nil_iff]
  exact h

end Expr

/-- The columns that an item of a select list reads, where it says which. -/
def Item.reads : Item → List ColumnRef
  | star _ => []
  | expr e _ => e.reads

end Sql

theorem MetricFunction.reads_aggregation? {f : MetricFunction} {g : Aggregation}
    (h : f.aggregation? = some g) : g.reads = [] := by
  cases f <;> simp [aggregation?] at h <;> rw [← h] <;> rfl

/-- A comparison with values reads what is compared. -/
theorem Comparator.reads_compare (target : Expr) (numeric : Bool) (values : List String)
    (c : Comparator) : (c.compare target numeric values).reads = target.reads := by
  have hlike (pattern : String) (negated : Bool) :
      (like target numeric pattern negated).reads = target.reads := by
    cases numeric <;> simp [like, Expr.reads]
  have hoperands : Expr.listReads (values.map (operand numeric)) = [] :=
    Expr.listReads_eq_nil fun e he => by
      obtain ⟨v, -, rfl⟩ := List.mem_map.1 he
      rfl
  cases c with
  | equals | notEquals => simp [compare, Expr.eq, Expr.ne, operand, Expr.reads]
  | contains | notContains | startsWith | endsWith => exact hlike _ _
  | oneOf => rw [compare, Expr.reads, hoperands, List.append_nil]
  | isNull | isNotNull => rfl

/-! ## What a report names -/

namespace Report

/-- Whether a filter, a group key or a metric names a column of sessions. -/
def namesSession (w : Warehouse) (r : Report) : Bool :=
  (r.filters.map Filter.column ++ r.outline.groupBy ++
    r.outline.metrics.filterMap Metric.column).any fun name =>
      w.registry.tableOf? name == some .session

/-- Whether a group key or a metric names an attribute. -/
def readsAttribute (w : Warehouse) (r : Report) : Bool :=
  (r.outline.groupBy ++ r.outline.metrics.filterMap Metric.column).any (r.namesAttribute w)

theorem namesSession_of {w : Warehouse} {r : Report} {name : String} {c : Column}
    (hname : name ∈ r.columns) (hc : w.registry.find? name = some c) (htable : c.table = .session) :
    r.namesSession w = true := by
  refine List.any_eq_true.2 ⟨name, ?_, ?_⟩
  · rw [List.append_assoc]
    exact hname
  · rw [Registry.tableOf?, hc, Option.map_some, htable]
    rfl

end Report

namespace Outline

theorem mem_columns_of_mem_groupBy {o : Outline} {field : String} (h : field ∈ o.groupBy) :
    field ∈ o.columns := List.mem_append_left _ h

/-- The row count that stands for no metrics names no column. -/
theorem mem_columns_of_mem_shownMetrics {o : Outline} {m : Metric} {column : String}
    (h : m ∈ o.shownMetrics) (hcolumn : m.column = some column) : column ∈ o.columns := by
  unfold shownMetrics at h
  split at h
  · obtain rfl := List.mem_singleton.1 h
    cases hcolumn
  · exact List.mem_append_right _ (List.mem_filterMap.2 ⟨m, h, hcolumn⟩)

end Outline

/-! ## What the outputs read -/

namespace Projection

variable (scope : Scope) (o : Outline)

/-- The columns that the outputs of a report read from other statements. -/
inductive IsRead : ColumnRef → Prop where
  | timestamp : IsRead ⟨baseName, scope.registry.timestampField⟩
  /-- A column that the report names. -/
  | column {name : String} {c : Column} (hname : name ∈ o.columns)
      (hres : scope.resolve name = some (.column c)) : IsRead ⟨baseName, c.name⟩
  | value {a : Attribute} (ha : a ∈ scope.readAttributes o) :
      IsRead ⟨Pivot.relation, a.columnId⟩

variable {scope o}

theorem isRead_dateBucket {settings : Settings} {granularity : Option Granularity} {ref : ColumnRef}
    (h : ref ∈ (dateBucket settings granularity scope.registry.timestampField).reads) :
    IsRead scope o ref := by
  have hreads : (dateBucket settings granularity scope.registry.timestampField).reads =
      [⟨baseName, scope.registry.timestampField⟩] := by
    unfold dateBucket
    cases settings.timezone <;> rfl
  rw [hreads, List.mem_singleton] at h
  rw [h]
  exact .timestamp

/-- Whatever function of a metric: its column is read, or the row count reads nothing. -/
theorem isRead_metric {m : Metric} (hm : m ∈ o.shownMetrics) {name : String} {ref : ColumnRef}
    (h : ref ∈ (m.expr scope name).1.reads) : IsRead scope o ref := by
  have hexpr := m.hasExpr_expr scope name
  generalize m.expr scope name = shown at h hexpr
  have hreads {f : Aggregation} (hf : m.function.aggregation? = some f) (e : Expr) :
      (Expr.aggregate f (some e)).reads = e.reads := by
    rw [Expr.reads, MetricFunction.reads_aggregation? hf]
    rfl
  cases hexpr with
  | count | unknownFunction | missingColumn | unknownColumn => cases h
  | column hf hcolumn hres =>
    rw [hreads hf] at h
    obtain rfl := List.mem_singleton.1 h
    exact .column (Outline.mem_columns_of_mem_shownMetrics hm hcolumn) hres
  | value hf hcolumn hres =>
    rw [hreads hf] at h
    obtain rfl := List.mem_singleton.1 h
    exact .value (Scope.mem_readAttributes_iff.2
      ⟨_, Outline.mem_columns_of_mem_shownMetrics hm hcolumn, hres⟩)

theorem IsOutput.isRead {settings : Settings} {i : Item} {key : Option Expr}
    (h : IsOutput settings scope o i key) {ref : ColumnRef} (href : ref ∈ i.reads) :
    IsRead scope o ref := by
  cases h with
  | date => exact isRead_dateBucket href
  | column hfield hres =>
    obtain rfl := List.mem_singleton.1 href
    exact .column (Outline.mem_columns_of_mem_groupBy hfield) hres
  | metric place hm => exact isRead_metric hm href
  | key ha =>
    obtain rfl := List.mem_singleton.1 href
    exact .value ha
  | @folded a ha =>
    -- The first text is the first in time; the greatest number has no order.
    rw [Item.reads] at href
    cases htype : a.type with
    | string =>
      rw [htype] at href
      rcases List.mem_cons.1 href with rfl | href
      · exact .timestamp
      · obtain rfl := List.mem_singleton.1 href
        exact .value ha
    | number =>
      rw [htype] at href
      obtain rfl := List.mem_singleton.1 href
      exact .value ha

/-- A group key reads an output, or what the outputs may read. -/
theorem IsOutput.isRead_key {settings : Settings} {i : Item} {e : Expr}
    (h : IsOutput settings scope o i (some e)) {ref : ColumnRef} (href : ref ∈ e.reads) :
    (∃ name, i.outputName? = some name ∧ ref = .bare name) ∨ IsRead scope o ref := by
  cases h with
  | date =>
    obtain rfl := List.mem_singleton.1 href
    exact Or.inl ⟨dateAlias, rfl, rfl⟩
  | column hfield hres =>
    obtain rfl := List.mem_singleton.1 href
    exact Or.inr (.column (Outline.mem_columns_of_mem_groupBy hfield) hres)
  | key ha =>
    obtain rfl := List.mem_singleton.1 href
    exact Or.inr (.value ha)

end Projection

/-! ## What is provided -/

/-- How the statement `q` provides a column of the registry. -/
inductive Provides (w : Warehouse) (q : Query) (c : Column) : Prop where
  /-- Among all columns of the events. -/
  | event (htable : c.table = .event)
      (hsource : q.source = .table w.settings.eventTable Base.eventAlias)
      (hitem : .star Base.eventAlias ∈ q.select)
  /-- As an expression under the name of the column. -/
  | computed {k : Computed} (hk : c.computed? = some k)
      (hitem : .expr (Base.computedExpr k) (some c.name) ∈ q.select)
  /-- From the sessions, which are joined. -/
  | session (htable : c.table = .session) (hjoin : Base.sessionJoin w.settings ∈ q.joins)
      (hitem : .expr (.of Base.sessionAlias c.name) none ∈ q.select)

/-- Columns of events and computed ones are always provided, columns of sessions if they are asked
for. -/
theorem provides_columns {w : Warehouse} (hw : w.registry.IsValid) {c : Column}
    (hc : c ∈ w.registry.columns) {withSession : Bool}
    (hsession : c.table = .session → withSession = true) :
    Provides w (Base.columns w withSession) c := by
  have hin {table : Table} (htable : c.table = table) : c ∈ w.registry.columnsIn table :=
    List.mem_filter.2 ⟨hc, by simpa using htable⟩
  cases htable : c.table with
  | event => exact .event htable rfl (List.mem_append_left _ List.mem_cons_self)
  | computed =>
    obtain ⟨k, hk⟩ := Registry.exists_computed? hw hc htable
    refine .computed hk (List.mem_append_left _ (List.mem_cons_of_mem _ ?_))
    exact List.mem_filterMap.2 ⟨c, hin htable, by rw [hk]; rfl⟩
  | session =>
    obtain rfl := hsession htable
    refine .session htable List.mem_cons_self (List.mem_append_right _ ?_)
    exact List.mem_map.2 ⟨c, hin htable, rfl⟩

theorem Pivot.outputNames_query (settings : Settings) (site : Website)
    (attributes : List Attribute) : (Pivot.query settings site attributes).outputNames =
      AttributeRow.eventColumn :: attributes.map Attribute.columnId := by
  have hcolumn : Item.outputName? ∘ Pivot.column = some ∘ Attribute.columnId := rfl
  show AttributeRow.eventColumn :: (attributes.map Pivot.column).filterMap Item.outputName? = _
  rw [List.filterMap_map, hcolumn, List.filterMap_eq_map]

/-- The columns that the outermost statement `q` can name, where `inner` makes the columns of the
base statement. -/
inductive InScope (w : Warehouse) (inner q : Query) : ColumnRef → Prop where
  | base {c : Column} (hc : c ∈ w.registry.columns) (h : Provides w inner c) :
      InScope w inner q ⟨baseName, c.name⟩
  /-- A column of the joined pivot. -/
  | pivot {j : Join Query} {pivot : Query} {name : String} (hj : j ∈ q.joins)
      (hsource : j.source = .derived pivot Pivot.relation) (hname : name ∈ pivot.outputNames) :
      InScope w inner q ⟨Pivot.relation, name⟩
  /-- An output of the statement itself. -/
  | output {name : String} (hname : name ∈ q.outputNames) : InScope w inner q (.bare name)

/-- The column of the base statement by which attributes are found. -/
def baseEvent : ColumnRef := ⟨baseName, "event_id"⟩

/-- The outermost statement `q` of a report, and the statements in it, name no column that is not
there; and they join nothing without need. -/
structure IsWellScoped (w : Warehouse) (site : Website) (r : Report) (inner q : Query) : Prop where
  /-- The base statement passes on all columns of the one inside it. Its conditions are the one on
  the website, and conditions on columns that are provided. -/
  base : ∃ conditions : List Condition,
    q.ctes = [⟨baseName, { select := [.star ""], source := .nested inner,
                           conditions := Base.scopeCondition site :: conditions }⟩] ∧
      ∀ c ∈ conditions, ∀ ref ∈ c.expr.reads,
        ∃ d ∈ w.registry.columns, Provides w inner d ∧ ref = .bare d.name
  source : q.source = .named baseName
  select : ∀ i ∈ q.select, ∀ ref ∈ i.reads, InScope w inner q ref
  groupBy : ∀ e ∈ q.groupBy, ∀ ref ∈ e.reads, InScope w inner q ref
  conditions : ∀ c ∈ q.conditions, ∀ ref ∈ c.expr.reads, ref = baseEvent
  on : ∀ j ∈ q.joins, ∀ ref ∈ j.on.reads, ref = baseEvent ∨ InScope w inner q ref
  orderBy : ∀ k ∈ q.orderBy,
    k.target = .position 1 ∨ ∃ name ∈ q.outputNames, k.target = .output name
  /-- Sessions are joined exactly if the report names one of their columns. -/
  session : inner.joins = if r.namesSession w then [Base.sessionJoin w.settings] else []
  /-- The pivot is joined exactly if a group key or a metric names an attribute. -/
  pivot : q.joins =
    if r.readsAttribute w then [Pivot.join w.settings site
      ((Scope.of w.registry r.attributes).readAttributes r.outline)] else []

/-! ## The conditions -/

theorem Filter.reads_columnCondition (f : Filter) (c : Column) :
    (f.columnCondition c).expr.reads = [.bare c.name] := by
  unfold columnCondition
  split
  · rfl
  · exact Comparator.reads_compare ..

/-- What a condition on an attribute reads besides the row is the event. -/
theorem Filter.reads_attributeCondition (f : Filter) (settings : Settings) (a : Attribute)
    (comparator : Comparator) :
    (f.attributeCondition settings a comparator).expr.reads = [baseEvent] := by
  have hcomparison (c : Option Comparator) : (Expr.listReads ((c.map fun c => c.compare
      (AttributeRow.column a.type.valueColumn) (a.type == .number) f.comparands).toList)).filter
        (·.relation != AttributeRow.relation) = [] := by
    cases c with
    | none => rfl
    | some c =>
      rw [Option.map_some, Option.toList_some, Expr.listReads, Comparator.reads_compare]
      rfl
  unfold attributeCondition
  generalize comparator.existence = existence
  obtain ⟨absent, c⟩ := existence
  show (Expr.hasRow ..).reads = _
  rw [Expr.reads, Expr.listReads, Expr.listReads, List.filter_append, List.filter_append,
    hcomparison]
  rfl

/-! ## The statement -/

section Report

variable (w : Warehouse) (site : Website) (r : Report)

theorem withSession_plan : (w.plan site r).withSession = r.namesSession w := by
  unfold Report.namesSession
  rw [List.append_assoc]
  rfl

theorem isEmpty_attributes : (w.plan site r).attributes.isEmpty = !r.readsAttribute w := by
  have hread {a : Attribute} : a ∈ (w.plan site r).attributes ↔
      ∃ name ∈ r.outline.columns,
        (Scope.of w.registry r.attributes).resolve name = some (.attribute a) :=
    Scope.mem_readAttributes_iff
  rw [Bool.eq_iff_iff, List.isEmpty_iff, List.eq_nil_iff_forall_not_mem, Bool.not_eq_true',
    Report.readsAttribute, List.any_eq_false]
  simp only [Report.namesAttribute_iff, hread]
  constructor
  · rintro hnone name hname ⟨a, hres⟩
    exact hnone a ⟨name, hname, hres⟩
  · rintro hnone a ⟨name, hname, hres⟩
    exact hnone name hname ⟨a, hres⟩

theorem joins_query : ((w.plan site r).query w).joins =
    if r.readsAttribute w then [Pivot.join w.settings site
      ((Scope.of w.registry r.attributes).readAttributes r.outline)] else [] := by
  have hjoins : ((w.plan site r).query w).joins = if (w.plan site r).attributes.isEmpty then []
      else [Pivot.join w.settings site (w.plan site r).attributes] := rfl
  rw [hjoins, isEmpty_attributes]
  cases r.readsAttribute w <;> rfl

/-- A column of the pivot is in scope if the pivot is joined. -/
theorem inScope_pivot (inner : Query) (hreads : r.readsAttribute w = true) {name : String}
    (hname : name = AttributeRow.eventColumn ∨ ∃ a ∈
      (Scope.of w.registry r.attributes).readAttributes r.outline, a.columnId = name) :
    InScope w inner ((w.plan site r).query w) ⟨Pivot.relation, name⟩ := by
  refine .pivot (j := Pivot.join w.settings site
    ((Scope.of w.registry r.attributes).readAttributes r.outline)) ?_ rfl ?_
  · rw [joins_query, if_pos hreads]
    exact List.mem_cons_self
  · rw [Pivot.outputNames_query, List.mem_cons, List.mem_map]
    exact hname

variable {w r}

/-- A column that the report names is provided. -/
theorem provides_of_mem_columns (hw : w.registry.IsValid) {name : String} {c : Column}
    (hname : name ∈ r.columns)
    (hres : (Scope.of w.registry r.attributes).resolve name = some (.column c)) :
    Provides w (Base.columns w (r.namesSession w)) c := by
  have hfind : w.registry.find? name = some c := Scope.resolve_eq_column.1 hres
  exact provides_columns hw (Scope.mem_of_resolve_column hres)
    fun htable => Report.namesSession_of hname hfind htable

/-- What the outputs of a report read is in scope. -/
theorem Projection.IsRead.inScope (hw : w.registry.IsValid) {ref : ColumnRef}
    (h : IsRead (Scope.of w.registry r.attributes) r.outline ref) :
    InScope w (Base.columns w (r.namesSession w)) ((w.plan site r).query w) ref := by
  cases h with
  | timestamp =>
    obtain ⟨c, hc, hname, htable⟩ := Registry.exists_timestamp hw
    have hprovided : Provides w (Base.columns w (r.namesSession w)) c :=
      provides_columns hw hc fun hsession => by rw [htable] at hsession; cases hsession
    show InScope _ _ _ ⟨baseName, w.registry.timestampField⟩
    rw [← hname]
    exact .base hc hprovided
  | column hname hres =>
    exact .base (Scope.mem_of_resolve_column hres)
      (provides_of_mem_columns hw (List.mem_append_right _ hname) hres)
  | @value a ha =>
    have hreads : r.readsAttribute w = true := by
      rw [← Bool.not_eq_false', ← isEmpty_attributes w site r]
      exact List.isEmpty_eq_false_iff.2 (List.ne_nil_of_mem ha)
    exact inScope_pivot w site r _ hreads (Or.inr ⟨a, ha, rfl⟩)

/-- For a valid registry, the statement of every report is well scoped. -/
theorem isWellScoped_query (hw : w.registry.validate = .ok ()) :
    ∃ inner, IsWellScoped w site r inner ((w.plan site r).query w) := by
  have hbuilt := Projection.isBuilt_of w.settings (.of w.registry r.attributes) r.outline
  refine ⟨Base.columns w (r.namesSession w), ?_⟩
  constructor
  case base =>
    refine ⟨(w.plan site r).baseConditions, by rw [← withSession_plan w site r]; rfl, ?_⟩
    intro c hc ref href
    obtain ⟨f, hf, d, hres, rfl⟩ := Plan.exists_of_mem_baseConditions hc
    rw [Filter.reads_columnCondition, List.mem_singleton] at href
    have hname : f.column ∈ r.columns := List.mem_append_left _ (List.mem_map_of_mem hf)
    exact ⟨d, Scope.mem_of_resolve_column hres, provides_of_mem_columns hw hname hres, href⟩
  case source => rfl
  case select =>
    intro i hi ref href
    obtain ⟨key, hout⟩ := hbuilt.select i hi
    exact (hout.isRead href).inScope site hw
  case groupBy =>
    intro e he ref href
    obtain ⟨i, hi, hout⟩ := hbuilt.groupBy e he
    rcases hout.isRead_key href with ⟨name, hname, rfl⟩ | hread
    · exact .output (List.mem_filterMap.2 ⟨i, hi, hname⟩)
    · exact hread.inScope site hw
  case conditions =>
    intro c hc ref href
    have hmem : c ∈ (w.plan site r).outerConditions := hc
    obtain ⟨f, -, a, comparator, -, rfl⟩ := Plan.exists_of_mem_outerConditions hmem
    rw [Filter.reads_attributeCondition] at href
    exact List.mem_singleton.1 href
  case on =>
    intro j hj ref href
    rw [joins_query] at hj
    split at hj
    · next hreads =>
      obtain rfl := List.mem_singleton.1 hj
      rcases List.mem_cons.1 href with rfl | href
      · exact Or.inr (inScope_pivot w site r _ hreads (Or.inl rfl))
      · exact Or.inl (List.mem_singleton.1 href)
    · cases hj
  case orderBy => exact fun k hk => Projection.target_of_mem_orderBy hk
  case session =>
    show (if r.namesSession w then _ else _) = _
    rfl
  case pivot => exact joins_query w site r

/-- A report that joins sessions because of a filter, and the pivot because of a metric. -/
theorem isWellScoped_query_standard : ∃ r : Report,
    r.namesSession {} = true ∧ r.readsAttribute {} = true ∧ Registry.standard.validate = .ok () ∧
      ∃ inner,
        IsWellScoped {} { id := "w" } r inner ((Warehouse.plan {} { id := "w" } r).query {}) := by
  let r : Report :=
    { filters := [.interactive "country", .isNull "param_a"]
      attributes := [⟨"a", .string⟩, ⟨"b", .number⟩]
      outline :=
        { metrics := [{ function := .sum, column := some "param_b" }]
          groupBy := ["created_at", "url_fullpath"] } }
  have hw : Registry.standard.validate = .ok () := by decide
  exact ⟨r, by decide, by decide, hw, isWellScoped_query (w := {}) { id := "w" } (r := r) hw⟩

end Report

end EventReport
