/-
# No user text breaks out of its literal

## What is proved

`userText_confined` has two parts.  For every valid registry and every report,
each line of the compiled text has tokens: no text of a user leaves a literal or a
placeholder open, or makes a comment.  And for two reports of the same shape, the
two texts have the same number of lines, and corresponding lines have the same
tokens, one by one, except that a quoted text may stand against another one; and
then the two are the quoted forms of texts that stand at the same place of the two
reports.

## What it is not

Nothing is said of what the warehouse makes of the quoted texts.  That a quoted
text means the text it was made from is a matter of its escapes.

## Shape of the proof

A scope, a filter, a group key and a metric come out alike in the two runs, each
by the lemma of the construct it is written with.  The first part is the second
one for a report and itself.
-/
import EventReport.Proofs.Plan.Correspondence
import EventReport.Proofs.Plan.Fate

namespace EventReport

open Text Sql

/-! ## The literals of a filter -/

/-- The literals that a comparison writes. -/
def Comparator.literals (numeric : Bool) (values : List String) : Comparator → List Literal
  | equals | notEquals => [.ofValue numeric (values.headD "")]
  | contains | notContains => [.text (Pattern.containing (values.headD ""))]
  | startsWith => [.text (Pattern.startingWith (values.headD ""))]
  | endsWith => [.text (Pattern.endingWith (values.headD ""))]
  | oneOf => values.map (.ofValue numeric)
  | isNull | isNotNull => []

/-- Whether values compared with the target are numbers where they read as such. -/
def Target.isNumeric : Target → Bool
  | .column c => c.type.isNumeric
  | .attribute a => a.type == .number

/-- The literals that a filter writes: its values, or its pattern. -/
def Filter.literals (s : Scope) (f : Filter) : List Literal :=
  match s.resolve f.column, f.operator.comparator? with
  | some target, some c => c.literals target.isNumeric f.comparands
  | _, _ => []

/-! ## Reports of one shape -/

/-- Two literals are the same, or both are texts. -/
def Sql.Literal.SameShape (l m : Literal) : Prop := l = m ∨ ∃ s t, l = .text s ∧ m = .text t

/-- Filters that differ in values only, and only in such as become texts. -/
structure Filter.SameShape (s t : Scope) (f g : Filter) : Prop where
  column : g.column = f.column
  operator : g.operator = f.operator
  comparands : g.comparands.length = f.comparands.length
  literals : List.Forall₂ Literal.SameShape (f.literals s) (g.literals t)

/-- Two reports, each on a warehouse, that differ only in the website, the time zone, the keys of
attributes that come to the same columns, and the texts of filters. -/
structure SameShape (w w' : Warehouse) (r r' : Report) : Prop where
  registry : w'.registry = w.registry
  settings : w'.settings = { w.settings with timezone := w'.settings.timezone }
  timezone : w'.settings.timezone.isSome = w.settings.timezone.isSome
  outline : r'.outline = r.outline
  attributes : List.Forall₂ (fun a b : Attribute => a.type = b.type ∧ a.columnId = b.columnId)
    r.attributes r'.attributes
  filters : List.Forall₂
    (Filter.SameShape (.of w.registry r.attributes) (.of w'.registry r'.attributes))
    r.filters r'.filters

/-- Texts that users gave at the same place of two reports. -/
inductive Corresponding (w w' : Warehouse) (r r' : Report) : String → String → Prop where
  | website {site site' : Website} (h : r.website = some site) (h' : r'.website = some site') :
      Corresponding w w' r r' site.id site'.id
  | timezone {zone zone' : String} (h : w.settings.timezone = some zone)
      (h' : w'.settings.timezone = some zone') : Corresponding w w' r r' zone zone'
  | key {i : Nat} {a a' : Attribute} (h : r.attributes[i]? = some a)
      (h' : r'.attributes[i]? = some a') : Corresponding w w' r r' a.key a'.key
  /-- The same literal of the same filter: a value, or the pattern made from it. -/
  | literal {i j : Nat} {f f' : Filter} {s s' : String} (h : r.filters[i]? = some f)
      (h' : r'.filters[i]? = some f')
      (hs : (f.literals (.of w.registry r.attributes))[j]? = some (.text s))
      (hs' : (f'.literals (.of w'.registry r'.attributes))[j]? = some (.text s')) :
      Corresponding w w' r r' s s'

/-! ## Filters -/

section Filters

variable {S : String → String → Prop}

theorem Comparator.alike_like {target : Expr} (ht : Alike S target.chars target.chars)
    (numeric : Bool) {p p' : String} (h : (Literal.text p).Alike S (.text p')) (negated : Bool) :
    Alike S (Comparator.like target numeric p negated).chars
      (Comparator.like target numeric p' negated).chars := by
  unfold Comparator.like
  cases numeric with
  | true => exact .like negated (.cast (by decide) ht) (.value h)
  | false => exact .like negated ht (.value h)

/-- A comparison is as alike as its literals. -/
theorem Comparator.alike_compare {target : Expr} (ht : Alike S target.chars target.chars)
    (numeric : Bool) {vs vs' : List String} (c : Comparator)
    (h : List.Forall₂ (Literal.Alike S) (c.literals numeric vs) (c.literals numeric vs')) :
    Alike S (c.compare target numeric vs).chars (c.compare target numeric vs').chars := by
  cases c with
  | equals => exact .compare .eq ht (.value (List.forall₂_cons.1 h).1)
  | notEquals => exact .compare .ne ht (.value (List.forall₂_cons.1 h).1)
  | contains => exact alike_like ht numeric (List.forall₂_cons.1 h).1 false
  | notContains => exact alike_like ht numeric (List.forall₂_cons.1 h).1 true
  | startsWith => exact alike_like ht numeric (List.forall₂_cons.1 h).1 false
  | endsWith => exact alike_like ht numeric (List.forall₂_cons.1 h).1 false
  | oneOf =>
    refine .among ht ?_
    rw [List.forall₂_map_left_iff, List.forall₂_map_right_iff]
    unfold Comparator.literals at h
    rw [List.forall₂_map_left_iff, List.forall₂_map_right_iff] at h
    exact h.imp fun _ _ hl => .value hl
  | isNull => exact .isNull ht
  | isNotNull => exact .isNotNull ht

/-- The comparison of an attribute's value writes the literals of the filter. -/
theorem Comparator.literals_existence {c d : Comparator} (h : c.existence.2 = some d)
    (numeric : Bool) (vs : List String) : d.literals numeric vs = c.literals numeric vs := by
  cases c <;> simp only [existence, Option.some.injEq, reduceCtorEq] at h <;> subst h <;> rfl

/-- What is said of two filters whose literals correspond. -/
structure FilterAlike (S : String → String → Prop) (s t : Scope) (f g : Filter) : Prop where
  column : g.column = f.column
  operator : g.operator = f.operator
  comparands : g.comparands.length = f.comparands.length
  literals : List.Forall₂ (Literal.Alike S) (f.literals s) (g.literals t)

namespace FilterAlike

variable {s t : Scope} {f g : Filter}

theorem missingValue? (h : FilterAlike S s t f g) : g.missingValue? = f.missingValue? := by
  have hempty : g.comparands.isEmpty = f.comparands.isEmpty := by
    rw [Bool.eq_iff_iff, List.isEmpty_iff_length_eq_zero, List.isEmpty_iff_length_eq_zero,
      h.comparands]
  simp only [Filter.missingValue?, h.operator, h.column, hempty]

theorem columnCondition (h : FilterAlike S s t f g) {c : Column}
    (hname : isIdentifier c.name = true) (hs : s.resolve f.column = some (.column c))
    (ht : t.resolve f.column = some (.column c)) :
    ConditionAlike S (f.columnCondition c) (g.columnCondition c) := by
  have hliterals := h.literals
  unfold Filter.literals at hliterals
  rw [h.column, h.operator, hs, ht] at hliterals
  unfold Filter.columnCondition
  rw [h.operator]
  cases hc : f.operator.comparator? with
  | none => exact .optional hname
  | some comparator =>
    rw [hc] at hliterals
    exact .always (comparator.alike_compare (.column ⟨Or.inl rfl, hname⟩) _ hliterals)

theorem attributeCondition (h : FilterAlike S s t f g) (settings : Settings)
    (zone : Option String) {a b : Attribute} (hab : AttributeAlike S a b)
    {comparator : Comparator} (hc : f.operator.comparator? = some comparator)
    (hs : s.resolve f.column = some (.attribute a))
    (ht : t.resolve f.column = some (.attribute b)) :
    ConditionAlike S (f.attributeCondition settings a comparator)
      (g.attributeCondition { settings with timezone := zone } b comparator) := by
  have hliterals := h.literals
  unfold Filter.literals at hliterals
  rw [h.column, h.operator, hs, ht, hc] at hliterals
  have hnumeric : Target.isNumeric (.attribute b) = (a.type == .number) := by
    rw [hab.type]
    rfl
  have hevent : Alike S AttributeRow.ofBaseEvent.chars AttributeRow.ofBaseEvent.chars :=
    .fixed (by decide)
  unfold Filter.attributeCondition
  cases hexistence : comparator.existence with
  | mk absent comparison =>
    refine .always (.hasRow absent _ (by decide) (.cons hevent (.cons (Pivot.alike_hasKey hab) ?_)))
    cases comparison with
    | none => exact .nil
    | some d =>
      have hd : comparator.existence.2 = some d := by rw [hexistence]
      have hcompare : Alike S
          (d.compare (AttributeRow.column a.type.valueColumn) (a.type == .number) f.comparands).chars
          (d.compare (AttributeRow.column a.type.valueColumn) (a.type == .number) g.comparands).chars := by
        refine d.alike_compare (Pivot.alike_stored a.type) _ ?_
        rw [Comparator.literals_existence hd, Comparator.literals_existence hd]
        dsimp only at hliterals
        rw [hnumeric] at hliterals
        exact hliterals
      rw [← hab.type]
      exact .cons hcompare .nil

/-- What becomes of the filter, in the base statement and in the outer one. -/
theorem fate (h : FilterAlike S s t f g) (hst : ScopeAlike S s t) (hw : s.registry.IsValid)
    (settings : Settings) (zone : Option String) :
    Option.Rel (ConditionAlike S) (f.fate settings s).base?
        (g.fate { settings with timezone := zone } t).base? ∧
      Option.Rel (ConditionAlike S) (f.fate settings s).outer?
        (g.fate { settings with timezone := zone } t).outer? := by
  have hresolve := hst.resolve f.column
  unfold Filter.fate
  rw [h.column, h.operator, h.missingValue?]
  generalize hx : s.resolve f.column = x at hresolve ⊢
  generalize hy : t.resolve f.column = y at hresolve ⊢
  cases hresolve with
  | none => exact ⟨.none, .none⟩
  | some hxy =>
    cases hxy with
    | @column c hc =>
      cases f.missingValue? with
      | some _ => exact ⟨.none, .none⟩
      | none =>
        have hname := Registry.isIdentifier_of_mem hw hc
        exact ⟨.some (h.columnCondition hname hx hy), .none⟩
    | @key a b ha hb hab =>
      cases hc : f.operator.comparator? with
      | none => exact ⟨.none, .none⟩
      | some comparator =>
        cases f.missingValue? with
        | some _ => exact ⟨.none, .none⟩
        | none => exact ⟨.none, .some (h.attributeCondition settings zone hab hc hx hy)⟩

end FilterAlike

end Filters

/-! ## Projections -/

/-- Projections with items that are alike and have the same names. -/
structure ProjectionAlike (S : String → String → Prop) (p q : Projection) : Prop where
  select : List.Forall₂
    (fun i j : Item => Alike S i.chars j.chars ∧ i.outputName? = j.outputName?) p.select q.select
  groupBy : List.Forall₂ (fun e f : Expr => Alike S e.chars f.chars) p.groupBy q.groupBy
  orderBy : p.orderBy = q.orderBy

namespace ProjectionAlike

variable {S : String → String → Prop} {p q : Projection}

theorem empty : ProjectionAlike S {} {} := ⟨.nil, .nil, rfl⟩

theorem names_eq (h : ProjectionAlike S p q) : p.names = q.names := by
  have go : ∀ {is js : List Item},
      List.Forall₂ (fun i j : Item => Alike S i.chars j.chars ∧ i.outputName? = j.outputName?) is js →
      is.filterMap Item.outputName? = js.filterMap Item.outputName? := by
    intro is js hijs
    induction hijs with
    | nil => rfl
    | cons hij _ ih => rw [List.filterMap_cons, List.filterMap_cons, hij.2, ih]
  exact go h.select

theorem warn (h : ProjectionAlike S p q) (ws ws' : List Warning) :
    ProjectionAlike S (p.warn ws) (q.warn ws') := ⟨h.select, h.groupBy, h.orderBy⟩

theorem addItem (h : ProjectionAlike S p q) {i j : Item} (hij : Alike S i.chars j.chars)
    (hname : i.outputName? = j.outputName?) : ProjectionAlike S (p.addItem i) (q.addItem j) :=
  ⟨List.rel_append h.select (.cons ⟨hij, hname⟩ .nil), h.groupBy, h.orderBy⟩

theorem addGroup (h : ProjectionAlike S p q) {i j : Item} (hij : Alike S i.chars j.chars)
    (hname : i.outputName? = j.outputName?) {e f : Expr} (hef : Alike S e.chars f.chars) :
    ProjectionAlike S (p.addGroup i e) (q.addGroup j f) :=
  ⟨(h.addItem hij hname).select, List.rel_append h.groupBy (.cons hef .nil), h.orderBy⟩

theorem reserve (h : ProjectionAlike S p q) (name : String) {add add' : Projection → Projection}
    (hadd : ProjectionAlike S (add p) (add' q)) :
    ProjectionAlike S (p.reserve name add) (q.reserve name add') := by
  unfold Projection.reserve
  rw [h.names_eq]
  split
  · exact h.warn _ _
  · exact hadd

section Steps

variable {s t : Scope} (hst : ScopeAlike S s t) (hw : s.registry.IsValid)

include hst hw

theorem addGroupField (h : ProjectionAlike S p q) (settings : Settings) {zone : Option String}
    (hzone : Option.Rel S settings.timezone zone) (granularity : Option Granularity)
    (field : String) :
    ProjectionAlike S (p.addGroupField settings s granularity field)
      (q.addGroupField { settings with timezone := zone } t granularity field) := by
  have hbase : isIdentifier baseName = true := by decide
  have hdate : isIdentifier Projection.dateAlias = true := by decide
  unfold Projection.addGroupField
  rw [hst.registry]
  split
  · have hzones : List.Forall₂ (fun e f : Expr => Alike S e.chars f.chars)
        (settings.timezone.map Expr.text).toList (zone.map Expr.text).toList := by
      generalize settings.timezone = z at hzone ⊢
      cases hzone with
      | none => exact .nil
      | some hz => exact .cons (.textConstant hz) .nil
    have htime := Registry.isIdentifier_timestampField hw
    have hformat : isIdentifier "FORMAT_TIMESTAMP" = true := by decide
    have hbucket := Alike.call hformat
      (.cons (.constant (granularity.getD .day).pattern) (.cons (.of hbase htime) hzones))
    exact h.reserve _ (h.addGroup (hbucket.namedItem hdate) rfl (.column ⟨Or.inl rfl, hdate⟩))
  · have hresolve := hst.resolve field
    generalize s.resolve field = x at hresolve ⊢
    generalize t.resolve field = y at hresolve ⊢
    cases hresolve with
    | none => exact h.warn _ _
    | some hxy =>
      cases hxy with
      | @column c hc =>
        have hcolumn : Alike S (Expr.of baseName c.name).chars (Expr.of baseName c.name).chars :=
          .of hbase (Registry.isIdentifier_of_mem hw hc)
        exact h.reserve _ (h.addGroup (.item hcolumn) rfl hcolumn)
      | key => exact h

theorem metricExpr (name : String) (m : Metric) :
    Alike S (m.expr s name).1.chars (m.expr t name).1.chars := by
  have hbase : isIdentifier baseName = true := by decide
  have hpivot : isIdentifier Pivot.relation = true := by decide
  have hplain : ∀ {f : Aggregation}, m.function.aggregation? = some f → f.IsPlain := by
    intro f hf
    cases hm : m.function <;> rw [hm] at hf <;>
      simp only [MetricFunction.aggregation?, Option.some.injEq, reduceCtorEq] at hf <;> subst hf <;>
      trivial
  unfold Metric.expr
  split
  · exact .countRows
  · exact .countRows
  · next f hf _ =>
    split
    · exact .countRows
    · next column _ =>
      have hne := MetricFunction.aggregation?_ne_countRows hf
      have hresolve := hst.resolve column
      generalize s.resolve column = x at hresolve ⊢
      generalize t.resolve column = y at hresolve ⊢
      cases hresolve with
      | none => exact .countRows
      | some hxy =>
        cases hxy with
        | @column c hc =>
          exact .aggregate hne (hplain hf) (.of hbase (Registry.isIdentifier_of_mem hw hc))
        | @key a b _ _ hab =>
          have hid := Attribute.isIdentifier_columnId a
          have hvalue : Alike S (Pivot.value a).chars (Pivot.value b).chars := by
            unfold Pivot.value
            rw [← hab.columnId]
            exact .of hpivot hid
          exact .aggregate hne (hplain hf) hvalue

theorem addMetric (h : ProjectionAlike S p q) (placed : Metric × Nat) :
    ProjectionAlike S (p.addMetric s placed) (q.addMetric t placed) := by
  obtain ⟨m, place⟩ := placed
  have hname := m.isIdentifier_outputName place
  have hsaid := h.warn (m.outputName place).2 (m.outputName place).2
  unfold Projection.addMetric
  refine hsaid.reserve _ ?_
  exact (hsaid.warn _ _).addItem ((metricExpr hst hw _ m).namedItem hname) rfl

theorem addAttribute (h : ProjectionAlike S p q) (hs : s.IsDistinct) (ht : t.IsDistinct)
    (o : Outline) {a b : Attribute} (hab : ScopeAlike.Pair S s t a b) :
    ProjectionAlike S (p.addAttribute s o a) (q.addAttribute t o b) := by
  have hpivot : isIdentifier Pivot.relation = true := by decide
  have hid := Attribute.isIdentifier_columnId a
  have hvalue : Alike S (Pivot.value a).chars (Pivot.value b).chars := by
    unfold Pivot.value
    rw [← hab.2.2.columnId]
    exact .of hpivot hid
  have hbase : isIdentifier baseName = true := by decide
  have htime : ColumnRef.IsPlain ⟨baseName, s.registry.timestampField⟩ :=
    ⟨Or.inr hbase, Registry.isIdentifier_timestampField hw⟩
  have hfold : Alike S
      (Pivot.fold a.type ⟨baseName, s.registry.timestampField⟩ (Pivot.value a)).chars
      (Pivot.fold b.type ⟨baseName, t.registry.timestampField⟩ (Pivot.value b)).chars := by
    rw [hst.registry, ← hab.2.2.type]
    cases a.type with
    | string => exact .aggregate (by simp) htime hvalue
    | number => exact .aggregate (by simp) trivial hvalue
  unfold Projection.addAttribute
  rw [← hst.isGrouped hs ht o hab, ← hab.2.2.columnId]
  refine h.reserve _ ?_
  split
  · exact h.addGroup (.item hvalue) (congrArg some hab.2.2.columnId) hvalue
  · exact h.addItem (hfold.namedItem hid) rfl

end Steps

theorem addOrder (h : ProjectionAlike S p q) (registry : Registry) (orderBy : Option OrderBy) :
    ProjectionAlike S (p.addOrder registry orderBy) (q.addOrder registry orderBy) := by
  have hempty : p.groupBy.isEmpty = q.groupBy.isEmpty := by
    rw [Bool.eq_iff_iff, List.isEmpty_iff_length_eq_zero, List.isEmpty_iff_length_eq_zero,
      h.groupBy.length_eq]
  have hdefault : p.defaultOrder = q.defaultOrder := by
    simp only [Projection.defaultOrder, h.names_eq, hempty]
  unfold Projection.addOrder
  rw [h.names_eq, hdefault]
  split
  · exact ⟨h.select, h.groupBy, rfl⟩
  · next ob =>
    dsimp only
    generalize (if registry.isTimestamp ob.column then Projection.dateAlias else ob.column) = name
    split
    · exact ⟨h.select, h.groupBy, rfl⟩
    · exact ⟨h.select, h.groupBy, rfl⟩

/-- What two reports of one outline show. -/
theorem of {s t : Scope} (hst : ScopeAlike S s t) (hw : s.registry.IsValid) (hs : s.IsDistinct)
    (ht : t.IsDistinct) (settings : Settings) {zone : Option String}
    (hzone : Option.Rel S settings.timezone zone) (o : Outline) :
    ProjectionAlike S (Projection.of settings s o)
      (Projection.of { settings with timezone := zone } t o) := by
  have hfield : ∀ p q, ProjectionAlike S p q → ∀ field field' : String, field = field' →
      ProjectionAlike S (p.addGroupField settings s o.granularity field)
        (q.addGroupField { settings with timezone := zone } t o.granularity field') := by
    rintro p q hpq field _ rfl
    exact addGroupField hst hw hpq settings hzone o.granularity field
  have hmetric : ∀ p q, ProjectionAlike S p q → ∀ placed placed' : Metric × Nat, placed = placed' →
      ProjectionAlike S (p.addMetric s placed) (q.addMetric t placed') := by
    rintro p q hpq placed _ rfl
    exact addMetric hst hw hpq placed
  have hattribute : ∀ p q, ProjectionAlike S p q → ∀ a b, ScopeAlike.Pair S s t a b →
      ProjectionAlike S (p.addAttribute s o a) (q.addAttribute t o b) :=
    fun p q hpq a b hab => addAttribute hst hw hpq hs ht o hab
  have hgrouped := List.rel_foldl (fun p q hpq a b => hfield p q hpq a b) (empty (S := S))
    (List.forall₂_refl o.groupBy)
  have hmeasured := List.rel_foldl (fun p q hpq a b => hmetric p q hpq a b) hgrouped
    (List.forall₂_refl o.shownMetrics.zipIdx)
  have hfull := List.rel_foldl (fun p q hpq a b => hattribute p q hpq a b) hmeasured
    (hst.readAttributes hs ht o)
  unfold Projection.of
  rw [hst.registry]
  exact hfull.addOrder _ _

end ProjectionAlike

/-! ## Plans -/

theorem forall₂_of_getElem? {α β : Type} {R T : α → β → Prop} {as : List α} {bs : List β}
    (h : List.Forall₂ R as bs)
    (himp : ∀ (i : Nat) a b, as[i]? = some a → bs[i]? = some b → R a b → T a b) :
    List.Forall₂ T as bs := by
  rw [List.forall₂_iff_get] at h ⊢
  refine ⟨h.1, ?_⟩
  intro i h₁ h₂
  exact himp i _ _ (by simp [h₁]) (by simp [h₂]) (h.2 i h₁ h₂)

namespace SameShape

variable {w w' : Warehouse} {r r' : Report}

theorem attributeAlike (h : SameShape w w' r r') :
    List.Forall₂ (AttributeAlike (Corresponding w w' r r')) r.attributes r'.attributes :=
  forall₂_of_getElem? h.attributes fun _ _ _ ha hb hab => ⟨hab.1, hab.2, .key ha hb⟩

theorem filterAlike (h : SameShape w w' r r') :
    List.Forall₂ (FilterAlike (Corresponding w w' r r') (.of w.registry r.attributes)
      (.of w'.registry r'.attributes)) r.filters r'.filters := by
  refine forall₂_of_getElem? h.filters ?_
  intro i f g hf hg hfg
  refine ⟨hfg.column, hfg.operator, hfg.comparands, ?_⟩
  refine forall₂_of_getElem? hfg.literals ?_
  rintro j l m hl hm (rfl | ⟨s, t, rfl, rfl⟩)
  · exact Or.inl rfl
  · exact Or.inr ⟨s, t, .literal hf hg hl hm, rfl, rfl⟩

theorem zoneAlike (h : SameShape w w' r r') :
    Option.Rel (Corresponding w w' r r') w.settings.timezone w'.settings.timezone := by
  have hsome := h.timezone
  cases hz : w.settings.timezone with
  | none =>
    cases hz' : w'.settings.timezone with
    | none => exact .none
    | some zone' => simp [hz, hz'] at hsome
  | some zone =>
    cases hz' : w'.settings.timezone with
    | none => simp [hz, hz'] at hsome
    | some zone' => exact .some (.timezone hz hz')

theorem columns_eq (h : SameShape w w' r r') : r.columns = r'.columns :=
  Report.columns_eq (h.filters.imp fun _ _ hfg => hfg.column.symm) h.outline.symm

/-- Planning takes the same path for both reports. -/
theorem planAlike (h : SameShape w w' r r') (hw : w.registry.IsValid) {site site' : Website}
    (hsite : r.website = some site) (hsite' : r'.website = some site') :
    PlanAlike (Corresponding w w' r r') (w.plan site r) (w'.plan site' r') := by
  have hzone := h.zoneAlike
  have hfilters := h.filterAlike
  have hattributes := h.attributeAlike
  have hcolumns := h.columns_eq
  have houtline := h.outline
  have hwebsite : Corresponding w w' r r' site.id site'.id := .website hsite hsite'
  -- from here on the relation may be any that holds of the texts of the two reports
  have hregistry := h.registry
  have hsettings := h.settings
  generalize Corresponding w w' r r' = S at *
  obtain ⟨registry', settings'⟩ := w'
  obtain rfl : registry' = w.registry := hregistry
  dsimp only at hzone hsettings
  generalize settings'.timezone = zone at hzone hsettings
  subst hsettings
  have hst := Scope.alike_of w.registry hattributes
  have hs := Scope.distinct_of w.registry r.attributes
  have ht := Scope.distinct_of w.registry r'.attributes
  have hprojection := ProjectionAlike.of hst hw hs ht w.settings hzone r.outline
  have hfit := Projection.isFit_of w.settings (.of w.registry r.attributes) r.outline
  have hfit' := Projection.isFit_of { w.settings with timezone := zone }
    (.of w.registry r'.attributes) r.outline
  have hstar : ∀ {settings scope o} {is : List Item},
      (∀ i ∈ is, Projection.Shows settings scope o i) → is ≠ [.star ""] := by
    rintro settings scope o is hshows rfl
    cases hshows _ List.mem_cons_self
  constructor
  case website => exact hwebsite
  case withSession =>
    show r.columns.any _ = r'.columns.any _
    rw [hcolumns]
    rfl
  case baseConditions =>
    show List.Forall₂ _ ((r.filters.map _).filterMap Fate.base?)
      ((r'.filters.map _).filterMap Fate.base?)
    rw [List.filterMap_map, List.filterMap_map]
    refine List.rel_filterMap ?_ hfilters
    intro f g hfg
    exact (hfg.fate hst hw w.settings zone).1
  case outerConditions =>
    show List.Forall₂ _ ((r.filters.map _).filterMap Fate.outer?)
      ((r'.filters.map _).filterMap Fate.outer?)
    rw [List.filterMap_map, List.filterMap_map]
    refine List.rel_filterMap ?_ hfilters
    intro f g hfg
    exact (hfg.fate hst hw w.settings zone).2
  case outerAlways =>
    intro c hc
    obtain ⟨f, -, a, comparator, -, rfl⟩ := Plan.exists_of_mem_outerConditions hc
    exact ⟨_, rfl⟩
  case attributes =>
    show List.Forall₂ _ (Scope.readAttributes _ r.outline) (Scope.readAttributes _ r'.outline)
    rw [houtline]
    exact (hst.readAttributes hs ht r.outline).imp fun _ _ hab => hab.2.2
  case select =>
    show List.Forall₂ _ (Projection.of _ _ r.outline).select (Projection.of _ _ r'.outline).select
    rw [houtline]
    exact hprojection.select.imp fun _ _ hij => hij.1
  case select_ne =>
    refine ⟨hstar hfit.select, ?_⟩
    show (Projection.of _ _ r'.outline).select ≠ _
    rw [houtline]
    exact hstar hfit'.select
  case groupBy =>
    show List.Forall₂ _ (Projection.of _ _ r.outline).groupBy (Projection.of _ _ r'.outline).groupBy
    rw [houtline]
    exact hprojection.groupBy
  case orderBy =>
    show (Projection.of _ _ r.outline).orderBy = (Projection.of _ _ r'.outline).orderBy
    rw [houtline]
    exact hprojection.orderBy
  case orderPlain =>
    intro k hk
    unfold SortKey.IsPlain
    rcases Projection.target_of_mem_orderBy hk with heq | ⟨name, hname, heq⟩
    · rw [heq]
      trivial
    · rw [heq]
      exact Projection.isIdentifier_of_mem_names hw hname

/-- A report has the same shape as itself. -/
theorem refl (w : Warehouse) (r : Report) : SameShape w w r r where
  registry := rfl
  settings := rfl
  timezone := rfl
  outline := rfl
  attributes := List.forall₂_same.2 fun _ _ => ⟨rfl, rfl⟩
  filters := List.forall₂_same.2 fun _ _ =>
    ⟨rfl, rfl, rfl, List.forall₂_same.2 fun _ _ => Or.inl rfl⟩

end SameShape

/-! ## Texts -/

namespace Warehouse

variable {w : Warehouse} {r : Report} {site : Website}

theorem sql_compile (hsite : r.website = some site) (hselected : site.isSelected = true) :
    (w.compile r).sql = ((w.plan site r).query w).sql := by
  rw [compile_selected hsite hselected]

/-- Nothing is compiled while no website is selected. -/
theorem sql_compile_none (h : r.website.filter Website.isSelected = none) :
    (w.compile r).sql = "" := by
  simp [compile, h]

end Warehouse

/-- Neat lines are the lines of their text. -/
theorem Sql.Query.splitLines_sql {q : Query} (hne : q.lines ≠ [])
    (h : ∀ l ∈ q.lines, isNeat l.chars = true) :
    splitLines q.sql.toList = q.lines.map Line.chars := by
  rw [toList_sql]
  refine splitLines_joinLines (by simpa using hne) ?_
  intro line hline
  obtain ⟨l, hl, rfl⟩ := List.mem_map.1 hline
  exact newline_not_mem_of_isNeat (h l hl)

theorem Plan.lines_query_ne_nil (p : Plan) (w : Warehouse) : (p.query w).lines ≠ [] := by
  rw [Plan.lines_query]
  simp [Plan.openingLines]

namespace LinesAlike

variable {S : String → String → Prop} {ls ms : List Line}

theorem neat_left (h : LinesAlike S ls ms) : ∀ l ∈ ls, isNeat l.chars = true := by
  induction h with
  | nil => simp
  | cons hlm _ ih =>
    intro l hl
    rcases List.mem_cons.1 hl with rfl | hl
    · exact hlm.neat_left
    · exact ih l hl

theorem neat_right (h : LinesAlike S ls ms) : ∀ m ∈ ms, isNeat m.chars = true := by
  induction h with
  | nil => simp
  | cons hlm _ ih =>
    intro m hm
    rcases List.mem_cons.1 hm with rfl | hm
    · exact hlm.neat_right
    · exact ih m hm

end LinesAlike

/-- The texts of two reports of one shape, line by line. -/
theorem SameShape.alike_splitLines {w w' : Warehouse} {r r' : Report} {site site' : Website}
    (h : SameShape w w' r r') (hw : w.registry.IsValid)
    (hsite : r.website = some site) (hselected : site.isSelected = true)
    (hsite' : r'.website = some site') (hselected' : site'.isSelected = true) :
    List.Forall₂ (Alike (Corresponding w w' r r')) (splitLines (w.compile r).sql.toList)
      (splitLines (w'.compile r').sql.toList) := by
  have hplan := h.planAlike hw hsite hsite'
  have hw' : w' = { w with settings := { w.settings with timezone := w'.settings.timezone } } := by
    have hregistry := h.registry
    have hsettings := h.settings
    obtain ⟨registry', settings'⟩ := w'
    obtain rfl : registry' = w.registry := hregistry
    dsimp only at hsettings ⊢
    rw [← hsettings]
  have hlines := hplan.linesAlike hw w'.settings.timezone
  rw [← hw'] at hlines
  rw [Warehouse.sql_compile hsite hselected, Warehouse.sql_compile hsite' hselected',
    Query.splitLines_sql (Plan.lines_query_ne_nil _ _) hlines.neat_left,
    Query.splitLines_sql (Plan.lines_query_ne_nil _ _) hlines.neat_right,
    List.forall₂_map_left_iff, List.forall₂_map_right_iff]
  exact hlines

/-- Every line of a compiled text has tokens, and in two texts that were compiled from reports of
one shape, lines have the same tokens but for quoted texts that the two reports have at one place. -/
theorem userText_confined :
    (∀ (w : Warehouse) (r : Report), w.registry.validate = .ok () →
      ∀ line ∈ splitLines (w.compile r).sql.toList, (tokenize line).isSome = true) ∧
    ∀ (w w' : Warehouse) (r r' : Report) (site site' : Website), w.registry.validate = .ok () →
      SameShape w w' r r' → r.website = some site → site.isSelected = true →
      r'.website = some site' → site'.isSelected = true →
      List.Forall₂
        (fun line line' => ∃ ts us, tokenize line = some ts ∧ tokenize line' = some us ∧
          List.Forall₂ (Token.Alike (Corresponding w w' r r')) ts us)
        (splitLines (w.compile r).sql.toList) (splitLines (w'.compile r').sql.toList) := by
  refine ⟨?_, ?_⟩
  · intro w r hw line hline
    cases hfilter : r.website.filter Website.isSelected with
    | none =>
      rw [Warehouse.sql_compile_none hfilter] at hline
      obtain rfl : line = [] := by simpa [splitLines] using hline
      rw [tokenize_nil]
      rfl
    | some site =>
      obtain ⟨hsite, hselected⟩ := Option.filter_eq_some_iff.1 hfilter
      have hself := (SameShape.refl w r).alike_splitLines hw hsite hselected hsite hselected
      obtain ⟨i, hi, rfl⟩ := List.getElem_of_mem hline
      have halike := (List.forall₂_iff_get.1 hself).2 i hi hi
      obtain ⟨ts, -, hts, -⟩ := halike.tokens
      rw [List.get_eq_getElem] at hts
      rw [hts]
      rfl
  · intro w w' r r' site site' hw hshape hsite hselected hsite' hselected'
    have h := hshape.alike_splitLines hw hsite hselected hsite' hselected'
    exact h.imp fun _ _ halike => halike.tokens

/-- Two reports that differ in every text they may differ in, one of them with texts that try to end
the literal they stand in. -/
theorem userText_confined_standard :
    (∀ line ∈ splitLines (Warehouse.compile {} { website := some { id := "a" } }).sql.toList,
      (tokenize line).isSome = true) ∧
    ∃ w w' : Warehouse, ∃ r r' : Report, ∃ site site' : Website,
      site.id = "a" ∧ site'.id = "') --" ∧
      List.Forall₂
        (fun line line' => ∃ ts us, tokenize line = some ts ∧ tokenize line' = some us ∧
          List.Forall₂ (Token.Alike (Corresponding w w' r r')) ts us)
        (splitLines (w.compile r).sql.toList) (splitLines (w'.compile r').sql.toList) := by
  have hvalid : Registry.standard.validate = .ok () := by decide
  refine ⟨userText_confined.1 {} _ hvalid, ?_⟩
  let w : Warehouse := { settings := { timezone := some "UTC" } }
  let w' : Warehouse := { settings := { timezone := some "'; --" } }
  let r : Report :=
    { website := some { id := "a" }
      filters := [.equals "url_path" "/", .startsWith "param_a_b" "x"]
      attributes := [⟨"a b", .string⟩]
      outline := { groupBy := ["created_at", "param_a_b"] } }
  let r' : Report :=
    { website := some { id := "') --" }
      filters := [.equals "url_path" "\\'\n", .startsWith "param_a_b" "')"]
      attributes := [⟨"a'b", .string⟩]
      outline := { groupBy := ["created_at", "param_a_b"] } }
  have hshape : SameShape w w' r r' :=
    { registry := rfl
      settings := rfl
      timezone := rfl
      outline := rfl
      attributes := .cons ⟨rfl, by decide⟩ .nil
      filters := .cons ⟨rfl, rfl, rfl, .cons (Or.inr ⟨_, _, rfl, rfl⟩) .nil⟩
        (.cons ⟨rfl, rfl, rfl, .cons (Or.inr ⟨_, _, rfl, rfl⟩) .nil⟩ .nil) }
  exact ⟨w, w', r, r', { id := "a" }, { id := "') --" }, rfl, rfl,
    userText_confined.2 w w' r r' _ _ hvalid hshape rfl (by decide) rfl (by decide)⟩

end EventReport
