/-
# The statement of a report holds no placeholders but its own

A report is *harmless* if none of the texts that are quoted in its statement brings
two opening braces together there: the id of the website, the values of filters, the
keys of attributes, the time zone, and the names of the tables.

## What is proved

`Plan.isClear_or_optional`: every line of the statement of a harmless report is clear,
apart from the optional filters, each of which is one placeholder.  The proof follows
the six runs of lines, and takes a lemma for each thing that is planned.
-/
import EventReport.Proofs.Plan.Account
import EventReport.Proofs.Plan.Readback
import EventReport.Proofs.Sql.Clear

namespace EventReport

open Text Sql

/-- The tables that statements read from. -/
def Settings.tables (settings : Settings) : List String :=
  [settings.eventTable, settings.sessionTable, settings.eventDataTable]

/-- No quoted text of the report brings two opening braces together. -/
structure IsHarmless (w : Warehouse) (r : Report) : Prop where
  website : ∀ site, r.website = some site → Text.IsHarmless site.id
  values : ∀ f ∈ r.filters, ∀ value ∈ f.comparands, Text.IsHarmless value
  keys : ∀ a ∈ r.attributes, Text.IsHarmless a.key
  timezone : ∀ zone, w.settings.timezone = some zone → Text.IsHarmless zone
  tables : ∀ name ∈ w.settings.tables, ¬['\x7b', '\x7b'] <:+: (quoteTable name).toList

/-- The texts of a report that stand between single quotes in its statement, or in patterns there. -/
def Report.quotedTexts (w : Warehouse) (r : Report) : List String :=
  (r.website.map Website.id).toList ++ r.filters.flatMap Filter.comparands ++
    r.attributes.map Attribute.key ++ w.settings.timezone.toList

/-- A report without two opening braces in a row is harmless, if no character is left out where its
texts are quoted. -/
theorem IsHarmless.of_plain {w : Warehouse} {r : Report}
    (hquoted : ∀ s ∈ r.quotedTexts w, '\x00' ∉ s.toList ∧ ¬['\x7b', '\x7b'] <:+: s.toList)
    (htables : ∀ name ∈ w.settings.tables,
      (name.toList.all fun c => c != '\x60' && !isControl c) = true ∧
        ¬['\x7b', '\x7b'] <:+: name.toList) :
    IsHarmless w r := by
  have hharmless : ∀ s ∈ r.quotedTexts w, Text.IsHarmless s := fun s hs =>
    isHarmless_of_not_mem (hquoted s hs).1 (hquoted s hs).2
  exact {
    website := fun site hsite => hharmless _ (by simp [Report.quotedTexts, hsite])
    values := fun f hf value hvalue => hharmless _ (by
      simp only [Report.quotedTexts, List.mem_append, List.mem_flatMap]
      exact .inl (.inl (.inr ⟨f, hf, hvalue⟩)))
    keys := fun a ha => hharmless _ (by
      simp only [Report.quotedTexts, List.mem_append, List.mem_map]
      exact .inl (.inr ⟨a, ha, rfl⟩))
    timezone := fun zone hzone => hharmless _ (by simp [Report.quotedTexts, hzone])
    tables := fun name hname => not_braces_quoteTable (htables name hname).1 (htables name hname).2 }

/-! ## Filters -/

namespace Comparator

variable {target : Expr} {values : List String}

theorem isClear_like (htarget : target.IsClear) (numeric : Bool) {p : String}
    (hp : IsClear (quote p).toList) (negated : Bool) : (like target numeric p negated).IsClear := by
  have hpattern : (Expr.value (.text p)).IsClear := Expr.isClear_value hp
  have htype : isIdentifier "STRING" = true := by decide
  unfold like
  split
  · exact Expr.isClear_like (Expr.isClear_cast htype htarget) hpattern negated
  · exact Expr.isClear_like htarget hpattern negated

theorem isClear_compare (htarget : target.IsClear) (numeric : Bool)
    (hvalues : ∀ value ∈ values, Text.IsHarmless value) (c : Comparator) :
    (c.compare target numeric values).IsClear := by
  have hfirst : Text.IsHarmless (values.headD "") := by
    cases values with
    | nil =>
      show ¬['\x7b', '\x7b'] <:+: "".toList.filter (· != '\x00')
      decide
    | cons value values => exact hvalues value List.mem_cons_self
  have hoperand : ∀ {value}, Text.IsHarmless value → (operand numeric value).IsClear :=
    fun h => Expr.isClear_value (Literal.isClear_ofValue numeric h)
  cases c with
  | equals | notEquals => exact Expr.isClear_compare _ htarget (hoperand hfirst)
  | contains | notContains => exact isClear_like htarget numeric (hfirst.isClear_pattern (.inl rfl)) _
  | startsWith => exact isClear_like htarget numeric (hfirst.isClear_pattern (.inr (.inl rfl))) _
  | endsWith => exact isClear_like htarget numeric (hfirst.isClear_pattern (.inr (.inr rfl))) _
  | oneOf =>
    refine Expr.isClear_among htarget fun e he => ?_
    obtain ⟨value, hvalue, rfl⟩ := List.mem_map.1 he
    exact hoperand (hvalues value hvalue)
  | isNull => exact Expr.isClear_isNull htarget
  | isNotNull => exact Expr.isClear_isNotNull htarget

end Comparator

namespace AttributeRow

theorem isClear_column {name : String} (h : isIdentifier name = true) : (column name).IsClear :=
  Expr.isClear_of (by decide) h

theorem isClear_hasKey {a : Attribute} (h : Text.IsHarmless a.key) : (hasKey a).IsClear :=
  Expr.isClear_compare .eq (isClear_column (by decide)) (Expr.isClear_literal (Literal.isClear_text h))

theorem isClear_stored (type : AttributeType) : (column type.valueColumn).IsClear := by
  cases type <;> exact isClear_column (by decide)

end AttributeRow

namespace Filter

variable {f : Filter}

theorem columnCondition_cases {c : Column} (hc : isIdentifier c.name = true)
    (hvalues : ∀ value ∈ f.comparands, Text.IsHarmless value) :
    (∃ e : Expr, f.columnCondition c = .always e ∧ e.IsClear) ∨
      f.columnCondition c = .optional (.placeholder c.name) := by
  have hcolumn : (Expr.column (.bare c.name)).IsClear := Expr.isClear_column ⟨.inl rfl, hc⟩
  unfold columnCondition
  split
  · exact .inr rfl
  · exact .inl ⟨_, rfl, Comparator.isClear_compare hcolumn _ hvalues _⟩

theorem exists_attributeCondition {settings : Settings} {a : Attribute} (comparator : Comparator)
    (htable : IsClear (quoteTable settings.eventDataTable).toList) (hkey : Text.IsHarmless a.key)
    (hvalues : ∀ value ∈ f.comparands, Text.IsHarmless value) :
    ∃ e : Expr, f.attributeCondition settings a comparator = .always e ∧ e.IsClear := by
  have hevent : AttributeRow.ofBaseEvent.IsClear :=
    Expr.isClear_compare .eq (AttributeRow.isClear_column (by decide))
      (Expr.isClear_of (by decide) (by decide))
  refine ⟨_, rfl, Expr.isClear_hasRow _ htable (by decide) fun e he => ?_⟩
  rcases List.mem_cons.1 he with rfl | he
  · exact hevent
  rcases List.mem_cons.1 he with rfl | he
  · exact AttributeRow.isClear_hasKey hkey
  · obtain ⟨c, -, rfl⟩ := Option.map_eq_some_iff.1 (Option.mem_toList.1 he)
    exact Comparator.isClear_compare (AttributeRow.isClear_stored a.type) _ hvalues c

end Filter

/-! ## The base statement -/

namespace Base

set_option maxRecDepth 4096 in
theorem isClear_computedExpr (k : Computed) : (Base.computedExpr k).IsClear := by
  cases k <;> exact isClear_of_not_mem (by decide)

theorem isClear_columnItems {w : Warehouse} (hw : w.registry.IsValid) (withSession : Bool) :
    ∀ i ∈ (Base.columns w withSession).select, IsClear i.chars := by
  intro i hi
  rcases List.mem_cons.1 hi with rfl | hi
  · exact Item.isClear_star (by decide)
  rcases List.mem_append.1 hi with hi | hi
  · obtain ⟨c, hc, hk⟩ := List.mem_filterMap.1 hi
    obtain ⟨k, -, rfl⟩ := Option.map_eq_some_iff.1 hk
    have hname := Registry.isIdentifier_of_mem hw (List.mem_of_mem_filter hc)
    exact Item.isClear_expr (isClear_computedExpr k) (by rintro _ ⟨⟩; exact hname)
  · cases withSession with
    | false => cases hi
    | true =>
      obtain ⟨c, hc, rfl⟩ := List.mem_map.1 hi
      have hname := Registry.isIdentifier_of_mem hw (List.mem_of_mem_filter hc)
      exact Item.isClear_expr (Expr.isClear_of (by decide) hname) (by simp)

theorem allClear_columns {w : Warehouse} (hw : w.registry.IsValid)
    (htables : ∀ name ∈ w.settings.tables, IsClear (quoteTable name).toList) (withSession : Bool) :
    AllClear (Base.columns w withSession).lines := by
  have hjoins : AllClear (Query.joinLines (Base.columns w withSession).joins) := by
    cases withSession with
    | false => exact .nil
    | true =>
      have hon : (sessionJoin w.settings).on.IsClear :=
        Expr.isClear_compare .eq (Expr.isClear_of (by decide) (by decide))
          (Expr.isClear_of (by decide) (by decide))
      have htable : AllClear (Query.sourceLines (JoinKind.left.keywords ++ " ")
          (.table w.settings.sessionTable sessionAlias)) :=
        .table (by decide) (htables _ (by simp [Settings.tables])) (by decide)
      exact htable.append (.expr (s := "  ON ") (by decide) hon)
  rw [lines_columns]
  exact ((AllClear.selectLines (select_columns_ne w withSession) (isClear_columnItems hw withSession)).append
    (.table (by decide) (htables _ (by simp [Settings.tables])) (by decide))).append hjoins

end Base

/-! ## The pivot -/

namespace Pivot

theorem isClear_column {a : Attribute} (h : Text.IsHarmless a.key) : IsClear (Pivot.column a).chars := by
  have hid : ∀ n ∈ some a.columnId, isIdentifier n = true := by
    rintro _ ⟨⟩
    exact Attribute.isIdentifier_columnId a
  have hkey := AttributeRow.isClear_hasKey h
  have htime : ColumnRef.IsPlain ⟨AttributeRow.relation, "created_at"⟩ := ⟨.inr (by decide), by decide⟩
  have hstored := AttributeRow.isClear_stored a.type
  have hempty : (Expr.text "").IsClear := isClear_of_not_mem (by decide)
  obtain ⟨key, type⟩ := a
  cases type with
  | string =>
    have hfold := Expr.isClear_aggregate (g := .firstText ⟨AttributeRow.relation, "created_at"⟩)
      (by simp) htime (Expr.isClear_choose_one hkey hstored)
    have hcall : (Expr.call "NULLIF" [_, .text ""]).IsClear :=
      Expr.isClear_call (by decide) (List.forall_mem_cons.2 ⟨hfold, by simpa using hempty⟩)
    exact Item.isClear_expr hcall hid
  | number =>
    have htype : isIdentifier "NUMERIC" = true := by decide
    have hfold := Expr.isClear_aggregate (g := .max) (by simp) trivial
      (Expr.isClear_choose_one hkey (Expr.isClear_cast htype hstored))
    exact Item.isClear_expr hfold hid

variable {settings : Settings} {site : Website} {attributes : List Attribute}

theorem allClear_query (htable : IsClear (quoteTable settings.eventDataTable).toList)
    (hsite : Text.IsHarmless site.id) (hkeys : ∀ a ∈ attributes, Text.IsHarmless a.key) :
    AllClear (Pivot.query settings site attributes).lines := by
  have hevent : (AttributeRow.column AttributeRow.eventColumn).IsClear :=
    AttributeRow.isClear_column (by decide)
  have hitems : ∀ i ∈ (Pivot.query settings site attributes).select, IsClear i.chars := by
    refine List.forall_mem_cons.2 ⟨Item.isClear_expr hevent (by simp), fun i hi => ?_⟩
    obtain ⟨a, ha, rfl⟩ := List.mem_map.1 hi
    exact isClear_column (hkeys a ha)
  have hscope : (Expr.eq (AttributeRow.column scopeColumn) (.value (.text site.id))).IsClear :=
    Expr.isClear_compare .eq (AttributeRow.isClear_column (by decide))
      (Expr.isClear_value (Literal.isClear_text hsite))
  have hamong : (Expr.among AttributeRow.keyColumn (attributes.map fun a => .text a.key)).IsClear := by
    refine Expr.isClear_among (AttributeRow.isClear_column (by decide)) fun e he => ?_
    obtain ⟨a, ha, rfl⟩ := List.mem_map.1 he
    exact Expr.isClear_literal (Literal.isClear_text (hkeys a ha))
  have hall := Expr.isClear_all (List.forall_mem_cons.2 ⟨hscope, List.forall_mem_singleton.2 hamong⟩)
  have hblock : AllClear (Condition.blockLines (Pivot.query settings site attributes).conditions) :=
    .blockLines (List.forall_mem_singleton.2 ⟨_, rfl, hall⟩)
  rw [lines_query]
  exact (((AllClear.selectLines (select_query_ne _ _ _) hitems).append
    (.table (by decide) htable (by decide))).append hblock).append
      (.groupLines (List.forall_mem_singleton.2 hevent))

theorem allClear_join (htable : IsClear (quoteTable settings.eventDataTable).toList)
    (hsite : Text.IsHarmless site.id) (hkeys : ∀ a ∈ attributes, Text.IsHarmless a.key) :
    AllClear (Query.joinLines [Pivot.join settings site attributes]) := by
  have hon : (Expr.eq (.of relation AttributeRow.eventColumn) (.of baseName "event_id")).IsClear :=
    Expr.isClear_compare .eq (Expr.isClear_of (by decide) (by decide))
      (Expr.isClear_of (by decide) (by decide))
  rw [lines_join]
  exact (AllClear.block (by decide) (by decide) (allClear_query htable hsite hkeys)).append
    (.expr (by decide) hon)

theorem isClear_value (a : Attribute) : (Pivot.value a).IsClear :=
  Expr.isClear_of (by decide) (Attribute.isIdentifier_columnId a)

end Pivot

/-! ## The projection -/

namespace Projection

variable {settings : Settings} {scope : Scope} {o : Outline}

theorem Shows.isClear {i : Item} (hi : Shows settings scope o i) (hscope : scope.registry.IsValid)
    (hzone : ∀ zone, settings.timezone = some zone → Text.IsHarmless zone) : IsClear i.chars := by
  have htime : isIdentifier scope.registry.timestampField = true :=
    Registry.isIdentifier_timestampField hscope
  have hbase : ∀ {name : String}, isIdentifier name = true → (Expr.of baseName name).IsClear :=
    fun hname => Expr.isClear_of (by decide) hname
  cases hi with
  | date =>
    have hbucket : (dateBucket settings o.granularity scope.registry.timestampField).IsClear := by
      refine Expr.isClear_call (by decide) (List.forall_mem_cons.2 ⟨?_, List.forall_mem_cons.2
        ⟨hbase htime, fun e he => ?_⟩⟩)
      · cases o.granularity.getD .day <;> exact isClear_of_not_mem (by decide)
      · obtain ⟨zone, hset, rfl⟩ := Option.map_eq_some_iff.1 (Option.mem_toList.1 he)
        exact Expr.isClear_literal (Literal.isClear_text (hzone zone hset))
    exact Item.isClear_expr hbucket (by rintro _ ⟨⟩; decide)
  | column hc => exact Item.isClear_expr (hbase (Registry.isIdentifier_of_mem hscope hc)) (by simp)
  | metric m place =>
    refine Item.isClear_expr ?_ (by rintro _ ⟨⟩; exact m.isIdentifier_outputName place)
    have hplain : ∀ {f : Aggregation}, m.function.aggregation? = some f → f.IsPlain := by
      intro f hf
      cases hfunction : m.function <;> rw [hfunction] at hf <;> cases hf <;> trivial
    rcases m.expr_cases scope (m.outputName place).1 with
      h | ⟨f, hne, ⟨c, hc, hf, h⟩ | ⟨a, -, hf, h⟩⟩
    · rw [h]
      exact Expr.isClear_countRows
    · rw [h]
      exact Expr.isClear_aggregate hne (hplain hf) (hbase (Registry.isIdentifier_of_mem hscope hc))
    · rw [h]
      exact Expr.isClear_aggregate hne (hplain hf) (Pivot.isClear_value a)
  | key ha => exact Item.isClear_expr (Pivot.isClear_value _) (by simp)
  | @folded a ha =>
    refine Item.isClear_expr ?_ (by rintro _ ⟨⟩; exact Attribute.isIdentifier_columnId a)
    have hvalue := Pivot.isClear_value a
    have hbaseName : isIdentifier baseName = true := by decide
    have hplain : ColumnRef.IsPlain ⟨baseName, scope.registry.timestampField⟩ :=
      ⟨.inr hbaseName, htime⟩
    cases a.type with
    | string => exact Expr.isClear_aggregate (by simp) hplain hvalue
    | number => exact Expr.isClear_aggregate (by simp) trivial hvalue

theorem IsGroupKey.isClear {e : Expr} (he : IsGroupKey scope e) (hscope : scope.registry.IsValid) :
    e.IsClear := by
  cases he with
  | date => exact Expr.isClear_column ⟨.inl rfl, by decide⟩
  | column hc => exact Expr.isClear_of (by decide) (Registry.isIdentifier_of_mem hscope hc)
  | «attribute» ha => exact Pivot.isClear_value _

end Projection

/-! ## The whole statement -/

namespace Plan

variable {w : Warehouse} {site : Website} {r : Report}

theorem allClear_opening (hw : w.registry.IsValid)
    (htables : ∀ name ∈ w.settings.tables, IsClear (quoteTable name).toList) (p : Plan) :
    AllClear (p.openingLines w) := by
  have hopen : '\x7b' ∉ ("WITH " ++ baseName ++ " AS (").toList := by decide
  have hselect : AllClear (Item.selectLines [.star ""]) := .fixed (by decide)
  have hnested : AllClear (Query.sourceLines "FROM " (.nested (Base.columns w p.withSession))) :=
    .block (by decide) (by decide) (Base.allClear_columns hw htables p.withSession)
  exact (AllClear.fixed hopen).append (hselect.append hnested).indent

theorem isClear_scopeLine (p : Plan) (hsite : Text.IsHarmless p.website.id) :
    IsClear p.scopeLine.chars := by
  have hcolumn : (Expr.column (.bare scopeColumn)).IsClear :=
    Expr.isClear_column ⟨.inl rfl, by decide⟩
  have hscope := Expr.isClear_compare .eq hcolumn (Expr.isClear_value (Literal.isClear_text hsite))
  have hwhere : '\x7b' ∉ "WHERE ".toList := by decide
  exact (AllClear.expr hwhere hscope).indent _ List.mem_cons_self

theorem allClear_select (hw : w.registry.IsValid) (hr : IsHarmless w r) (hsite : r.website = some site)
    (htables : ∀ name ∈ w.settings.tables, IsClear (quoteTable name).toList) :
    AllClear ((w.plan site r).selectLines w) := by
  have hfit := Projection.isFit_of w.settings (.of w.registry r.attributes) r.outline
  have hitems : ∀ i ∈ (w.plan site r).projection.select, IsClear i.chars :=
    fun i hi => (hfit.select i hi).isClear hw hr.timezone
  have hfrom : AllClear [[.fixed ("FROM " ++ baseName)]] := .fixed (by decide)
  have hkeys : ∀ a ∈ (w.plan site r).attributes, Text.IsHarmless a.key := fun a ha =>
    hr.keys a (Scope.mem_of_mem_attributes (Scope.mem_of_mem_readAttributes ha))
  have hjoins : AllClear (Query.joinLines ((w.plan site r).query w).joins) := by
    rw [Plan.joinLines_query]
    split
    · exact .nil
    · exact Pivot.allClear_join (htables _ (by simp [Settings.tables])) (hr.website site hsite) hkeys
  exact (AllClear.fixed (by decide)).append
    (((AllClear.selectLines (Plan.select_ne w site r) hitems).append hfrom).append hjoins)

theorem allClear_outer (hr : IsHarmless w r)
    (htables : ∀ name ∈ w.settings.tables, IsClear (quoteTable name).toList) :
    AllClear (w.plan site r).outerLines := by
  refine .blockLines fun c hc => ?_
  obtain ⟨f, hf, a, comparator, hres, rfl⟩ := exists_of_mem_outerConditions hc
  have hkey := hr.keys a (Scope.mem_of_mem_attributes (Scope.mem_of_resolve_attribute hres))
  exact Filter.exists_attributeCondition comparator (htables _ (by simp [Settings.tables])) hkey
    (hr.values f hf)

theorem allClear_tail (hw : w.registry.IsValid) (hsite : r.website = some site) :
    AllClear ((w.plan site r).tailLines w) := by
  have hfit := Projection.isFit_of w.settings (.of w.registry r.attributes) r.outline
  have hgroups : ∀ e ∈ (w.plan site r).projection.groupBy, e.IsClear :=
    fun e he => (hfit.groupBy e he).isClear hw
  have hplan := (SameShape.refl w r).planAlike hw hsite hsite
  exact ((AllClear.groupLines hgroups).append (.orderLines hplan.orderPlain)).append (.limitLines _)

/-- Every line of the statement of a harmless report is clear, or it is an optional filter that is
one placeholder. -/
theorem isClear_or_optional (hw : w.registry.IsValid) (hr : IsHarmless w r)
    (hsite : r.website = some site) :
    ∀ l ∈ ((w.plan site r).query w).lines, IsClear l.chars ∨
      ∃ name, isIdentifier name = true ∧ l.chars = ' ' :: ' ' :: optionalChars name.toList := by
  have htables : ∀ name ∈ w.settings.tables, IsClear (quoteTable name).toList :=
    fun name hname => isClear_quoteTable (hr.tables name hname)
  intro l hl
  rw [Plan.lines_query] at hl
  simp only [List.mem_append, List.mem_cons] at hl
  rcases hl with hl | rfl | hl | hl | hl | hl
  · exact .inl (allClear_opening hw htables _ l hl)
  · exact .inl (isClear_scopeLine _ (hr.website site hsite))
  · obtain ⟨m, hm, rfl⟩ := List.mem_map.1 hl
    obtain ⟨c, hc, hm⟩ := List.mem_flatMap.1 hm
    obtain ⟨f, hf, d, hd, rfl⟩ := exists_of_mem_baseConditions hc
    have hname := Registry.isIdentifier_of_mem hw (Scope.mem_of_resolve_column hd)
    rcases Filter.columnCondition_cases hname (hr.values f hf) with ⟨e, heq, he⟩ | heq
    · rw [heq] at hm
      exact .inl ((AllClear.always he false).indent _ (List.mem_map_of_mem hm))
    · rw [heq] at hm
      have hchars := List.mem_map_of_mem (f := Line.chars) hm
      rw [Condition.chars_optional, List.mem_singleton] at hchars
      exact .inr ⟨d.name, hname, by rw [Line.chars_indent, hchars]⟩
  · exact .inl (allClear_select hw hr hsite htables l hl)
  · exact .inl (allClear_outer hr htables l hl)
  · exact .inl (allClear_tail hw hsite l hl)

end Plan

end EventReport
