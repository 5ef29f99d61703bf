/-
# Of the attributes of one column, the first counts

The keys of two attributes may come to the same column.  The first one in the report has
it, with its key and its type, and the later ones are left out with a warning.  Apart from
that the order of the attributes is of no importance.

## What is proved

`attributes_firstCounts`, for every warehouse and every report: lists of attributes with the
same first one under each column give the same two texts and the same values of parameters,
and the same warnings but for those on attributes that are left out
(`Compiled.SameBut`).  So it is for a list without the attributes that an earlier one
rules out (`Attribute.leading`), and for any order of attributes with different columns.
The warnings on attributes that are left out are one for each of them, in order, with the
first attribute of the column as the one that is kept (`Attribute.ruledOut`).

## Shape of the proof

A scope looks attributes up by column, and finds the first (`Scope.first?_keep`).  Planning
looks at nothing of a scope but the registry and what names refer to (`Scope.Agree`), so
one congruence for each function on the way suffices.
-/
import EventReport.Proofs.Plan.Account

namespace EventReport

open Sql

namespace Attribute

/-- The first attribute before a place that has the column of the one there. -/
def earlier? (as : List Attribute) (placed : Attribute × Nat) : Option Attribute :=
  first? (as.take placed.2) placed.1.columnId

/-- The attributes whose column no earlier one has. -/
def leading (as : List Attribute) : List Attribute :=
  (as.zipIdx.filter fun placed => (earlier? as placed).isNone).map Prod.fst

/-- The attributes whose column an earlier one has, each with the first of that column. -/
def ruledOut (as : List Attribute) : List (Attribute × Attribute) :=
  as.zipIdx.filterMap fun placed => (earlier? as placed).map fun first => (placed.1, first)

theorem first?_eq_some_iff {as : List Attribute} (hdistinct : (as.map columnId).Nodup)
    {id : String} {a : Attribute} : first? as id = some a ↔ a ∈ as ∧ a.columnId = id := by
  constructor
  · intro hfirst
    exact ⟨List.mem_of_find?_eq_some hfirst, by simpa using List.find?_some hfirst⟩
  · rintro ⟨ha, rfl⟩
    have hfound : (first? as a.columnId).isSome = true :=
      List.find?_isSome.2 ⟨a, ha, beq_self_eq_true _⟩
    obtain ⟨b, hb⟩ := Option.isSome_iff_exists.1 hfound
    have hsame : b.columnId = a.columnId := by simpa using List.find?_some hb
    rw [hb, List.inj_on_of_nodup_map hdistinct (List.mem_of_find?_eq_some hb) ha hsame]

/-- Attributes with different columns are found in any order. -/
theorem first?_perm {as bs : List Attribute} (hperm : as.Perm bs)
    (hdistinct : (as.map columnId).Nodup) (id : String) : first? as id = first? bs id := by
  have hdistinct' : (bs.map columnId).Nodup := (hperm.map _).nodup_iff.1 hdistinct
  ext a
  rw [first?_eq_some_iff hdistinct, first?_eq_some_iff hdistinct', hperm.mem_iff]

/-- Of attributes with different columns none is ruled out. -/
theorem ruledOut_eq_nil {as : List Attribute} (hdistinct : (as.map columnId).Nodup) :
    ruledOut as = [] := by
  rw [ruledOut, List.filterMap_eq_nil_iff]
  rintro ⟨a, n⟩ hplaced
  have hat : as[n]? = some a := List.mk_mem_zipIdx_iff_getElem?.1 hplaced
  obtain ⟨hn, rfl⟩ := List.getElem?_eq_some_iff.1 hat
  have hsplit : as.take n ++ as[n] :: as.drop (n + 1) = as := by
    rw [List.cons_getElem_drop_succ, List.take_append_drop]
  rw [← hsplit, List.map_append, List.map_cons] at hdistinct
  have hapart := List.disjoint_of_nodup_append hdistinct
  rw [Option.map_eq_none_iff, earlier?, first?, List.find?_eq_none]
  intro b hb hsame
  refine hapart (List.mem_map_of_mem hb) ?_
  rw [beq_iff_eq.1 hsame]
  exact List.mem_cons_self

end Attribute

open Attribute (first? earlier? leading ruledOut)

/-- What is said of an attribute that an earlier one rules out. -/
def Warning.ofRuledOut (pair : Attribute × Attribute) : Warning :=
  .duplicateAttribute pair.1.key pair.2.key

/-! ## The attributes of a scope -/

namespace Scope

/-- Attributes are kept and left out by what was before them. -/
theorem keep_eq (kept before as : List Attribute)
    (hkept : ∀ id, first? kept id = first? before id) :
    keep kept as =
      (kept ++ ((as.zipIdx before.length).filter fun placed =>
          (earlier? (before ++ as) placed).isNone).map Prod.fst,
        (as.zipIdx before.length).filterMap fun placed =>
          (earlier? (before ++ as) placed).map fun first => .ofRuledOut (placed.1, first)) := by
  induction as generalizing kept before with
  | nil => simp [keep]
  | cons a as ih =>
    have hsplit : before ++ a :: as = before ++ [a] ++ as := by simp
    have hlength : before.length + 1 = (before ++ [a]).length := by simp
    have hearlier : earlier? (before ++ a :: as) (a, before.length) = first? kept a.columnId := by
      rw [earlier?, List.take_left, hkept]
    have hfind : kept.find? (·.columnId == a.columnId) = first? kept a.columnId := rfl
    rw [List.zipIdx_cons, List.filter_cons, List.filterMap_cons, hearlier, keep, hfind]
    rcases htaken : first? kept a.columnId with _ | first
    · -- the attribute is the first of its column
      have hkept' (id : String) : first? (kept ++ [a]) id = first? (before ++ [a]) id := by
        rw [Attribute.first?_append, Attribute.first?_append, hkept]
      have hrest := ih (kept ++ [a]) (before ++ [a]) hkept'
      rw [← hsplit, ← hlength] at hrest
      simp [hrest]
    · have htaken' : first? before a.columnId = some first := by rw [← hkept, htaken]
      have hkept' (id : String) : first? kept id = first? (before ++ [a]) id := by
        rw [hkept, Attribute.first?_concat_of_some htaken']
      have hrest := ih kept (before ++ [a]) hkept'
      rw [← hsplit, ← hlength] at hrest
      simp [hrest, Warning.ofRuledOut]

theorem attributes_of (registry : Registry) (as : List Attribute) :
    (Scope.of registry as).attributes = leading as := by
  show (keep [] as).1 = _
  rw [keep_eq [] [] as fun _ => rfl]
  rfl

/-- What is said of attributes is said of those that are ruled out. -/
theorem duplicates_eq (as : List Attribute) :
    duplicates as = (ruledOut as).map .ofRuledOut := by
  show (keep [] as).2 = _
  rw [keep_eq [] [] as fun _ => rfl, ruledOut, List.map_filterMap]
  simp only [Option.map_map]
  rfl

/-! ## Scopes in which names refer to the same -/

/-- Two scopes over one registry in which each name refers to the same. -/
structure Agree (s t : Scope) : Prop where
  registry : s.registry = t.registry
  resolve : ∀ name, s.resolve name = t.resolve name

theorem agree_of (registry : Registry) {as bs : List Attribute}
    (h : ∀ id, first? as id = first? bs id) :
    Agree (Scope.of registry as) (Scope.of registry bs) := by
  refine ⟨rfl, fun name => ?_⟩
  have hfirst : (Scope.of registry as).attributes.find? (·.columnId == name) =
      (Scope.of registry bs).attributes.find? (·.columnId == name) := by
    rw [← first?, ← first?, first?_attributes_of, first?_attributes_of, h]
  unfold resolve
  rw [hfirst]
  rfl

namespace Agree

variable {s t : Scope} (h : s.Agree t)

include h

theorem attribute? : s.attribute? = t.attribute? := by
  funext name
  unfold Scope.attribute?
  rw [h.resolve]

theorem isSessionColumn : s.isSessionColumn = t.isSessionColumn := by
  funext name
  unfold Scope.isSessionColumn
  rw [h.registry]

theorem readAttributes (o : Outline) : s.readAttributes o = t.readAttributes o := by
  unfold Scope.readAttributes
  rw [h.attribute?]

theorem fate (settings : Settings) : Filter.fate settings s = Filter.fate settings t := by
  funext f
  unfold Filter.fate
  rw [h.resolve]

theorem isGrouped (o : Outline) : Projection.isGrouped s o = Projection.isGrouped t o := by
  funext a
  unfold Projection.isGrouped
  rw [h.registry, h.attribute?]

theorem addGroupField (settings : Settings) (granularity : Option Granularity) :
    Projection.addGroupField settings s granularity =
      Projection.addGroupField settings t granularity := by
  funext p field
  unfold Projection.addGroupField
  rw [h.registry, h.resolve]

theorem metric_expr (name : String) (m : Metric) : m.expr s name = m.expr t name := by
  unfold Metric.expr
  simp only [h.resolve]

theorem addMetric : Projection.addMetric s = Projection.addMetric t := by
  funext p placed
  unfold Projection.addMetric
  simp only [h.metric_expr]

theorem addAttribute (o : Outline) : Projection.addAttribute s o = Projection.addAttribute t o := by
  funext p a
  unfold Projection.addAttribute
  rw [h.registry, h.isGrouped]

theorem projection (settings : Settings) (o : Outline) :
    Projection.of settings s o = Projection.of settings t o := by
  unfold Projection.of
  rw [h.registry, h.readAttributes, h.addGroupField, h.addMetric, h.addAttribute]

end Agree

end Scope

/-! ## Plans -/

/-- Compiled reports that differ at most in what is said of attributes. -/
structure Compiled.SameBut (c d : Compiled) : Prop where
  sql : c.sql = d.sql
  template : c.template = d.template
  bindings : c.bindings = d.bindings
  warnings : c.warnings.filter (·.subject ≠ .attribute) =
    d.warnings.filter (·.subject ≠ .attribute)

namespace Plan

variable (w : Warehouse) (site : Website) (r : Report)

/-- The warnings on attributes come first, and they are on those that are ruled out. -/
theorem warnings_on_attributes : (w.plan site r).warnings.filter (·.subject = .attribute) =
    (ruledOut r.attributes).map .ofRuledOut := by
  have hduplicates : (Scope.duplicates r.attributes).filter (·.subject = .attribute) =
      Scope.duplicates r.attributes := by
    rw [List.filter_eq_self]
    intro warning hw
    simp [Scope.subject_duplicates hw]
  have hfilters : (filterWarnings w r).filter (·.subject = .attribute) = [] := by
    rw [List.filter_eq_nil_iff]
    intro warning hw
    simp [subject_filterWarnings hw]
  have houtputs : (outputWarnings w r).filter (·.subject = .attribute) = [] := by
    rw [List.filter_eq_nil_iff]
    intro warning hw
    simp [Projection.subject_warnings hw]
  rw [warnings_eq, List.filter_append, List.filter_append, hduplicates, hfilters, houtputs,
    List.append_nil, List.append_nil, Scope.duplicates_eq]

theorem warnings_on_others : (w.plan site r).warnings.filter (·.subject ≠ .attribute) =
    (filterWarnings w r ++ outputWarnings w r).filter (·.subject ≠ .attribute) := by
  have hduplicates : (Scope.duplicates r.attributes).filter (·.subject ≠ .attribute) = [] := by
    rw [List.filter_eq_nil_iff]
    intro warning hw
    simp [Scope.subject_duplicates hw]
  rw [warnings_eq, List.append_assoc, List.filter_append, hduplicates, List.nil_append]

end Plan

section Compile

variable (w : Warehouse) (r : Report) {as bs : List Attribute}

/-- Only what is said of attributes changes as long as the first ones of all columns do not. -/
theorem plan_attributes (site : Website) (h : ∀ id, first? as id = first? bs id) :
    w.plan site { r with attributes := as } =
      { w.plan site { r with attributes := bs } with
        warnings := (w.plan site { r with attributes := as }).warnings } := by
  have hagree := Scope.agree_of w.registry h
  unfold Warehouse.plan
  dsimp only
  rw [hagree.isSessionColumn, hagree.fate, hagree.readAttributes, hagree.projection]
  rfl

theorem sameBut_compile (h : ∀ id, first? as id = first? bs id) :
    (w.compile { r with attributes := as }).SameBut (w.compile { r with attributes := bs }) := by
  have hagree := Scope.agree_of w.registry h
  unfold Warehouse.compile
  dsimp only
  split
  · exact ⟨rfl, rfl, rfl, rfl⟩
  · next site _ =>
    have hquery : (w.plan site { r with attributes := as }).query w =
        (w.plan site { r with attributes := bs }).query w := by
      rw [plan_attributes w r site h]
      rfl
    have hsaid : Plan.filterWarnings w { r with attributes := as } ++
          Plan.outputWarnings w { r with attributes := as } =
        Plan.filterWarnings w { r with attributes := bs } ++
          Plan.outputWarnings w { r with attributes := bs } := by
      unfold Plan.filterWarnings Plan.outputWarnings
      rw [hagree.fate, hagree.projection]
    rw [hquery]
    refine ⟨rfl, rfl, rfl, ?_⟩
    dsimp only
    rw [Plan.warnings_on_others, Plan.warnings_on_others, hsaid]

/-- What is compiled of a report is the same for its attributes in any order, if no two have the
same column. -/
theorem compile_perm (hperm : as.Perm bs) (hdistinct : (as.map Attribute.columnId).Nodup) :
    w.compile { r with attributes := as } = w.compile { r with attributes := bs } := by
  have hfirst := Attribute.first?_perm hperm hdistinct
  have hagree := Scope.agree_of w.registry hfirst
  have hdistinct' : (bs.map Attribute.columnId).Nodup := (hperm.map _).nodup_iff.1 hdistinct
  have hsilent : Scope.duplicates as = Scope.duplicates bs := by
    rw [Scope.duplicates_eq, Scope.duplicates_eq, Attribute.ruledOut_eq_nil hdistinct,
      Attribute.ruledOut_eq_nil hdistinct']
  have hplan (site : Website) :
      w.plan site { r with attributes := as } = w.plan site { r with attributes := bs } := by
    unfold Warehouse.plan
    dsimp only
    rw [hagree.isSessionColumn, hagree.fate, hagree.readAttributes, hagree.projection, hsilent]
    rfl
  unfold Warehouse.compile
  simp only [hplan]

end Compile

/-- Of the attributes of one column the first counts: attributes with the same first ones, the ones
that no earlier one rules out, and attributes with different columns in another order make the same
of a report, but for the warnings on attributes.  Those are one for each attribute that is ruled
out. -/
theorem attributes_firstCounts (w : Warehouse) (r : Report) (as : List Attribute) :
    (∀ bs, (∀ id, first? as id = first? bs id) →
      (w.compile { r with attributes := as }).SameBut (w.compile { r with attributes := bs })) ∧
    (w.compile { r with attributes := as }).SameBut
      (w.compile { r with attributes := leading as }) ∧
    (∀ bs, as.Perm bs → (as.map Attribute.columnId).Nodup →
      w.compile { r with attributes := as } = w.compile { r with attributes := bs }) ∧
    ∀ site, r.website = some site → site.isSelected = true →
      (w.compile { r with attributes := as }).warnings.filter (·.subject = .attribute) =
        (ruledOut as).map .ofRuledOut := by
  refine ⟨fun bs h => sameBut_compile w r h, sameBut_compile w r ?_,
    fun bs hperm hdistinct => compile_perm w r hperm hdistinct, ?_⟩
  · intro id
    rw [← Scope.attributes_of w.registry, Scope.first?_attributes_of]
  · intro site hsite hselected
    have hsite' : { r with attributes := as }.website = some site := hsite
    rw [Warehouse.compile_selected hsite' hselected]
    exact Plan.warnings_on_attributes w site { r with attributes := as }

/-- Keys that come to the same column, in two lists with the same first ones. -/
theorem attributes_firstCounts_mixed : ∃ r : Report, ∃ as bs : List Attribute,
    as.map Attribute.key = ["Step no", "b", "step_no", "B", "STEP-NO"] ∧
      bs.map Attribute.key = ["b", "Step no", "B"] ∧
      (Warehouse.compile {} { r with attributes := as }).SameBut
        (Warehouse.compile {} { r with attributes := bs }) ∧
      (Warehouse.compile {} { r with attributes := as }).warnings.filter
          (·.subject = .attribute) =
        [.duplicateAttribute "step_no" "Step no", .duplicateAttribute "B" "b",
          .duplicateAttribute "STEP-NO" "Step no"] := by
  let r : Report :=
    { website := some { id := "w" }
      filters := [.equals "param_step_no" "2"]
      outline := { metrics := [{ function := .sum, column := some "param_step_no" }],
                   groupBy := ["param_b"] } }
  let as : List Attribute :=
    [⟨"Step no", .number⟩, ⟨"b", .string⟩, ⟨"step_no", .string⟩, ⟨"B", .number⟩,
      ⟨"STEP-NO", .number⟩]
  let bs : List Attribute := [⟨"b", .string⟩, ⟨"Step no", .number⟩, ⟨"B", .string⟩]
  have hfirst : ∀ id, first? as id = first? bs id := by
    intro id
    by_cases hstep : "param_step_no" = id
    · subst hstep
      decide
    · by_cases hb : "param_b" = id
      · subst hb
        decide
      · have hnone {l : List Attribute}
            (hl : ∀ a ∈ l, a.columnId = "param_step_no" ∨ a.columnId = "param_b") :
            first? l id = none := by
          rw [first?, List.find?_eq_none]
          intro a ha hid
          rcases hl a ha with h | h
          · exact hstep (h.symm.trans (beq_iff_eq.1 hid))
          · exact hb (h.symm.trans (beq_iff_eq.1 hid))
        rw [hnone (by decide), hnone (by decide)]
  obtain ⟨hsame, -, -, hsaid⟩ := attributes_firstCounts {} r as
  exact ⟨r, as, bs, rfl, rfl, hsame bs hfirst, (hsaid { id := "w" } rfl (by decide)).trans (by decide)⟩

end EventReport
