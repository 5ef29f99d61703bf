/-
# What is sent for a report comes back

A report arrives as JSON values: lists of filters, attributes and variables, a website and an
outline.

## What is proved

`inputs_comeBack`: each of them is read back from the value in which it is written, whatever
the texts in it, and from the text of that value; and the members of its objects may have been
put in another order on the way.

An operator or a function that is not known is written as it was spelled.  It is read back
only if no name matches that spelling (`Operator.ofName_name`), which is so if it has been read
itself: the operator `unknown "eq"` would come back as `equals`.

## How

Each kind of value has a lemma `gives_encode`.  The order of members is dealt with by
`gives_record`, so these lemmas go through the members as they are written; what is not written
is filled in by the last step of the reader.  Variables are read in their own way
(`learnNames_eq`): the names are learnt as in a record, and the other members, in whatever
order, are looked at for the kind afterwards.
-/
import EventReport.Dashboard.Json
import EventReport.Report.Json
import EventReport.Proofs.Json.Order

namespace EventReport

open Json (Gives Learns Independent ComesBack gives_string gives_list gives_option gives_optional
  gives_map gives_named gives_record learnMembers_perm ofMembers_perm areNumberless_map
  eq_of_reorderedMembers)

/-! ## Operators and functions -/

theorem Operator.ofName_cases (s : String) :
    Operator.ofName s = .unknown s ∨ (Operator.ofName s).isKnown = true := by
  unfold ofName
  split <;> simp [isKnown]

theorem Operator.ofName_name {o : Operator} (h : ∃ s, Operator.ofName s = o) :
    Operator.ofName o.name = o := by
  obtain ⟨s, rfl⟩ := h
  rcases ofName_cases s with hs | hs
  · rw [hs, name, hs]
  · generalize ofName s = o at hs
    cases o with
    | unknown => cases hs
    | _ => decide +kernel

theorem MetricFunction.ofName_cases (s : String) :
    MetricFunction.ofName s = .unknown s ∨ (MetricFunction.ofName s).isKnown = true := by
  unfold ofName
  split <;> simp [isKnown]

theorem MetricFunction.ofName_name {f : MetricFunction} (h : ∃ s, MetricFunction.ofName s = f) :
    MetricFunction.ofName f.name = f := by
  obtain ⟨s, rfl⟩ := h
  rcases ofName_cases s with hs | hs
  · rw [hs, name, hs]
  · generalize ofName s = f at hs
    cases f with
    | unknown => cases hs
    | _ => decide +kernel

/-! ## Filters -/

namespace Filter

theorem independent_fields : Independent Filter.fields := by
  constructor
  · simp [fields, Json.Field.remembers_at]
  · simp [fields, Json.Field.ignores_at]

theorem gives_value (s : String) : Gives decodeValue (.str s) (some s) := by
  rintro _ rfl
  rfl

theorem gives_encode {f : Filter} (h : ∃ s, Operator.ofName s = f.operator) :
    Gives decode f.encode f := by
  obtain ⟨column, operator, value, values⟩ := f
  have hoperator := gives_map Operator.ofName (gives_string operator.name)
  rw [Operator.ofName_name h] at hoperator
  have hvalues : Gives (Json.decodeList Json.decodeString) (.arr (values.map .str)) values :=
    gives_list fun v _ => gives_string v
  cases value with
  | none =>
    cases values with
    | nil =>
      exact gives_record independent_fields
        (.cons rfl rfl (gives_string column) <| .cons rfl rfl hoperator .nil) rfl
    | cons v vs =>
      exact gives_record independent_fields
        (.cons rfl rfl (gives_string column) <| .cons rfl rfl hoperator <|
          .cons rfl rfl hvalues .nil) rfl
  | some value =>
    cases values with
    | nil =>
      exact gives_record independent_fields
        (.cons rfl rfl (gives_string column) <| .cons rfl rfl hoperator <|
          .cons rfl rfl (gives_value value) .nil) rfl
    | cons v vs =>
      exact gives_record independent_fields
        (.cons rfl rfl (gives_string column) <| .cons rfl rfl hoperator <|
          .cons rfl rfl (gives_value value) <| .cons rfl rfl hvalues .nil) rfl

end Filter

/-! ## Attributes -/

namespace Attribute

theorem independent_fields : Independent Attribute.fields := by
  constructor
  · simp [fields, Json.Field.remembers_at]
  · simp [fields, Json.Field.ignores_at]

theorem gives_type (type : AttributeType) :
    Gives (Json.decodeNamed AttributeType.names) (.str type.name) type :=
  gives_named (by cases type <;> rfl)

theorem gives_encode (a : Attribute) : Gives decode a.encode a :=
  gives_record independent_fields
    (.cons rfl rfl (gives_string a.key) <| .cons rfl rfl (gives_type a.type) .nil) rfl

end Attribute

/-! ## Outlines -/

namespace Metric

theorem independent_fields : Independent Metric.fields := by
  constructor
  · simp [fields, Json.Field.remembers_at]
  · simp [fields, Json.Field.ignores_at]

theorem gives_text (s : String) :
    Gives (Json.decodeOption Json.decodeString) (.str s) (some s) :=
  gives_option nofun (gives_string s)

theorem gives_encode {m : Metric} (h : ∃ s, MetricFunction.ofName s = m.function) :
    Gives decode m.encode m := by
  obtain ⟨function, column, name⟩ := m
  have hfunction := gives_map MetricFunction.ofName (gives_string function.name)
  rw [MetricFunction.ofName_name h] at hfunction
  cases column with
  | none =>
    cases name with
    | none => exact gives_record independent_fields (.cons rfl rfl hfunction .nil) rfl
    | some name =>
      exact gives_record independent_fields
        (.cons rfl rfl hfunction <| .cons rfl rfl (gives_text name) .nil) rfl
  | some column =>
    cases name with
    | none =>
      exact gives_record independent_fields
        (.cons rfl rfl hfunction <| .cons rfl rfl (gives_text column) .nil) rfl
    | some name =>
      exact gives_record independent_fields
        (.cons rfl rfl hfunction <| .cons rfl rfl (gives_text column) <|
          .cons rfl rfl (gives_text name) .nil) rfl

end Metric

namespace OrderBy

theorem independent_fields : Independent OrderBy.fields := by
  constructor
  · simp [fields, Json.Field.remembers_at]
  · simp [fields, Json.Field.ignores_at]

theorem gives_direction (direction : Sql.Direction) :
    Gives (Json.decodeNamed Sql.Direction.names) (.str direction.name) direction :=
  gives_named (by cases direction <;> rfl)

theorem gives_encode (o : OrderBy) : Gives decode o.encode o :=
  gives_record independent_fields
    (.cons rfl rfl (gives_string o.column) <| .cons rfl rfl (gives_direction o.direction) .nil) rfl

end OrderBy

namespace Outline

theorem independent_fields : Independent Outline.fields := by
  constructor
  · simp [fields, Json.Field.remembers_at]
  · simp [fields, Json.Field.ignores_at]

theorem gives_granularity (g : Granularity) :
    Gives (Json.decodeNamed Granularity.names) (.str g.name) g :=
  gives_named (by cases g <;> rfl)

theorem gives_encode {o : Outline}
    (h : ∀ m ∈ o.metrics, ∃ s, MetricFunction.ofName s = m.function) :
    Gives decode o.encode o := by
  have hmetrics : Gives (Json.decodeList Metric.decode) (.arr (o.metrics.map Metric.encode))
      o.metrics := gives_list fun m hm => Metric.gives_encode (h m hm)
  have hgroups : Gives (Json.decodeList Json.decodeString) (.arr (o.groupBy.map .str))
      o.groupBy := gives_list fun s _ => gives_string s
  have horder : Gives (Json.decodeOption OrderBy.decode)
      ((o.orderBy.map OrderBy.encode).getD .null) o.orderBy :=
    gives_optional nofun fun b _ => OrderBy.gives_encode b
  have hgranularity : Gives (Json.decodeOption (Json.decodeNamed Granularity.names))
      ((o.granularity.map fun g => Json.str g.name).getD .null) o.granularity :=
    gives_optional nofun fun g _ => gives_granularity g
  exact gives_record independent_fields
    (.cons rfl rfl hmetrics <| .cons rfl rfl hgroups <| .cons rfl rfl horder <|
      .cons rfl rfl hgranularity .nil) rfl

end Outline

/-! ## Websites -/

namespace Website

theorem independent_fields : Independent Website.fields := by
  constructor
  · simp [fields, Json.Field.remembers_at]
  · simp [fields, Json.Field.ignores_at]

theorem gives_encode (w : Website) : Gives decode w.encode w := by
  obtain ⟨id, name, domain⟩ := w
  cases domain with
  | none =>
    exact gives_record independent_fields
      (.cons rfl rfl (gives_string id) <| .cons rfl rfl (gives_string name) .nil) rfl
  | some domain =>
    exact gives_record independent_fields
      (.cons rfl rfl (gives_string id) <| .cons rfl rfl (gives_string name) <|
        .cons rfl rfl (gives_option nofun (gives_string domain)) .nil) rfl

end Website

/-! ## Variables -/

namespace Dashboard.Variable

/-- What is known of the names: the name, and the name for display. -/
abbrev Names := Option String × Option String

def nameFields : List (Json.Field Json Names) := [
  .at "name" Prod.fst (fun n a => (some a, n.2)) Json.decodeString,
  .at "displayName" Prod.snd (fun n a => (n.1, some a)) Json.decodeString]

/-- Whether a member is kept for the kind. -/
def isOther (m : String × Json) : Bool := m.1 != "name" && m.1 != "displayName"

def isKept (v : Json) : Bool := v.isSound && v.depth ≤ maxMemberDepth

/-- The names are learnt as those of a record, and the other members are kept beside them. -/
theorem learnNames_eq (d : Draft) (ms : List (String × Json)) :
    learnNames d ms =
      (do
        let n ← Json.learnMembers isKept nameFields (d.name, d.displayName) ms
        return ⟨n.1, n.2, (ms.filter isOther).reverse ++ d.others⟩) := by
  induction ms generalizing d with
  | nil => rfl
  | cons m ms ih =>
    obtain ⟨key, v⟩ := m
    obtain ⟨name, displayName, others⟩ := d
    rw [learnNames, Json.learnMembers]
    by_cases hname : key = "name"
    · subst hname
      cases name with
      | some name => rfl
      | none =>
        cases v with
        | str s => exact ih ⟨some s, displayName, others⟩
        | _ => rfl
    · by_cases hdisplay : key = "displayName"
      · subst hdisplay
        cases displayName with
        | some displayName => rfl
        | none =>
          cases v with
          | str s => exact ih ⟨name, some s, others⟩
          | _ => rfl
      · have hfind : nameFields.find? (·.name == key) = none := by
          simp [nameFields, Json.Field.at, Ne.symm hname, Ne.symm hdisplay]
        have hother : isOther (key, v) = true := by simp [isOther, hname, hdisplay]
        rw [if_neg hname, if_neg hdisplay, hfind, ih, List.filter_cons_of_pos hother]
        show (if isKept v then _ else _) = _
        cases isKept v with
        | true => simp
        | false => rfl

theorem independent_nameFields : Independent nameFields := by
  constructor
  · simp [nameFields, Json.Field.remembers_at]
  · simp [nameFields, Json.Field.ignores_at]

theorem independent_kindFields : Independent kindFields := by
  constructor
  · simp [kindFields, Json.Field.remembers_at]
  · simp [kindFields]

theorem independent_columnFields : Independent columnFields := by
  constructor
  · simp [columnFields, Json.Field.remembers_at]
  · simp [columnFields]

/-- The members are looked at once for the kind, and for a field filter once more. -/
theorem decodeKind_perm {ms ns : List (String × Json)} (hperm : ms.Perm ns) {k : VariableKind}
    (h : decodeKind ms = .ok k) : decodeKind ns = .ok k := by
  obtain ⟨kind, hkind, h⟩ := bind_eq_ok_iff.1 h
  have hkind := ofMembers_perm independent_kindFields hperm hkind
  refine bind_eq_ok_iff.2 ⟨kind, hkind, ?_⟩
  cases kind with
  | some kind => exact h
  | none =>
    obtain ⟨column, hcolumn, h⟩ := bind_eq_ok_iff.1 h
    exact bind_eq_ok_iff.2 ⟨column, ofMembers_perm independent_columnFields hperm hcolumn, h⟩

theorem decode_perm {ms ns : List (String × Json)} (hperm : ms.Perm ns) {v : Variable}
    (h : decode (.obj ms) = .ok v) : decode (.obj ns) = .ok v := by
  obtain ⟨d, hnames, h⟩ := bind_eq_ok_iff.1 h
  rw [learnNames_eq] at hnames
  obtain ⟨n, hlearn, hd⟩ := bind_eq_ok_iff.1 hnames
  obtain rfl := Except.ok.inj hd
  obtain ⟨name, hname, h⟩ := bind_eq_ok_iff.1 h
  obtain ⟨kind, hkind, h⟩ := bind_eq_ok_iff.1 h
  have hnames : learnNames {} ns = .ok ⟨n.1, n.2, (ns.filter isOther).reverse ++ []⟩ := by
    rw [learnNames_eq]
    exact bind_eq_ok_iff.2 ⟨n, learnMembers_perm independent_nameFields hperm hlearn, rfl⟩
  have hkind : decodeKind ((ns.filter isOther).reverse ++ []).reverse = .ok kind := by
    refine decodeKind_perm ?_ hkind
    -- they are kept last one first
    simpa using hperm.filter isOther
  exact bind_eq_ok_iff.2 ⟨_, hnames, bind_eq_ok_iff.2 ⟨name, hname,
    bind_eq_ok_iff.2 ⟨kind, hkind, h⟩⟩⟩

theorem gives_encode (v : Variable) : Gives decode v.encode v := by
  obtain ⟨name, displayName, kind⟩ := v
  rintro _ ⟨ms, ns, rfl, hms, hperm⟩
  rw [eq_of_reorderedMembers hms (by cases kind <;> simp)] at hperm
  exact decode_perm hperm (by cases kind <;> rfl)

end Dashboard.Variable

/-! ## Texts -/

section Numberless

open Json (isNumberless areNumberless membersAreNumberless areNumberless_strings)

theorem Filter.isNumberless_encode (f : Filter) : f.encode.isNumberless = true := by
  obtain ⟨column, operator, value, values⟩ := f
  cases value <;> cases values <;>
    simp [encode, optionalMember, isNumberless, areNumberless, membersAreNumberless,
      areNumberless_strings]

theorem Attribute.isNumberless_encode (a : Attribute) : a.encode.isNumberless = true := rfl

theorem Metric.isNumberless_encode (m : Metric) : m.encode.isNumberless = true := by
  obtain ⟨function, column, name⟩ := m
  cases column <;> cases name <;> rfl

theorem Outline.isNumberless_encode (o : Outline) : o.encode.isNumberless = true := by
  obtain ⟨metrics, groupBy, orderBy, granularity⟩ := o
  cases orderBy <;> cases granularity <;>
    simp [encode, OrderBy.encode, isNumberless, membersAreNumberless, areNumberless_map,
      areNumberless_strings, Metric.isNumberless_encode]

theorem Website.isNumberless_encode (w : Website) : w.encode.isNumberless = true := by
  obtain ⟨id, name, domain⟩ := w
  cases domain <;> rfl

theorem Dashboard.Variable.isNumberless_encode (v : Variable) : v.encode.isNumberless = true := by
  obtain ⟨name, displayName, kind⟩ := v
  cases kind <;> rfl

end Numberless

/-- What is sent for a report comes back, if operators and functions were read from spellings. -/
theorem inputs_comeBack (filters : List Filter) (attributes : List Attribute)
    (vars : List Dashboard.Variable) (website : Website) (outline : Outline)
    (hfilters : ∀ f ∈ filters, ∃ s, Operator.ofName s = f.operator)
    (hmetrics : ∀ m ∈ outline.metrics, ∃ s, MetricFunction.ofName s = m.function) :
    ComesBack (Json.decodeList Filter.decode) (.arr (filters.map Filter.encode)) filters ∧
      ComesBack (Json.decodeList Attribute.decode) (.arr (attributes.map Attribute.encode))
        attributes ∧
      ComesBack (Json.decodeList Dashboard.Variable.decode)
        (.arr (vars.map Dashboard.Variable.encode)) vars ∧
      ComesBack Website.decode website.encode website ∧
      ComesBack Outline.decode outline.encode outline := by
  refine ⟨?_, ?_, ?_, ?_, ?_⟩
  · have h := gives_list fun f hf => Filter.gives_encode (hfilters f hf)
    exact h.comesBack (areNumberless_map Filter.isNumberless_encode filters)
  · have h := gives_list fun a (_ : a ∈ attributes) => Attribute.gives_encode a
    exact h.comesBack (areNumberless_map Attribute.isNumberless_encode attributes)
  · have h := gives_list fun v (_ : v ∈ vars) => Dashboard.Variable.gives_encode v
    exact h.comesBack (areNumberless_map Dashboard.Variable.isNumberless_encode vars)
  · exact (Website.gives_encode website).comesBack website.isNumberless_encode
  · exact (Outline.gives_encode hmetrics).comesBack outline.isNumberless_encode

theorem inputs_comeBack_regexp :
    let filters : List Filter := [
      ⟨"url_path", .unknown "REGEXP", some "\"a\\b\"\n\t\u0001", []⟩,
      ⟨"event_name", .isNull, none, ["", "æ"]⟩]
    let attributes : List Attribute := [⟨"price", .number⟩, ⟨"", .string⟩]
    let vars : List Dashboard.Variable := [
      ⟨"sti", "URL-sti", .fieldFilter "url_path"⟩, ⟨"dag", "", .date⟩]
    let website : Website := ⟨"17", "null", some ""⟩
    let outline : Outline := ⟨
      [⟨.unknown "p95", none, some "metric_1"⟩, ⟨.average, some "price", none⟩],
      ["created_at"], some ⟨"metric_1", .asc⟩, none⟩
    ComesBack (Json.decodeList Filter.decode) (.arr (filters.map Filter.encode)) filters ∧
      ComesBack (Json.decodeList Attribute.decode) (.arr (attributes.map Attribute.encode))
        attributes ∧
      ComesBack (Json.decodeList Dashboard.Variable.decode)
        (.arr (vars.map Dashboard.Variable.encode)) vars ∧
      ComesBack Website.decode website.encode website ∧
      ComesBack Outline.decode outline.encode outline := by
  intro filters attributes vars website outline
  refine inputs_comeBack filters attributes vars website outline ?_ ?_
  · exact List.forall_mem_cons.2 ⟨⟨"REGEXP", by decide +kernel⟩,
      List.forall_mem_cons.2 ⟨⟨" IS_NULL", by decide +kernel⟩, List.forall_mem_nil _⟩⟩
  · exact List.forall_mem_cons.2 ⟨⟨"p95", by decide +kernel⟩,
      List.forall_mem_cons.2 ⟨⟨"Avg", by decide +kernel⟩, List.forall_mem_nil _⟩⟩

end EventReport
