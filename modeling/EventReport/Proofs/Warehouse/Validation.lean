/-
# Which registries are valid, and what is wrong with the others

A registry is looked at column by column.  The first column that breaks a rule decides, and
the timestamp field is looked at only if there is none.

## What is proved

`validate_iff`, for every registry: it is accepted exactly if each column has a plain name
that no other column has and, if it is computed, one that has an expression
(`AreGood`), and one of the columns of events is the timestamp field (`HasTimestamp`).  It is
refused with a fault exactly if that is its first one (`IsFirstFault`): there is a good run of
columns from the front and a rule that the next one breaks, or all columns are good and the
timestamp field is missing.

Of the rules that one column breaks, the first counts: its name, then the columns before it,
then its expression.  `Breaks` has a constructor for each, with what the ones before it ask.

## Shape of the proof

The names of the columns before are kept last one first, and only whether a name is among
them is ever asked.  So every lemma on a run of columns is about any list of names that has
the same ones as the columns before, which are good themselves; it goes by induction on the
columns after.
-/
import EventReport.Warehouse.Registry
import EventReport.Proofs.Text.Character

namespace EventReport

/-! ## Plain names -/

namespace Text

/-- A name of the form `[A-Za-z_][A-Za-z0-9_]*`. -/
def IsPlainName (name : String) : Prop :=
  ∃ c cs, name.toList = c :: cs ∧
    ((('A' ≤ c ∧ c ≤ 'Z') ∨ ('a' ≤ c ∧ c ≤ 'z')) ∨ c = '_') ∧
    ∀ d ∈ cs, ((('A' ≤ d ∧ d ≤ 'Z') ∨ ('a' ≤ d ∧ d ≤ 'z')) ∨ ('0' ≤ d ∧ d ≤ '9')) ∨ d = '_'

theorem isIdentifier_iff {name : String} : isIdentifier name = true ↔ IsPlainName name := by
  rw [isIdentifier, isIdentifierChars_iff]
  simp only [isIdentifierStart, isIdentifierChar, Char.isAlphanum, Char.isAlpha, Char.isUpper,
    Char.isLower, Char.isDigit, Bool.or_eq_true, Bool.and_eq_true, decide_eq_true_eq, beq_iff_eq]
  exact Iff.rfl

end Text

open Text

/-- A computed column has an expression if it is called like one. -/
theorem Column.computed?_eq_none_iff {c : Column} (hc : c.table = .computed) :
    c.computed? = none ↔ ∀ k : Computed, k.columnName ≠ c.name := by
  have hall : ∀ k : Computed, k ∈ Computed.list := by intro k; cases k <;> decide
  rw [Column.computed?, hc]
  show Computed.list.find? (·.columnName == c.name) = none ↔ _
  simp only [List.find?_eq_none, beq_iff_eq]
  exact ⟨fun h k => h k (hall k), fun h k _ => h k⟩

namespace Registry

/-! ## The rules -/

/-- Columns that break no rule. -/
structure AreGood (cs : List Column) : Prop where
  names : ∀ c ∈ cs, IsPlainName c.name
  distinct : (cs.map Column.name).Nodup
  computed : ∀ c ∈ cs, c.table = .computed → ∃ k : Computed, k.columnName = c.name

/-- The rule that a column breaks after others. -/
inductive Breaks (earlier : List Column) (c : Column) : Fault → Prop
  | name : ¬IsPlainName c.name → Breaks earlier c (.invalidName c.name)
  | repeated : IsPlainName c.name → c.name ∈ earlier.map Column.name →
      Breaks earlier c (.duplicateColumn c.name)
  | computed : IsPlainName c.name → c.name ∉ earlier.map Column.name → c.table = .computed →
      (∀ k : Computed, k.columnName ≠ c.name) → Breaks earlier c (.unknownComputed c.name)

/-- The timestamp field is a column of events. -/
def HasTimestamp (r : Registry) : Prop :=
  ∃ c ∈ r.columns, c.name = r.timestampField ∧ c.table = .event

/-- What is wrong with a registry in the first place. -/
inductive IsFirstFault (r : Registry) : Fault → Prop
  | column {earlier later : List Column} {c : Column} {fault : Fault} :
      r.columns = earlier ++ c :: later → AreGood earlier → Breaks earlier c fault →
      IsFirstFault r fault
  | timestamp : AreGood r.columns → ¬r.HasTimestamp →
      IsFirstFault r (.missingTimestamp r.timestampField)

/-! ## One column -/

theorem areGood_nil : AreGood [] := ⟨by simp, by simp, by simp⟩

/-- A column breaks no rule, or one. -/
theorem areGood_concat_iff {earlier : List Column} (h : AreGood earlier) {c : Column} :
    AreGood (earlier ++ [c]) ↔ ∀ fault, ¬Breaks earlier c fault := by
  constructor
  · rintro ⟨hnames, hdistinct, hcomputed⟩ fault hfault
    rw [List.map_append, List.nodup_append] at hdistinct
    cases hfault with
    | name hname => exact hname (hnames c (by simp))
    | repeated _ hmem => exact hdistinct.2.2 _ hmem _ (by simp) rfl
    | computed _ _ htable hnone =>
      obtain ⟨k, hk⟩ := hcomputed c (by simp) htable
      exact hnone k hk
  · intro hbreaks
    have hname : IsPlainName c.name := Classical.not_not.1 fun hname => hbreaks _ (.name hname)
    have hnew : c.name ∉ earlier.map Column.name := fun hmem => hbreaks _ (.repeated hname hmem)
    refine ⟨?_, ?_, ?_⟩
    · intro d hd
      rcases List.mem_append.1 hd with hd | hd
      · exact h.names d hd
      · rwa [List.mem_singleton.1 hd]
    · rw [List.map_append, List.nodup_append]
      refine ⟨h.distinct, by simp, ?_⟩
      intro name hmem d hd
      obtain rfl := List.mem_singleton.1 hd
      exact fun heq => hnew (heq ▸ hmem)
    · intro d hd htable
      rcases List.mem_append.1 hd with hd | hd
      · exact h.computed d hd htable
      · obtain rfl := List.mem_singleton.1 hd
        exact Classical.not_forall_not.1 fun hnone => hbreaks _ (.computed hname hnew htable hnone)

theorem AreGood.of_append {cs ds : List Column} (h : AreGood (cs ++ ds)) : AreGood cs :=
  ⟨fun c hc => h.names c (List.mem_append_left ds hc),
    List.Nodup.of_append_left (List.map_append ▸ h.distinct),
    fun c hc => h.computed c (List.mem_append_left ds hc)⟩

section Run

variable {names : List String} {earlier : List Column}
  (hnames : ∀ name, name ∈ names ↔ name ∈ earlier.map Column.name)

include hnames

theorem columnFault?_eq_some_iff {c : Column} {fault : Fault} :
    columnFault? names c = some fault ↔ Breaks earlier c fault := by
  unfold columnFault?
  constructor
  · intro h
    split at h
    · next hname =>
      obtain rfl := Option.some.inj h
      exact .name (by simpa [← isIdentifier_iff] using hname)
    split at h
    · next hname hmem =>
      obtain rfl := Option.some.inj h
      exact .repeated (by simpa [← isIdentifier_iff] using hname) ((hnames _).1 hmem)
    split at h
    · next hname hmem hcomputed =>
      obtain rfl := Option.some.inj h
      exact .computed (by simpa [← isIdentifier_iff] using hname) (mt (hnames _).2 hmem)
        hcomputed.1 ((Column.computed?_eq_none_iff hcomputed.1).1 hcomputed.2)
    · cases h
  · intro h
    cases h with
    | name hname => rw [if_pos (by simpa [← isIdentifier_iff] using hname)]
    | repeated hname hmem =>
      rw [if_neg (by simpa [← isIdentifier_iff] using hname), if_pos ((hnames _).2 hmem)]
    | computed hname hmem htable hnone =>
      rw [if_neg (by simpa [← isIdentifier_iff] using hname), if_neg (mt (hnames _).1 hmem),
        if_pos ⟨htable, (Column.computed?_eq_none_iff htable).2 hnone⟩]

/-! ## A run of columns -/

/-- The names are kept with that of the column that was looked at. -/
theorem mem_cons_iff_mem_concat (c : Column) (name : String) :
    name ∈ c.name :: names ↔ name ∈ (earlier ++ [c]).map Column.name := by
  simp [hnames name, or_comm]

end Run

theorem columnsFault?_eq_none_iff {names : List String} {earlier cs : List Column}
    (hnames : ∀ name, name ∈ names ↔ name ∈ earlier.map Column.name) (h : AreGood earlier) :
    columnsFault? names cs = none ↔ AreGood (earlier ++ cs) := by
  induction cs generalizing names earlier with
  | nil => simpa [columnsFault?] using h
  | cons c cs ih =>
    have hsplit : earlier ++ c :: cs = (earlier ++ [c]) ++ cs := by simp
    rw [columnsFault?, hsplit]
    split
    · next fault hfault =>
      have hbreaks := (columnFault?_eq_some_iff hnames).1 hfault
      exact ⟨nofun, fun hgood => ((areGood_concat_iff h).1 hgood.of_append _ hbreaks).elim⟩
    · next hfault =>
      have hgood : AreGood (earlier ++ [c]) := (areGood_concat_iff h).2 fun fault hbreaks => by
        rw [(columnFault?_eq_some_iff hnames).2 hbreaks] at hfault
        cases hfault
      exact ih (mem_cons_iff_mem_concat hnames c) hgood

theorem columnsFault?_eq_some_iff {names : List String} {earlier cs : List Column} {fault : Fault}
    (hnames : ∀ name, name ∈ names ↔ name ∈ earlier.map Column.name) (h : AreGood earlier) :
    columnsFault? names cs = some fault ↔
      ∃ good c later, cs = good ++ c :: later ∧ AreGood (earlier ++ good) ∧
        Breaks (earlier ++ good) c fault := by
  induction cs generalizing names earlier with
  | nil => simp [columnsFault?]
  | cons c cs ih =>
    rw [columnsFault?]
    split
    · next first hfirst =>
      have hbreaks := (columnFault?_eq_some_iff hnames).1 hfirst
      constructor
      · intro hsome
        obtain rfl := Option.some.inj hsome
        exact ⟨[], c, cs, rfl, by simpa using h, by simpa using hbreaks⟩
      · rintro ⟨good, d, later, hcs, hgood, hfault⟩
        cases good with
        | nil =>
          obtain ⟨rfl, rfl⟩ := List.cons.inj hcs
          rw [List.append_nil] at hfault
          rw [← (columnFault?_eq_some_iff hnames).2 hfault, hfirst]
        | cons e good =>
          obtain ⟨rfl, rfl⟩ := List.cons.inj hcs
          rw [List.append_cons] at hgood
          exact ((areGood_concat_iff h).1 hgood.of_append _ hbreaks).elim
    · next hnone =>
      have hbreaks : ∀ fault, ¬Breaks earlier c fault := fun fault hbreaks => by
        rw [(columnFault?_eq_some_iff hnames).2 hbreaks] at hnone
        cases hnone
      rw [ih (mem_cons_iff_mem_concat hnames c) ((areGood_concat_iff h).2 hbreaks)]
      constructor
      · rintro ⟨good, d, later, rfl, hgood, hfault⟩
        rw [← List.append_cons] at hgood hfault
        exact ⟨c :: good, d, later, rfl, hgood, hfault⟩
      · rintro ⟨good, d, later, hcs, hgood, hfault⟩
        cases good with
        | nil =>
          obtain ⟨rfl, rfl⟩ := List.cons.inj hcs
          rw [List.append_nil] at hfault
          exact (hbreaks _ hfault).elim
        | cons e good =>
          obtain ⟨rfl, rfl⟩ := List.cons.inj hcs
          rw [List.append_cons] at hgood hfault
          exact ⟨good, d, later, rfl, hgood, hfault⟩

/-! ## The whole registry -/

/-- Where no name is repeated, the first column of a name is the only one. -/
theorem hasTimestamp_iff {r : Registry} (h : AreGood r.columns) :
    r.HasTimestamp ↔ ∃ c, r.find? r.timestampField = some c ∧ c.table = .event := by
  constructor
  · rintro ⟨c, hc, hname, htable⟩
    cases hfind : r.find? r.timestampField with
    | none => exact absurd hname (by simpa using List.find?_eq_none.1 hfind c hc)
    | some d =>
      have hd : d.name = r.timestampField := by simpa using List.find?_some hfind
      obtain rfl := List.inj_on_of_nodup_map h.distinct hc (List.mem_of_find?_eq_some hfind)
        (hname.trans hd.symm)
      exact ⟨c, rfl, htable⟩
  · rintro ⟨c, hfind, htable⟩
    exact ⟨c, List.mem_of_find?_eq_some hfind, by simpa using List.find?_some hfind, htable⟩

section Whole

variable {r : Registry}

theorem columnsFault?_nil_eq_none_iff : columnsFault? [] r.columns = none ↔ AreGood r.columns :=
  columnsFault?_eq_none_iff (by simp) areGood_nil

theorem fault?_of_columnsFault? {fault : Fault} (h : columnsFault? [] r.columns = some fault) :
    r.fault? = some fault := by
  rw [fault?, h]

/-- What is left to look at once the columns are good. -/
theorem fault?_of_areGood (h : AreGood r.columns) :
    (r.fault? = none ∧ r.HasTimestamp) ∨
      (r.fault? = some (.missingTimestamp r.timestampField) ∧ ¬r.HasTimestamp) := by
  rw [fault?, columnsFault?_nil_eq_none_iff.2 h, hasTimestamp_iff h]
  cases hfind : r.find? r.timestampField with
  | none => exact .inr ⟨rfl, by simp⟩
  | some c =>
    by_cases htable : c.table = .event
    · exact .inl ⟨if_pos htable, c, rfl, htable⟩
    · refine .inr ⟨if_neg htable, ?_⟩
      rintro ⟨d, hd, hevent⟩
      exact htable (Option.some.inj hd ▸ hevent)

theorem fault?_eq_none_iff : r.fault? = none ↔ AreGood r.columns ∧ r.HasTimestamp := by
  constructor
  · intro h
    have hgood : AreGood r.columns := by
      rw [← columnsFault?_nil_eq_none_iff]
      cases hcolumns : columnsFault? [] r.columns with
      | none => rfl
      | some fault =>
        rw [fault?_of_columnsFault? hcolumns] at h
        cases h
    rcases fault?_of_areGood hgood with ⟨-, htime⟩ | ⟨hfault, -⟩
    · exact ⟨hgood, htime⟩
    · rw [hfault] at h
      cases h
  · rintro ⟨hgood, htime⟩
    exact ((fault?_of_areGood hgood).resolve_right fun h => h.2 htime).1

theorem fault?_eq_some_iff {fault : Fault} : r.fault? = some fault ↔ r.IsFirstFault fault := by
  constructor
  · intro h
    cases hcolumns : columnsFault? [] r.columns with
    | some first =>
      obtain rfl := Option.some.inj ((fault?_of_columnsFault? hcolumns).symm.trans h)
      obtain ⟨good, c, later, hsplit, hgood, hbreaks⟩ :=
        (columnsFault?_eq_some_iff (by simp) areGood_nil).1 hcolumns
      exact .column hsplit hgood hbreaks
    | none =>
      have hgood := columnsFault?_nil_eq_none_iff.1 hcolumns
      rcases fault?_of_areGood hgood with ⟨hnone, -⟩ | ⟨hfault, htime⟩
      · rw [hnone] at h
        cases h
      · obtain rfl := Option.some.inj (hfault.symm.trans h)
        exact .timestamp hgood htime
  · intro h
    cases h with
    | column hsplit hgood hbreaks =>
      exact fault?_of_columnsFault? ((columnsFault?_eq_some_iff (by simp) areGood_nil).2 ⟨_, _, _, hsplit, hgood, hbreaks⟩)
    | timestamp hgood htime =>
      exact ((fault?_of_areGood hgood).resolve_left fun h => htime h.2).1

end Whole

/-- A valid registry is accepted, and any other is refused for its first fault. -/
theorem validate_iff (r : Registry) :
    (r.validate = .ok () ↔ AreGood r.columns ∧ r.HasTimestamp) ∧
      ∀ fault, r.validate = .error fault ↔ r.IsFirstFault fault := by
  rw [← fault?_eq_none_iff, validate]
  constructor
  · cases r.fault? with
    | none => simp
    | some fault => simp
  · intro fault
    rw [← fault?_eq_some_iff]
    cases r.fault? with
    | none => simp
    | some first => simp

end Registry

end EventReport
