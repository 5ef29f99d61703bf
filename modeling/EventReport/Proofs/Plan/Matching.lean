/-
# A filter on a part of a text keeps the texts that have it

A filter may ask for the texts that contain a value of the user, begin with it or end with
it.  The value becomes a pattern, the pattern a literal of the statement, and each of the
two writes a backslash before some characters, so a value with backslashes, wildcards or
quotes goes through two escapes.

## What is proved

`likeFilter_keeps`: the pattern made of any text matches literally.  And for each such
filter on a column or on an attribute, with a value that holds no NUL, the literal that is
written into the statement stands for the pattern of the value, and the condition holds of
exactly those rows in which a text of the column or attribute has the value as asked.

## What it is NOT

A value with NUL is not looked for as it is, for NUL cannot be written.  What a number
looks like as a text is up to the warehouse (`Dialect.cast`).

## Shape of the proof

The three operators differ in the pattern and in what is asked of a text, and in nothing
else (`Operator.LooksFor`); what is shared is said once for all.  A condition on an
attribute is that on a column, of some row of the attribute table.
-/
import EventReport.Proofs.Plan.Account
import EventReport.Proofs.Sql.Meaning
import EventReport.Proofs.Sql.Text
import EventReport.Proofs.Text.Pattern
import EventReport.Proofs.Text.Quoted

namespace EventReport

open Text Sql

/-! ## What such a filter asks for -/

/-- The operator looks for `s` in a text: the pattern for it, and what is asked of the text. -/
inductive Operator.LooksFor (s : String) : Operator → String → (String → Prop) → Prop
  | contains : LooksFor s .contains (Pattern.containing s) fun x => s.toList <:+: x.toList
  | startsWith : LooksFor s .startsWith (Pattern.startingWith s) fun x => s.toList <+: x.toList
  | endsWith : LooksFor s .endsWith (Pattern.endingWith s) fun x => s.toList <:+ x.toList

namespace Target

/-- What is compared with the pattern: a column of the base statement, or one of the attribute
table. -/
def compared : Target → Expr
  | .column c => (Expr.column (.bare c.name)).asText c.type.isNumeric
  | .attribute a => (AttributeRow.column a.type.valueColumn).asText (a.type == .number)

/-- The condition that a comparison holds: of the event, or of a row with its attribute. -/
def condition (settings : Settings) : Target → Expr → Condition
  | .column _, e => .always e
  | .attribute a, e => Filter.rowCondition settings a false [e]

/-- The conditions of a plan among which one on the target stands. -/
def conditions (p : Plan) : Target → List Condition
  | .column _ => p.baseConditions
  | .attribute _ => p.outerConditions

/-- The text stands in the column, or in a row of the attribute table for the event. -/
def HasText (settings : Settings) (d : Dialect) (db : Database) (frame : Frame) (x : String) :
    Target → Prop
  | .column c => (Target.column c).compared.eval d db.table [frame] frame = some (.text x)
  | .attribute a => ∃ row ∈ db.table settings.eventDataTable,
      let pair := (AttributeRow.relation, row) :: frame
      isTrue (AttributeRow.ofBaseEvent.eval d db.table [frame] pair) = true ∧
        isTrue ((AttributeRow.hasKey a).eval d db.table [frame] pair) = true ∧
        (Target.attribute a).compared.eval d db.table [frame] pair = some (.text x)

end Target

/-- The dialect in which patterns match as they are meant to. -/
def Sql.Dialect.withPatterns (d : Dialect) : Dialect where
  __ := d
  fits
    | .text x, .text p => decide (Pattern.Matches p.toList x.toList)
    | _, _ => false

/-! ## What the conditions mean -/

/-- A conjunction is true if all of its parts are. -/
theorem Sql.isTrue_conjunction (parts : List (Option Value)) :
    isTrue (conjunction parts) = parts.all isTrue := by
  unfold conjunction
  split
  · next hfalse =>
    have hnot : parts.all isTrue = false := List.all_eq_false.2 ⟨_, hfalse, by decide⟩
    rw [hnot]
    rfl
  · split
    · next htrue =>
      rw [htrue]
      rfl
    · next htrue =>
      rw [Bool.eq_false_iff.2 htrue]
      rfl

section Meaning

variable (d : Dialect) (table : String → List Row) (group : List Frame) (frame : Frame)

theorem Sql.Expr.isTrue_like (e : Expr) (p : String) :
    isTrue ((Expr.like e (.value (.text p)) false).eval d.withPatterns table group frame) = true ↔
      ∃ x, e.eval d.withPatterns table group frame = some (.text x) ∧
        Pattern.Matches p.toList x.toList := by
  have hpattern : (Expr.value (.text p)).eval d.withPatterns table group frame =
      some (.text p) := rfl
  rw [Expr.eval, hpattern]
  cases hvalue : e.eval d.withPatterns table group frame with
  | none => simp [isTrue]
  | some v => cases v <;> simp [isTrue, Dialect.withPatterns]

theorem Sql.Expr.isTrue_hasRow (name relation : String) (parts : List Expr) :
    isTrue ((Expr.hasRow false name relation parts).eval d table group frame) = true ↔
      ∃ row ∈ table name, ∀ part ∈ parts,
        isTrue (part.eval d table group ((relation, row) :: frame)) = true := by
  have hall (frame : Frame) : (Expr.evalAll d table group frame parts) =
      parts.map fun part => part.eval d table group frame := by
    induction parts with
    | nil => rfl
    | cons part parts ih => rw [Expr.evalAll, ih, List.map_cons]
  simp only [Expr.eval, hall, isTrue_conjunction]
  simp [isTrue]

end Meaning

namespace Target

variable {settings : Settings} {d : Dialect} {db : Database} {frame : Frame} {p : String}

/-- The condition that a target fits a pattern holds where one of its texts does. -/
theorem holds_condition (target : Target) :
    (target.condition settings (.like target.compared (.value (.text p)) false)).holds
        d.withPatterns db frame = true ↔
      ∃ x, target.HasText settings d.withPatterns db frame x ∧
        Pattern.Matches p.toList x.toList := by
  rcases target with c | a
  · exact Expr.isTrue_like d db.table [frame] frame _ p
  · rw [condition, Filter.rowCondition, Condition.holds, Expr.isTrue_hasRow]
    simp only [List.forall_mem_cons, List.not_mem_nil, IsEmpty.forall_iff, implies_true, and_true,
      Expr.isTrue_like, HasText]
    constructor
    · rintro ⟨row, hrow, hevent, hkey, x, hx, hmatches⟩
      exact ⟨x, ⟨row, hrow, hevent, hkey, hx⟩, hmatches⟩
    · rintro ⟨x, ⟨row, hrow, hevent, hkey, hx⟩, hmatches⟩
      exact ⟨row, hrow, hevent, hkey, x, hx, hmatches⟩

end Target

/-! ## What becomes of such a filter -/

namespace Operator.LooksFor

variable {s pattern : String} {op : Operator} {asked : String → Prop}

theorem matches_iff (h : op.LooksFor s pattern asked) (x : String) :
    Pattern.Matches pattern.toList x.toList ↔ asked x := by
  cases h with
  | contains => exact Pattern.matches_containing
  | startsWith => exact Pattern.matches_startingWith
  | endsWith => exact Pattern.matches_endingWith

/-- The first value is compared by the pattern for it, and what is asked for is a row. -/
theorem exists_comparator (h : op.LooksFor s pattern asked) :
    ∃ comparator, op.comparator? = some comparator ∧
      comparator.existence = (false, some comparator) ∧
      ∀ target numeric values, values.head? = some s →
        comparator.compare target numeric values =
          .like (target.asText numeric) (.value (.text pattern)) false := by
  have hfirst {values : List String} (hvalues : values.head? = some s) : values.headD "" = s := by
    rw [List.headD_eq_head?_getD, hvalues, Option.getD_some]
  cases h with
  | contains =>
    refine ⟨.contains, rfl, rfl, fun target numeric values hvalues => ?_⟩
    rw [Comparator.compare, hfirst hvalues]
    rfl
  | startsWith =>
    refine ⟨.startsWith, rfl, rfl, fun target numeric values hvalues => ?_⟩
    rw [Comparator.compare, hfirst hvalues]
    rfl
  | endsWith =>
    refine ⟨.endsWith, rfl, rfl, fun target numeric values hvalues => ?_⟩
    rw [Comparator.compare, hfirst hvalues]
    rfl

/-- The pattern holds no NUL that the value does not hold. -/
theorem nul_not_mem (h : op.LooksFor s pattern asked) (hs : '\x00' ∉ s.toList) :
    '\x00' ∉ pattern.toList := by
  have hliteral : ∀ cs : List Char, '\x00' ∉ cs → '\x00' ∉ Pattern.literal cs := by
    intro cs
    induction cs with
    | nil => simp [Pattern.literal]
    | cons c cs ih =>
      intro hnul
      simp only [List.mem_cons, not_or] at hnul
      have ih := ih hnul.2
      rw [Pattern.literal]
      split <;> simp [ih, hnul.1]
  have hs := hliteral s.toList hs
  cases h <;> simp [Pattern.containing, Pattern.startingWith, Pattern.endingWith, hs]

end Operator.LooksFor

/-- A filter that looks for a text is planned as the condition that its column or attribute fits
the pattern. -/
theorem Plan.condition_mem {w : Warehouse} {r : Report} {f : Filter} {s pattern : String}
    {asked : String → Prop} {target : Target} (site : Website) (hf : f ∈ r.filters)
    (hop : f.operator.LooksFor s pattern asked) (hvalue : f.comparands.head? = some s)
    (hres : (Scope.of w.registry r.attributes).resolve f.column = some target) :
    target.condition w.settings (.like target.compared (.value (.text pattern)) false) ∈
      target.conditions (w.plan site r) := by
  obtain ⟨comparator, hcomparator, hexistence, hcompare⟩ := hop.exists_comparator
  have hmissing : f.missingValue? = none := by
    rw [Filter.missingValue?, if_neg]
    intro hnone
    cases hvalues : f.comparands <;> simp_all
  have hfate : f.fate w.settings (Scope.of w.registry r.attributes) ∈
      r.filters.map (Filter.fate w.settings (Scope.of w.registry r.attributes)) :=
    List.mem_map_of_mem hf
  rcases target with c | a
  · refine List.mem_filterMap.2 ⟨_, hfate, ?_⟩
    rw [Filter.fate, hres]
    simp only [hmissing, Fate.base?, Filter.columnCondition, hcomparator, hcompare _ _ _ hvalue]
    rfl
  · refine List.mem_filterMap.2 ⟨_, hfate, ?_⟩
    rw [Filter.fate, hres]
    simp only [hcomparator, hmissing, Fate.outer?, Filter.attributeCondition, hexistence,
      Option.map_some, hcompare _ _ _ hvalue]
    rfl

/-! ## Filters on a part of a text -/

/-- A text is looked for literally, in a pattern and in the statement. -/
theorem likeFilter_keeps :
    (∀ s x : String,
      (Pattern.Matches (Pattern.containing s).toList x.toList ↔ s.toList <:+: x.toList) ∧
      (Pattern.Matches (Pattern.startingWith s).toList x.toList ↔ s.toList <+: x.toList) ∧
      (Pattern.Matches (Pattern.endingWith s).toList x.toList ↔ s.toList <:+ x.toList)) ∧
    ∀ (w : Warehouse) (site : Website) (r : Report) (f : Filter) (s pattern : String)
      (asked : String → Prop) (target : Target),
      f ∈ r.filters → f.operator.LooksFor s pattern asked → f.comparands.head? = some s →
      '\x00' ∉ s.toList →
      (Scope.of w.registry r.attributes).resolve f.column = some target →
      ∃ e literal, target.condition w.settings e ∈ target.conditions (w.plan site r) ∧
        e.chars = target.compared.chars ++ " LIKE ".toList ++ literal ∧
        Quoted.value? literal = some pattern.toList ∧
        ∀ (d : Dialect) (db : Database) (frame : Frame),
          (target.condition w.settings e).holds d.withPatterns db frame = true ↔
            ∃ x, target.HasText w.settings d.withPatterns db frame x ∧ asked x := by
  refine ⟨fun s x => ⟨Pattern.matches_containing, Pattern.matches_startingWith,
    Pattern.matches_endingWith⟩, ?_⟩
  intro w site r f s pattern asked target hf hop hvalue hnul hres
  refine ⟨_, (quote pattern).toList, Plan.condition_mem site hf hop hvalue hres, ?_,
    Quoted.value?_quote (hop.nul_not_mem hnul), ?_⟩
  · rw [Expr.chars_like, Expr.chars_value]
    simp [Literal.render]
  · intro d db frame
    rw [Target.holds_condition]
    simp only [hop.matches_iff]

/-- Wildcards, a backslash and a quote are looked for in an attribute. -/
theorem likeFilter_keeps_wildcards :
    ∃ (r : Report) (f : Filter) (a : Attribute), f ∈ r.filters ∧
      f.operator.LooksFor "50%_\\'" (Pattern.endingWith "50%_\\'")
        (fun x => "50%_\\'".toList <:+ x.toList) ∧
      f.comparands.head? = some "50%_\\'" ∧ '\x00' ∉ "50%_\\'".toList ∧
      (Scope.of Registry.standard r.attributes).resolve f.column = some (.attribute a) ∧
      ∃ e literal,
        Filter.rowCondition {} a false [e] ∈ (Warehouse.plan {} { id := "w" } r).outerConditions ∧
        e.chars = (Target.attribute a).compared.chars ++ " LIKE ".toList ++ literal ∧
        Quoted.value? literal = some (Pattern.endingWith "50%_\\'").toList ∧
        ∀ (d : Dialect) (db : Database) (frame : Frame),
          (Filter.rowCondition {} a false [e]).holds d.withPatterns db frame = true ↔
            ∃ x, (Target.attribute a).HasText {} d.withPatterns db frame x ∧
              "50%_\\'".toList <:+ x.toList := by
  let f : Filter := { column := "param_x", operator := .endsWith, value := some "50%_\\'" }
  let r : Report := { filters := [f], attributes := [⟨"x", .string⟩] }
  have hres : (Scope.of Registry.standard r.attributes).resolve f.column =
      some (.attribute ⟨"x", .string⟩) := by decide +kernel
  exact ⟨r, f, ⟨"x", .string⟩, List.mem_singleton.2 rfl, .endsWith, rfl, by decide, hres,
    likeFilter_keeps.2 {} { id := "w" } r f _ _ _ _ (List.mem_singleton.2 rfl) .endsWith rfl
      (by decide) hres⟩

end EventReport
