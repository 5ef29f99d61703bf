/-
# What a statement means

A statement reads rows from tables and gives rows.  Here is how, in the order in which its
clauses take effect: the source, the joins, the conditions, the groups, the outputs, the
order and the limit.

At the end are the facts that hold of any statement: a left join makes one frame of a frame
that no two rows fit (`JoinKind.pair_left`), and groups have different keys
(`Query.nodup_keys`).

## What it is NOT

What a function, a cast, a pattern and an aggregate other than the row count compute is
taken as given (`Dialect`), and so is the order of rows.  A column that a relation does not
have reads as NULL, and values of two kinds are unequal; the warehouse refuses statements
where either could happen.

## Shape of the definitions

A condition is true, false or unknown, and only a true one holds.  An expression may be
computed from a group of rows, of which one stands for all; an expression of a single row
is computed from the group of that row.
-/
import EventReport.Sql.Query
import Mathlib.Data.List.Dedup

namespace EventReport.Sql

/-! ## Rows -/

/-- What a column can hold besides NULL. -/
inductive Value where
  | bool (b : Bool)
  | number (q : Rat)
  | text (s : String)
  /-- A point in time, in microseconds. -/
  | time (t : Int)
deriving DecidableEq

/-- The columns of a row, in order. -/
abbrev Row := List (String × Option Value)

def Row.cell (row : Row) (name : String) : Option Value := (row.lookup name).join

/-- One row of each relation that a statement reads from, under its alias. -/
abbrev Frame := List (String × Row)

namespace Frame

/-- The row of a relation; a row without columns stands for one of NULLs. -/
def row (frame : Frame) (relation : String) : Row := (frame.lookup relation).getD []

/-- The columns of a relation, or of all. -/
def columns (frame : Frame) (relation : String) : Row :=
  if relation = "" then frame.flatMap Prod.snd else frame.row relation

def cell (frame : Frame) (c : ColumnRef) : Option Value :=
  Row.cell (frame.columns c.relation) c.name

end Frame

/-- What the meaning of a statement takes as given. -/
structure Dialect where
  float : Float → Option Value
  /-- Whether a value matches a pattern. -/
  fits : Value → Value → Bool
  call : String → List (Option Value) → Option Value
  cast : String → Value → Option Value
  /-- An aggregate other than the row count, of the values of its argument, each with the value
  that orders it. -/
  fold : Aggregation → List (Option Value × Option Value) → Option Value
  /-- What the dashboard tool puts in the place of a variable. -/
  placeholder : String → Frame → Option Value
  /-- Whether the dashboard tool drops an optional condition, a variable in it being unset. -/
  drops : Expr → Bool
  sort : List SortKey → List Row → List Row

structure Database where
  table : String → List Row
  /-- The rows of the statements that were named before. -/
  named : String → List Row := fun _ => []

def Database.name (db : Database) (name : String) (rows : List Row) : Database :=
  { db with named := fun n => if n = name then rows else db.named n }

/-! ## Expressions -/

def isTrue (v : Option Value) : Bool := v == some (.bool true)

/-- False if any part is false, and else unknown if any part is. -/
def conjunction (parts : List (Option Value)) : Option Value :=
  if some (.bool false) ∈ parts then some (.bool false)
  else if parts.all isTrue then some (.bool true)
  else none

/-- Nothing is known of a comparison with NULL. -/
def Comparison.apply (op : Comparison) : Option Value → Option Value → Option Value
  | some x, some y => some (.bool (match op with | .eq => x == y | .ne => x != y))
  | _, _ => none

/-- Whether a value is one of a list; unknown if it may be the NULL of either. -/
def among (v : Option Value) (values : List (Option Value)) : Option Value :=
  if values.isEmpty then some (.bool false)
  else
    match v with
    | none => none
    | some x =>
      if some x ∈ values then some (.bool true)
      else if none ∈ values then none
      else some (.bool false)

def Literal.value (d : Dialect) : Literal → Option Value
  | null => none
  | bool b => some (.bool b)
  | int i => some (.number i)
  | float x => d.float x
  | text s => some (.text s)

/-- The value by which an aggregate orders a row. -/
def Aggregation.orderValue (frame : Frame) : Aggregation → Option Value
  | firstText orderBy => frame.cell orderBy
  | _ => none

namespace Expr

mutual

/-- The value of an expression for a group of frames, one of which is `frame`. -/
def eval (d : Dialect) (table : String → List Row) (group : List Frame) (frame : Frame) :
    Expr → Option Value
  | column c => frame.cell c
  | literal l => l.value d
  | value l => l.value d
  | placeholder name => d.placeholder name frame
  | compare op left right =>
    op.apply (eval d table group frame left) (eval d table group frame right)
  | like e pattern negated =>
    match eval d table group frame e, eval d table group frame pattern with
    | some x, some p => some (.bool (d.fits x p != negated))
    | _, _ => none
  | among e values => Sql.among (eval d table group frame e) (evalAll d table group frame values)
  | all parts => conjunction (evalAll d table group frame parts)
  | isNull e => some (.bool (eval d table group frame e).isNone)
  | isNotNull e => some (.bool (eval d table group frame e).isSome)
  | choose branches otherwise =>
    (evalBranches d table group frame branches).getD (evalOtherwise d table group frame otherwise)
  | call function args => d.call function (evalAll d table group frame args)
  | cast e type => (eval d table group frame e).bind (d.cast type)
  | aggregate _ none => some (.number group.length)
  | aggregate f (some arg) =>
    if f = .countRows then some (.number group.length)
    else d.fold f (group.map fun member =>
      (eval d table [member] member arg, f.orderValue member))
  | hasRow negated name relation conditions =>
    let found := (table name).any fun row =>
      isTrue (conjunction (evalAll d table group ((relation, row) :: frame) conditions))
    some (.bool (found != negated))

def evalAll (d : Dialect) (table : String → List Row) (group : List Frame) (frame : Frame) :
    List Expr → List (Option Value)
  | [] => []
  | e :: es => eval d table group frame e :: evalAll d table group frame es

/-- The result of the first branch whose condition is true, if there is one. -/
def evalBranches (d : Dialect) (table : String → List Row) (group : List Frame) (frame : Frame) :
    List (Expr × Expr) → Option (Option Value)
  | [] => none
  | (condition, result) :: branches =>
    if isTrue (eval d table group frame condition) then some (eval d table group frame result)
    else evalBranches d table group frame branches

def evalOtherwise (d : Dialect) (table : String → List Row) (group : List Frame) (frame : Frame) :
    Option Expr → Option Value
  | none => none
  | some e => eval d table group frame e

end

end Expr

/-! ## Clauses -/

def Condition.holds (d : Dialect) (db : Database) (frame : Frame) : Condition → Bool
  | always e => isTrue (e.eval d db.table [frame] frame)
  | optional e => d.drops e || isTrue (e.eval d db.table [frame] frame)

/-- The columns that an item adds to the row of a group. -/
def Item.cells (d : Dialect) (db : Database) (group : List Frame) (frame : Frame) : Item → Row
  | star relation => frame.columns relation
  | expr e name =>
    [((expr e name).outputName?.getD "", e.eval d db.table group frame)]

/-- The expression that an output shows under an alias. -/
def Item.aliased? (name : String) : Item → Option Expr
  | expr e (some output) => if output = name then some e else none
  | _ => none

/-- The frames that a frame is paired with: one for each row of the relation that fits it, and for a
left join one without a row where none does. -/
def JoinKind.pair (kind : JoinKind) (relation : String) (fitting : List Row) (frame : Frame) :
    List Frame :=
  match kind, fitting with
  | .left, [] => [frame ++ [(relation, [])]]
  | _, rows => rows.map fun row => frame ++ [(relation, row)]

/-- The name under which a statement refers to what it reads from. -/
def Source.relation {Q : Type} : Source Q → String
  | table _ relation => relation
  | named name => name
  | nested _ => ""
  | derived _ relation => relation

namespace Query

variable (q : Query) (d : Dialect) (db : Database)

/-- A group key without a relation may be the alias of an output. -/
def keyExpr : Expr → Expr
  | .column ⟨"", name⟩ => (q.select.findSome? (Item.aliased? name)).getD (.column (.bare name))
  | e => e

def key (frame : Frame) : List (Option Value) :=
  q.groupBy.map fun e => (q.keyExpr e).eval d db.table [frame] frame

def keeps (frame : Frame) : Bool := q.conditions.all (Condition.holds d db frame)

/-- The frames of a group: those that the conditions keep and that have its key. -/
def members (frames : List Frame) (key : List (Option Value)) : List Frame :=
  frames.filter fun frame => q.keeps d db frame && q.key d db frame == key

/-- The keys of the groups. Without group keys there is one group, which may be empty. -/
def keys (frames : List Frame) : List (List (Option Value)) :=
  if q.groupBy.isEmpty then [[]] else ((frames.filter (q.keeps d db)).map (q.key d db)).dedup

/-- The row of a group; any frame of it can stand for all. -/
def output (group : List Frame) : Row :=
  q.select.flatMap (Item.cells d db group (group.headD []))

/-- Whether there is a row for each group, and not for each frame. -/
def isGrouped : Bool :=
  !q.groupBy.isEmpty || q.select.any fun
    | .expr e _ => e.isAggregate
    | .star _ => false

/-- The rows of the statement, from the frames that it reads. -/
def answer (frames : List Frame) : List Row :=
  let rows :=
    if q.isGrouped then
      (q.keys d db frames).map fun key => q.output d db (q.members d db frames key)
    else (frames.filter (q.keeps d db)).map fun frame => q.output d db [frame]
  let sorted := if q.orderBy.isEmpty then rows else d.sort q.orderBy rows
  match q.limit with
  | none => sorted
  | some n => sorted.take n

/-! ## Statements -/

mutual

/-- The rows that a statement gives. -/
def rows (d : Dialect) (db : Database) : Query → List Row
  | ⟨ctes, select, source, joins, conditions, groupBy, orderBy, limit⟩ =>
    let db := withNamed d db ctes
    answer ⟨ctes, select, source, joins, conditions, groupBy, orderBy, limit⟩ d db
      (joinFrames d db joins ((sourceRows d db source).map fun row => [(source.relation, row)]))

/-- The database with the statements that are named. -/
def withNamed (d : Dialect) (db : Database) : List (Named Query) → Database
  | [] => db
  | ⟨name, query⟩ :: rest => withNamed d (db.name name (rows d db query)) rest

def sourceRows (d : Dialect) (db : Database) : Source Query → List Row
  | .table name _ => db.table name
  | .named name => db.named name
  | .nested query => rows d db query
  | .derived query _ => rows d db query

def joinFrames (d : Dialect) (db : Database) : List (Join Query) → List Frame → List Frame
  | [], frames => frames
  | ⟨kind, source, on⟩ :: rest, frames =>
    let fitting (frame : Frame) := (sourceRows d db source).filter fun row =>
      let pair := frame ++ [(source.relation, row)]
      isTrue (on.eval d db.table [pair] pair)
    joinFrames d db rest (frames.flatMap fun frame =>
      kind.pair source.relation (fitting frame) frame)

end

/-- The frames that a statement reads: its source with the joins. -/
def frames : List Frame :=
  joinFrames d db q.joins ((sourceRows d db q.source).map fun row => [(q.source.relation, row)])

/-- A statement answers from the frames that it reads, after the statements that it names. -/
theorem rows_eq : q.rows d db =
    q.answer d (withNamed d db q.ctes) (q.frames d (withNamed d db q.ctes)) := by
  cases q
  rfl

end Query

/-! ## Joins and groups -/

/-- Only equal values are known to be equal, and no NULLs. -/
theorem Comparison.eq_of_isTrue {u v : Option Value}
    (h : isTrue (Comparison.eq.apply u v) = true) : u = v := by
  cases u with
  | none => cases h
  | some x =>
    cases v with
    | none => cases h
    | some y => simpa [Comparison.apply, isTrue] using h

/-- Where no two rows fit a frame, a left join makes one frame of it. -/
theorem JoinKind.pair_left {fitting : List Row} (h : fitting.length ≤ 1) (relation : String)
    (frame : Frame) :
    pair .left relation fitting frame = [frame ++ [(relation, fitting.headD [])]] := by
  match fitting, h with
  | [], _ => rfl
  | [_], _ => rfl

namespace Query

variable {q : Query} {d : Dialect} {db : Database} {frames : List Frame}

theorem nodup_keys (q : Query) (d : Dialect) (db : Database) (frames : List Frame) :
    (q.keys d db frames).Nodup := by
  unfold keys
  split
  · exact List.nodup_singleton _
  · exact List.nodup_dedup _

/-- With group keys, the frame that stands for a group is one of its members. -/
theorem headD_mem_members (hgrouped : q.groupBy.isEmpty = false) {key : List (Option Value)}
    (h : key ∈ q.keys d db frames) :
    (q.members d db frames key).headD [] ∈ q.members d db frames key := by
  rw [keys, hgrouped, if_neg Bool.false_ne_true, List.mem_dedup, List.mem_map] at h
  obtain ⟨frame, hframe, rfl⟩ := h
  obtain ⟨hmem, hkeeps⟩ := List.mem_filter.1 hframe
  have hmember : frame ∈ q.members d db frames (q.key d db frame) :=
    List.mem_filter.2 ⟨hmem, by simp [hkeeps]⟩
  obtain ⟨first, rest, hcons⟩ := List.exists_cons_of_ne_nil (List.ne_nil_of_mem hmember)
  rw [hcons]
  exact List.mem_cons_self

theorem key_eq_of_mem_members {key : List (Option Value)} {frame : Frame}
    (h : frame ∈ q.members d db frames key) : q.key d db frame = key := by
  simpa using (Bool.and_eq_true_iff.1 (List.mem_filter.1 h).2).2

end Query

end EventReport.Sql
