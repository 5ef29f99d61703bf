/-
# The join with the attributes repeats and drops no event

An event may have any number of attributes, with a row of the attribute table for each, so
a join with that table would repeat the event.  The statement joins a pivot of it, which
has one row per event.

## What is proved

`exists_holdsOnce`: for every report, whatever rows the base statement has and whatever
rows the attribute table has, the frames that the outer statement reads are the base rows,
one for each and in order, with a pivot row or NULLs beside it (`Query.HoldsOnce`).  So a
row count over a group is the number of base rows in the group.

## Shape of the proof

The pivot is grouped by the event, and it shows the event, so no two of its rows have the
same one (`Pivot.nodup_events`).  The join asks for the event of the base row, so at most
one row of the pivot fits a base row, and a left join makes one frame of it.
-/
import EventReport.Plan.Basic
import EventReport.Proofs.Sql.Meaning

namespace EventReport

open Sql

/-- The frames that a statement reads hold each of the base rows once, each with what `extend` puts
beside it. -/
structure Sql.Query.HoldsOnce (q : Query) (d : Dialect) (db : Database) (rows : List Row)
    (extend : Row → Frame) : Prop where
  restores : ∀ row, (extend row).row baseName = row
  frames : q.frames d db = rows.map extend
  /-- `COUNT(*)` of a group is the number of the base rows that belong to it. -/
  counts : ∀ key frame,
    Expr.countRows.eval d db.table (q.members d db (q.frames d db) key) frame =
      some (.number (rows.countP fun row =>
        q.keeps d db (extend row) && q.key d db (extend row) == key))

/-- The counts follow from the frames. -/
theorem Sql.Query.HoldsOnce.of_frames {q : Query} {d : Dialect} {db : Database} {rows : List Row}
    {extend : Row → Frame} (hrestores : ∀ row, (extend row).row baseName = row)
    (hframes : q.frames d db = rows.map extend) : q.HoldsOnce d db rows extend where
  restores := hrestores
  frames := hframes
  counts := by
    intro key frame
    have hlength : (q.members d db (q.frames d db) key).length = rows.countP fun row =>
        q.keeps d db (extend row) && q.key d db (extend row) == key := by
      rw [Query.members, hframes, ← List.countP_eq_length_filter, List.countP_map]
      rfl
    rw [← hlength]
    rfl

namespace Pivot

variable (d : Dialect) (db : Database) (settings : Settings) (site : Website)
  (attributes : List Attribute)

/-- The event that a row of the pivot is for. -/
def event (row : Row) : Option Value := Row.cell row AttributeRow.eventColumn

/-- The row of a group shows the event of its first frame. -/
theorem event_output (group : List Frame) :
    event ((query settings site attributes).output d db group) =
      (group.headD []).cell ⟨AttributeRow.relation, AttributeRow.eventColumn⟩ := by
  rfl

theorem key_query (frame : Frame) : (query settings site attributes).key d db frame =
    [frame.cell ⟨AttributeRow.relation, AttributeRow.eventColumn⟩] := by
  rfl

/-- No two rows of the pivot are for one event. -/
theorem nodup_events :
    (((query settings site attributes).rows d db).map event).Nodup := by
  let q := query settings site attributes
  let frames := q.frames d db
  have hrows : q.rows d db =
      (q.keys d db frames).map fun key => q.output d db (q.members d db frames key) := by
    rw [Query.rows_eq]
    rfl
  have hevent : ∀ key ∈ q.keys d db frames,
      [event (q.output d db (q.members d db frames key))] = key := by
    intro key hkey
    have hfirst := Query.headD_mem_members rfl hkey
    rw [event_output, ← key_query d db settings site attributes]
    exact Query.key_eq_of_mem_members hfirst
  have hkeys : ((q.rows d db).map event).map (fun v => [v]) = q.keys d db frames := by
    rw [hrows, List.map_map, List.map_map]
    exact (List.map_congr_left hevent).trans (List.map_id _)
  refine List.Nodup.of_map (fun v => [v]) ?_
  rw [hkeys]
  exact q.nodup_keys d db frames

/-- The rows of the pivot that the join pairs a frame with. -/
def fitting (frame : Frame) : List Row :=
  ((query settings site attributes).rows d db).filter fun row =>
    let pair := frame ++ [(relation, row)]
    isTrue ((join settings site attributes).on.eval d db.table [pair] pair)

/-- The join asks for the event of the base row. -/
theorem event_of_fits {row base : Row}
    (h : isTrue ((join settings site attributes).on.eval d db.table
      [[(baseName, base), (relation, row)]] [(baseName, base), (relation, row)]) = true) :
    event row = Row.cell base "event_id" := Comparison.eq_of_isTrue h

/-- At most one row of the pivot fits a base row. -/
theorem length_fitting_le_one (base : Row) :
    (fitting d db settings site attributes [(baseName, base)]).length ≤ 1 := by
  have hsame : ∀ v ∈ (fitting d db settings site attributes [(baseName, base)]).map event,
      v = Row.cell base "event_id" := by
    intro v hv
    obtain ⟨row, hrow, rfl⟩ := List.mem_map.1 hv
    exact event_of_fits d db settings site attributes (List.mem_filter.1 hrow).2
  have hnodup : ((fitting d db settings site attributes [(baseName, base)]).map event).Nodup :=
    (nodup_events d db settings site attributes).sublist (List.filter_sublist.map event)
  rw [List.eq_replicate_of_mem hsame, List.nodup_replicate, List.length_map] at hnodup
  exact hnodup

end Pivot

/-! ## The frames of the outer statement -/

namespace Plan

variable (d : Dialect) (db : Database) (p : Plan) (w : Warehouse)

/-- A report that reads no attribute has the base rows alone. -/
theorem frames_query_of_isEmpty (h : p.attributes.isEmpty = true) :
    (p.query w).frames d db = (db.named baseName).map fun row => [(baseName, row)] := by
  have hjoins : (p.query w).joins = [] := by
    unfold query
    rw [h]
    rfl
  unfold Query.frames
  rw [hjoins]
  rfl

/-- A base row with the row of the pivot for its event, or with NULLs where there is none. -/
def withPivot (row : Row) : Frame :=
  [(baseName, row), (Pivot.relation,
    (Pivot.fitting d db w.settings p.website p.attributes [(baseName, row)]).headD [])]

theorem frames_query_of_attributes (h : p.attributes.isEmpty = false) :
    (p.query w).frames d db = (db.named baseName).map (p.withPivot d db w) := by
  let fitting := Pivot.fitting d db w.settings p.website p.attributes
  have hjoins : (p.query w).joins = [Pivot.join w.settings p.website p.attributes] := by
    unfold query
    rw [h]
    rfl
  have hpair : ∀ row : Row,
      JoinKind.pair .left Pivot.relation (fitting [(baseName, row)]) [(baseName, row)] =
        [p.withPivot d db w row] := by
    intro row
    have hone := Pivot.length_fitting_le_one d db w.settings p.website p.attributes row
    exact JoinKind.pair_left hone Pivot.relation [(baseName, row)]
  unfold Query.frames
  rw [hjoins]
  show (((db.named baseName).map fun row => [(baseName, row)]).flatMap fun frame =>
    JoinKind.pair .left Pivot.relation (fitting frame) frame) = _
  rw [List.flatMap_map, List.map_eq_flatMap]
  exact List.flatMap_congr fun row _ => hpair row

end Plan

/-- The frames of the outer statement hold each base row once, whatever the tables hold. -/
theorem exists_holdsOnce (d : Dialect) (db : Database) (w : Warehouse) (site : Website)
    (r : Report) :
    ∃ extend, ((w.plan site r).query w).HoldsOnce d db (db.named baseName) extend := by
  let p := w.plan site r
  cases hattributes : p.attributes.isEmpty with
  | true =>
    have hframes := p.frames_query_of_isEmpty d db w hattributes
    exact ⟨fun row => [(baseName, row)], .of_frames (fun _ => rfl) hframes⟩
  | false =>
    have hframes := p.frames_query_of_attributes d db w hattributes
    exact ⟨p.withPivot d db w, .of_frames (fun _ => rfl) hframes⟩

/-- Of two events the one has three rows under two keys and the other has none. -/
example :
    let r : Report :=
      { attributes := [⟨"a", .string⟩, ⟨"b", .number⟩]
        outline :=
          { groupBy := ["param_a"], metrics := [{ function := .sum, column := "param_b" }] } }
    let d : Dialect :=
      { float := fun _ => none, fits := fun _ _ => false, call := fun _ vs => (vs.headD none)
        cast := fun _ v => some v, fold := fun _ vs => vs.findSome? Prod.fst
        placeholder := fun _ _ => none, drops := fun _ => true, sort := fun _ rows => rows }
    let row (key column : String) (v : Value) : Row :=
      [("website_id", some (.text "w")), ("website_event_id", some (.text "1")),
        ("data_key", some (.text key)), (column, some v)]
    let db : Database :=
      { table := fun _ => [row "a" "string_value" (.text "x"), row "b" "number_value" (.number 5),
          row "a" "string_value" (.text "y")]
        named := fun _ => [[("event_id", some (.text "1"))], [("event_id", some (.text "2"))]] }
    (((Warehouse.plan {} { id := "w" } r).query {}).frames d db).map
        (fun frame => [frame.cell ⟨"base", "event_id"⟩, frame.cell ⟨"event_data", "param_a"⟩,
          frame.cell ⟨"event_data", "param_b"⟩]) =
      [[some (.text "1"), some (.text "x"), some (.number 5)], [some (.text "2"), none, none]] := by
  decide +kernel

end EventReport
