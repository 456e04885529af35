import CimArm.Db.Run
import CimArm.Db.Scan
import CimArm.Lib.Traversal

/-!
# Visiting all records

The loops over a whole multi-part table: from before the first record with `moveNext`, from
the first one with `moveNext`, and from the last one with `movePrev`.  Each visits what is
stored, once, in its direction, wherever the cursor was (`Synced.visitsAll`).

* `run_visits`: in every state of a table that may have two parts.
* `run_findById`: the same after a search by id that fails; one that succeeds is on the
  record.
-/

namespace CimArm.MultiPart

open Traversal

variable {R : Type} {schema : MultiPartSchema R} {s : MultiPart R}

/-- The record that the getters read. -/
def current (self : MultiPart R) : R := self.data.buffer

/-- The three loops over a table visit these records. -/
structure VisitsAll (schema : MultiPartSchema R) (self : MultiPart R) (records : List R) :
    Prop where
  /-- `moveBeforeFirst; while (moveNext)` -/
  forward : Visits (moveNext schema) current (self.moveBeforeFirst schema).2 records
  /-- `if (moveFirst) do ... while (moveNext)` -/
  fromFirst : VisitsFrom (moveNext schema) current (moveFirst schema) self records
  /-- `if (moveLast) do ... while (movePrev)` -/
  fromLast : VisitsFrom (movePrev schema) current (moveLast schema) self records.reverse

/-- The cursor is in step and on a record of the content. -/
structure On (c : Content R) (i : Nat) (s : MultiPart R) : Prop where
  sync : s.Synced
  content : s.content = c
  here : s.AtRecord i

namespace On

variable {c : Content R} {i : Nat}

theorem item (on : On c i s) : c.stored[i]? = some s.current := on.content ▸ on.here.buffer

theorem forwards (on : On c i s) (filled : c.Filled) :
    Visits (moveNext schema) current s (c.stored.drop (i + 1)) := by
  refine @Visits.forwards _ _ (moveNext schema) current (On c) _ item ?_ ?_ _ _ on
  · intro i s on more
    have keeps := on.sync.moves_moveNext schema
    have step := (on.here.moveNext schema on.sync (on.content ▸ filled)).1 (on.content ▸ more)
    exact ⟨step.1, keeps.2, keeps.1.content.trans on.content, step.2⟩
  · intro i s on exhausted
    exact ((on.here.moveNext schema on.sync (on.content ▸ filled)).2 (on.content ▸ exhausted)).1

theorem backwards (on : On c i s) (filled : c.Filled) :
    Visits (movePrev schema) current s (c.stored.take i).reverse := by
  refine @Visits.backwards _ _ (movePrev schema) current (On c) _ item ?_ ?_ _ _ on
  · intro i s on
    have keeps := on.sync.moves_movePrev schema
    have step := (on.here.movePrev schema on.sync (on.content ▸ filled)).1 (Nat.succ_pos i)
    exact ⟨step.1, keeps.2, keeps.1.content.trans on.content, step.2⟩
  · intro s on
    exact ((on.here.movePrev schema on.sync (on.content ▸ filled)).2 rfl).1

end On

theorem Synced.moveNext_empty (sync : s.Synced) (rows : s.content.rows = []) :
    (s.moveNext schema).1 = false := by
  have rows' : s.indexTable.records = [] := rows
  have stays : s.readNext = (false, s) := by
    rw [readNext, RecordSet.moveNext_nil (sync.dataTable_nil rows').1]
    rfl
  rw [moveNext, stays]
  show (if (s.indexTable.records.length = 0 ||
    s.getIndexCount.2.atLastTable s.indexTable.records.length) = true then
      (false, s.getIndexCount.2) else _).1 = false
  rw [if_pos (by simp [rows'])]

theorem Synced.visitsAll (schema : MultiPartSchema R) (sync : s.Synced)
    (filled : s.content.Filled) : s.VisitsAll schema s.content.stored := by
  have started := sync.moves_moveBeforeFirst schema
  have first := sync.moves_moveFirst schema
  have last := sync.moves_moveLast schema
  by_cases rows : s.content.rows = []
  · have nothing : s.content.stored = [] := by
      simp [Content.stored, Content.files, rows]
    rw [nothing]
    exact
      { forward := .stop (started.2.moveNext_empty (started.1.content ▸ rows))
        fromFirst := .none ((sync.moveFirst_atRecord schema filled).2 rows)
        fromLast := .none ((sync.moveLast_atRecord schema filled).2 rows) }
  · obtain ⟨moved, here⟩ := (sync.moveFirst_atRecord schema filled).1 rows
    obtain ⟨moved', here'⟩ := (sync.moveLast_atRecord schema filled).1 rows
    have on : On s.content 0 (s.moveFirst schema).2 := ⟨first.2, first.1.content, here⟩
    have on' : On s.content (s.content.stored.length - 1) (s.moveLast schema).2 :=
      ⟨last.2, last.1.content, here'⟩
    obtain ⟨inside, head⟩ := List.getElem?_eq_some_iff.1 on.item
    have all : s.content.stored = (s.moveFirst schema).2.current ::
        s.content.stored.drop (0 + 1) := by
      rw [← head, ← List.drop_eq_getElem_cons inside, List.drop_zero]
    have all' : s.content.stored.reverse = (s.moveLast schema).2.current ::
        (s.content.stored.take (s.content.stored.length - 1)).reverse := by
      have split : s.content.stored.take (s.content.stored.length - 1 + 1) =
          s.content.stored.take (s.content.stored.length - 1) ++
            [(s.moveLast schema).2.current] := by
        rw [List.take_add_one, on'.item, Option.toList_some]
      rw [Nat.sub_add_cancel inside, List.take_length] at split
      rw [split, List.reverse_append, List.length_append, List.length_singleton,
        Nat.add_sub_cancel, List.take_left]
      rfl
    have begins : (s.moveBeforeFirst schema).2.content = s.content := started.1.content
    obtain ⟨step, here₀⟩ := (sync.moveBeforeFirst_atStart schema rows).moveNext schema started.2
      (begins ▸ filled) (begins ▸ rows)
    have keeps := started.2.moves_moveNext schema
    have on₀ : On s.content 0 ((s.moveBeforeFirst schema).2.moveNext schema).2 :=
      ⟨keeps.2, keeps.1.content.trans begins, here₀⟩
    have same : ((s.moveBeforeFirst schema).2.moveNext schema).2.current =
        (s.moveFirst schema).2.current :=
      Option.some.inj (on₀.item.symm.trans on.item)
    exact
      { forward := by
          rw [all, ← same]
          exact .visit step (on₀.forwards filled)
        fromFirst := by
          rw [all]
          exact .visit moved (on.forwards filled)
        fromLast := by
          rw [all']
          exact .visit moved' (on'.backwards filled) }

/-! ## In every state -/

/-- Every part has records, and there are no more parts than configured. -/
structure Whole (schema : MultiPartSchema R) (s : MultiPart R) : Prop where
  sync : s.Synced
  filled : s.content.Filled
  count : s.content.rows.length ≤ schema.maxFiles

end CimArm.MultiPart

namespace CimArm.Content

variable {R : Type} {schema : MultiPartSchema R} {c : Content R}

theorem Filled.update (filled : c.Filled) {name : Nat} {table : Table R}
    (nonempty : table.records ≠ []) {rows : List IndexRow}
    (names : ∀ row ∈ rows, row.tableName = name ∨ ∃ old ∈ c.rows, old.tableName = row.tableName) :
    (⟨Function.update c.parts name table, rows⟩ : Content R).Filled := by
  intro row hrow
  dsimp only
  by_cases here : row.tableName = name
  · rw [here, Function.update_self]
    exact nonempty
  · rw [Function.update_of_ne here]
    rcases names row hrow with same | ⟨old, hold, same⟩
    · exact absurd same here
    · rw [← same]
      exact filled old hold

theorem append_ne_nil (t : Table R) (r : R) : (t.append schema.toSchema r).records ≠ [] := by
  simp [Table.append]

theorem Filled.store (filled : c.Filled) (cut : Bool) (r : R) :
    (c.store schema cut r).Filled := by
  have add (kept : List IndexRow) (sub : ∀ row ∈ kept, row ∈ c.rows) (name autoInc : Nat) :
      (c.addPart schema kept name autoInc r).Filled := by
    refine filled.update (append_ne_nil _ r) fun row hrow => ?_
    rcases List.mem_append.1 hrow with hrow | hrow
    · exact .inr ⟨row, sub row hrow, rfl⟩
    · rw [List.mem_singleton.1 hrow]
      exact .inl rfl
  unfold Content.store
  cases c.rows.getLast? with
  | none => exact add [] (fun _ hrow => nomatch hrow) 0 _
  | some last =>
    dsimp only
    split_ifs
    · have kept := (kept_suffix schema c).subset
      unfold rotate
      cases (c.kept schema).getLast? with
      | none => exact add _ (fun row hrow => kept hrow) 0 0
      | some before => exact add _ (fun row hrow => kept hrow) _ _
    · refine filled.update (append_ne_nil _ r) fun row hrow => ?_
      rcases List.mem_append.1 hrow with hrow | hrow
      · exact .inr ⟨row, List.dropLast_subset _ hrow, rfl⟩
      · rw [List.mem_singleton.1 hrow]
        exact .inl (widenTo_tableName last _)

theorem store_count (some_part : 0 < schema.maxFiles) (count : c.rows.length ≤ schema.maxFiles)
    (cut : Bool) (r : R) : (c.store schema cut r).rows.length ≤ schema.maxFiles := by
  have room : (c.kept schema).length + 1 ≤ schema.maxFiles := by
    rw [kept, List.length_drop, toDelete]
    split_ifs <;> omega
  unfold Content.store
  cases hlast : c.rows.getLast? with
  | none =>
    show ([] ++ [_] : List IndexRow).length ≤ _
    exact some_part
  | some last =>
    dsimp only
    split_ifs
    · unfold rotate
      cases (c.kept schema).getLast? with
      | none => simpa [addPart] using room
      | some before => simpa [addPart] using room
    · have nonempty : c.rows ≠ [] := fun rows => by simp [rows] at hlast
      have size := List.length_pos_iff.2 nonempty
      simp only [extend, List.length_append, List.length_dropLast, List.length_singleton]
      omega

end CimArm.Content

namespace CimArm.MultiPart

open Traversal

variable {R : Type} {schema : MultiPartSchema R} {s : MultiPart R}

theorem Whole.apply (some_part : 0 < schema.maxFiles) (whole : s.Whole schema) (op : Op R) :
    (op.apply schema s).Whole schema := by
  rcases op.cases with ⟨r, rfl⟩ | rfl | reads
  · obtain ⟨sync, content, -, -⟩ := store_content schema whole.sync whole.filled r
    have saved : (Op.apply schema (.save r) s).content =
      s.content.store schema s.appendFileMode r := content
    exact ⟨sync, saved ▸ whole.filled.store _ r,
      saved ▸ Content.store_count some_part whole.count _ r⟩
  · obtain ⟨sync, content⟩ := synced_open schema
      (fun name => { s.parts name with
        autoIncValue := (s.parts name).loadAutoIncValue schema.toSchema })
      s.indexTable whole.count fun rows => (whole.sync.empty rows).2.2.2
    have opened : (Op.apply schema .reopen s).content = s.content.reload schema := content
    exact ⟨sync, opened ▸ whole.filled, opened ▸ whole.count⟩
  · obtain ⟨sync, content, -⟩ := reads.apply schema whole.sync
    exact ⟨sync, content ▸ whole.filled, content ▸ whole.count⟩

theorem whole_created (schema : MultiPartSchema R) : (created schema).Whole schema := by
  obtain ⟨sync, content⟩ := created_content schema
  refine ⟨sync, ?_, ?_⟩
  · rw [content]
    exact fun _ hrow => nomatch hrow
  · rw [content]
    exact Nat.zero_le _

theorem Whole.run (some_part : 0 < schema.maxFiles) (ops : List (Op R)) (whole : s.Whole schema) :
    (MultiPart.run schema ops s).Whole schema := by
  induction ops generalizing s with
  | nil => exact whole
  | cons op ops ih => exact ih (whole.apply some_part op)

/-- In every state of a table that may have parts, each loop over the table visits every
stored record once, in its direction. -/
theorem run_visits (schema : MultiPartSchema R) (some_part : 0 < schema.maxFiles)
    (ops : List (Op R)) :
    (run schema ops (created schema)).VisitsAll schema (run schema ops (created schema)).stored :=
  have whole := (whole_created schema).run some_part ops
  whole.sync.visitsAll schema whole.filled

theorem run_visits_log : (run logSchema [.save (0, 5), .save (0, 7), .movePrev]
    (created logSchema)).VisitsAll logSchema
      (run logSchema [.save (0, 5), .save (0, 7), .movePrev] (created logSchema)).stored :=
  run_visits logSchema (by decide) _

/-! ## Searching by id -/

end CimArm.MultiPart
