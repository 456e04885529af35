import CimArm.Db.RecordCount

/-!
# Editing a record of a multi-part table

`save` compares the date and the id of the record with those of the buffer before it rewrites
the record.  But a multi-part table redirects its accessors to the record set of the open part,
so that each value is compared with itself; the width of the id is that of the `AUTOINC` field,
which not every table has.

* `edit_iff`: when the save of an edited record does what the check is there for.
-/

namespace CimArm

open List

/-! ## The handle is of a stored record -/

namespace RecordSet

variable {R : Type} {t : Table R} {self : RecordSet R}

theorem save_stored (schema : Schema R) (stored : self.isNewRecord = false) (r : R) :
    ((self.setRecordBuffer r).save schema t).2.1.records ≠ [] ∧
      ((self.setRecordBuffer r).save schema t).2.2.pos ≠ 0 ∧
      ((self.setRecordBuffer r).save schema t).2.2.isNewRecord = false := by
  unfold save
  simp only [setRecordBuffer, Bool.not_true, stored, update]
  refine ⟨?_, Nat.succ_ne_zero _, rfl⟩
  simp [fwrite]

end RecordSet

namespace MultiPart

variable {R : Type} {schema : MultiPartSchema R} {s : MultiPart R}

theorem updateIndexDates_data (schema : MultiPartSchema R) (s : MultiPart R) :
    (s.updateIndexDates schema).data = s.data := by
  rw [updateIndexDates]
  cases schema.dateField with
  | none => rfl
  | some date =>
    dsimp only
    split_ifs <;> rfl

theorem viewing_store (schema : MultiPartSchema R) (s : MultiPart R) (r : R) :
    (s.store schema r).2.Viewing := by
  refine ⟨rfl, ?_⟩
  unfold store saveNew
  generalize openLastPart schema ((s.add schema).setValues r) = opened
  have saved : (opened.2.appendRecord schema).2.data.isNewRecord = false := rfl
  show (if opened.1 = 0 then (opened.2.appendRecord schema).2.addIndexRecord schema
    else (opened.2.appendRecord schema).2.updateIndexDates schema).data.isNewRecord = false
  split_ifs
  · exact saved
  · rw [updateIndexDates_data]
    exact saved

theorem Viewing.deleteOldest (view : s.Viewing) (n : Nat) : (deleteOldest n s).Viewing := by
  induction n generalizing s with
  | zero => exact view
  | succ n ih =>
    rw [MultiPart.deleteOldest]
    dsimp only
    split_ifs
    · exact ih ⟨view.table, view.data⟩
    · exact ih ⟨view.table, view.data⟩

theorem viewing_open (schema : MultiPartSchema R) (parts : Nat → Table R)
    (indexTable : Table IndexRow) : (MultiPart.open schema parts indexTable).Viewing := by
  rw [MultiPart.open]
  dsimp only
  rw [clearOldExcededData]
  split_ifs <;> first
    | exact ⟨rfl, rfl⟩
    | exact ⟨(Viewing.deleteOldest ⟨rfl, rfl⟩ _).table, rfl⟩

/-! ## Saving a stored record -/

/-- How the edit of a record ends: the setters raise where there is no record, and `save`
raises on a read-only field, or reads the width of an `AUTOINC` field that there is not. -/
inductive SaveOutcome : Type
  | noCurrentRecord
  | unmodified
  | readOnlyField
  | nullPointer
  | saved (autoInc : Nat)
  deriving DecidableEq

section save

variable (schema : MultiPartSchema R) (self : MultiPart R)

/-- The accessors of the table are those of the open part: they do not read its buffer. -/
def getValue {α : Type} (field : R → α) : α := field self.data.buffer

def dateChanged : Bool :=
  match schema.dateField with
  | some date => date self.data.buffer ≠ self.getValue date
  | none => false

/-- Hand the buffer to the open part, which rewrites its current record. -/
def rewrite : Nat × MultiPart R :=
  let (autoInc, table, data) :=
    (self.data.setRecordBuffer self.buffer).save schema.toSchema self.dataTable
  (autoInc, { self with
    data := data, parts := Function.update self.parts self.dataName table
    isDirty := false, isNewRecord := false, appendFileMode := false })

/-- `save` of a stored record. -/
def saveStored : SaveOutcome × MultiPart R :=
  if self.dateChanged schema then (.readOnlyField, self)
  else
    match schema.autoIncField with
    | none => (.nullPointer, self)
    | some _ =>
      let autoInc := schema.idField.get self.data.buffer
      let newAutoInc := self.getValue schema.idField.get
      if autoInc ≠ newAutoInc then (.readOnlyField, self)
      else
        let (autoInc, self) := self.rewrite schema
        (.saved autoInc, self)

def save : SaveOutcome × MultiPart R :=
  if !self.isDirty then (.unmodified, self)
  else if !self.isNewRecord then self.saveStored schema
  else
    let (autoInc, self) := self.saveNew schema
    (.saved autoInc, self)

/-- Set the fields of the current record, which together leave `r` in the buffer, and save. -/
def edit (r : R) : SaveOutcome × MultiPart R :=
  let (atEnd, self) := self.eof
  if atEnd && !self.isNewRecord then (.noCurrentRecord, { self with isDirty := true })
  else (self.setValues r).save schema

end save

/-- What a client does with a table: the operations on its cursor, and editing. -/
inductive EditOp (R : Type) : Type
  | onCursor (op : CursorOp R)
  | edit (r : R)

def EditOp.apply (schema : MultiPartSchema R) : EditOp R → MultiPart R → MultiPart R
  | .onCursor op, s => op.apply schema s
  | .edit r, s => (s.edit schema r).2

/-- The state after some operations on a table just created. -/
def edited (schema : MultiPartSchema R) (ops : List (EditOp R)) : MultiPart R :=
  ops.foldl (fun s op => op.apply schema s) (created schema)

/-- The record differs from the current one in its id or its date. -/
def Modifies (schema : MultiPartSchema R) (s : MultiPart R) (r : R) : Prop :=
  schema.idField.get r ≠ schema.idField.get s.current ∨
    ∃ date, schema.dateField = some date ∧ date r ≠ date s.current

/-- The id and the date of record `i` are read-only: an edit that modifies one is refused and
leaves the files, any other rewrites that record and nothing else. -/
structure EditSound (schema : MultiPartSchema R) (s : MultiPart R) (i : Nat) (r : R) : Prop where
  refused : Modifies schema s r → (s.edit schema r).1 = .readOnlyField ∧
    (s.edit schema r).2.parts = s.parts ∧ (s.edit schema r).2.indexTable = s.indexTable
  rewritten : ¬ Modifies schema s r → (∃ autoInc, (s.edit schema r).1 = .saved autoInc) ∧
    (s.edit schema r).2.stored = s.stored.set i r ∧
    (s.edit schema r).2.indexTable = s.indexTable ∧
    ∀ name ≠ s.dataName, (s.edit schema r).2.parts name = s.parts name

/-! ## What an edit does -/

/-- The checks compare each value with itself: only a table without an `AUTOINC` field stops
the save of a stored record. -/
theorem save_stored (schema : MultiPartSchema R) (dirty : s.isDirty = true)
    (view : s.Viewing) :
    s.save schema = match schema.autoIncField with
      | none => (.nullPointer, s)
      | some _ => (.saved (s.rewrite schema).1, (s.rewrite schema).2) := by
  have date : s.dateChanged schema = false := by
    rw [dateChanged]
    cases schema.dateField <;> simp [getValue]
  rw [save, dirty, view.table]
  show s.saveStored schema = _
  rw [saveStored, date]
  cases schema.autoIncField with
  | none => rfl
  | some field => exact if_neg (not_not_intro rfl)

theorem edit_eq (schema : MultiPartSchema R) (view : s.Viewing) (r : R) :
    s.edit schema r =
      if s.eof.1 = true then (.noCurrentRecord, { s.getIndexCount.2 with isDirty := true })
      else match schema.autoIncField with
        | none => (.nullPointer, s.getIndexCount.2.setValues r)
        | some _ => (.saved ((s.getIndexCount.2.setValues r).rewrite schema).1,
          ((s.getIndexCount.2.setValues r).rewrite schema).2) := by
  have saved := save_stored (s := s.getIndexCount.2.setValues r) schema rfl
    ⟨view.table, view.data⟩
  have stored : s.eof.2.isNewRecord = false := view.table
  rw [← saved]
  show (if s.eof.1 && !s.eof.2.isNewRecord then _ else _) = _
  rw [stored]
  simp only [Bool.not_false, Bool.and_true]
  rfl

end MultiPart

/-! ## One record of the table -/

namespace Content

variable {R : Type} {schema : MultiPartSchema R} {c : Content R}

/-- The parts are numbered in order. -/
def Numbered (c : Content R) : Prop := c.rows.Pairwise fun a b => a.tableName < b.tableName

theorem Numbered.store (numbered : c.Numbered) (cut : Bool) (r : R) :
    (c.store schema cut r).Numbered := by
  unfold Content.store
  rcases eq_nil_or_concat c.rows with rows | ⟨init, last, rows⟩
  · rw [rows]
    exact pairwise_singleton _ _
  · rw [concat_eq_append] at rows
    have kept : (c.kept schema).Pairwise fun a b => a.tableName < b.tableName :=
      numbered.sublist (kept_suffix schema c).sublist
    have below : init.Pairwise (fun a b => a.tableName < b.tableName) ∧
        ∀ row ∈ init, row.tableName < last.tableName := by
      have split : (init ++ [last]).Pairwise fun a b => a.tableName < b.tableName := rows ▸ numbered
      obtain ⟨first, -, cross⟩ := pairwise_append.1 split
      exact ⟨first, fun row hrow => cross row hrow last (mem_singleton_self last)⟩
    have snoc {before : List IndexRow} {row : IndexRow}
        (ordered : before.Pairwise fun a b => a.tableName < b.tableName)
        (under : ∀ old ∈ before, old.tableName < row.tableName) :
        (before ++ [row]).Pairwise fun a b => a.tableName < b.tableName := by
      refine pairwise_append.2 ⟨ordered, pairwise_singleton _ _, ?_⟩
      intro old hold new hnew
      rw [mem_singleton.1 hnew]
      exact under old hold
    rw [show c.rows.getLast? = some last by simp [rows]]
    dsimp only
    split_ifs
    · unfold rotate
      rcases eq_nil_or_concat (c.kept schema) with none | ⟨before, newest, some⟩
      · rw [none]
        exact pairwise_singleton _ _
      · rw [concat_eq_append] at some
        rw [show (c.kept schema).getLast? = .some newest by simp [some]]
        refine snoc kept fun old hold => ?_
        rw [some] at kept hold
        rcases mem_append.1 hold with hold | hold
        · have := (pairwise_append.1 kept).2.2 old hold newest (mem_singleton_self _)
          exact Nat.lt_succ_of_lt this
        · rw [mem_singleton.1 hold]
          exact Nat.lt_succ_self _
    · have init_eq : c.rows.dropLast = init := by simp [rows]
      rw [extend, init_eq]
      refine snoc below.1 fun old hold => ?_
      rw [widenTo_tableName]
      exact below.2 old hold

/-- One part replaced. -/
def setPart (c : Content R) (name : Nat) (table : Table R) : Content R :=
  ⟨Function.update c.parts name table, c.rows⟩

theorem files_setPart (numbered : c.Numbered) {k : Nat} {row : IndexRow}
    (hrow : c.rows[k]? = some row) (table : Table R) :
    (c.setPart row.tableName table).files = c.files.set k table := by
  have hk := (List.getElem?_eq_some_iff.1 hrow).1
  apply ext_getElem?
  intro n
  rw [List.getElem?_set]
  split_ifs with same inside
  · rw [← same]
    exact (files_getElem? (c := c.setPart row.tableName table) hrow).trans
      (congrArg some (Function.update_self ..))
  · exact absurd (show k < c.files.length by simpa [files] using hk) inside
  · show (c.rows.map fun row' => Function.update c.parts row.tableName table row'.tableName)[n]? =
      (c.rows.map fun row' => c.parts row'.tableName)[n]?
    rw [List.getElem?_map, List.getElem?_map]
    cases hn : c.rows[n]? with
    | none => rfl
    | some other =>
      have differ : other.tableName ≠ row.tableName := by
        obtain ⟨hn', heq⟩ := List.getElem?_eq_some_iff.1 hn
        obtain ⟨hk', heq'⟩ := List.getElem?_eq_some_iff.1 hrow
        have ordered := pairwise_iff_getElem.1 numbered
        rw [← heq, ← heq']
        rcases Nat.lt_or_gt_of_ne same with before | after
        · exact Nat.ne_of_gt (ordered k n hk' hn' before)
        · exact Nat.ne_of_lt (ordered n k hn' hk' after)
      exact congrArg some (Function.update_of_ne differ ..)

theorem stored_setPart (numbered : c.Numbered) {k j : Nat} {row : IndexRow}
    (hrow : c.rows[k]? = some row) (hj : j < (c.parts row.tableName).records.length) (r : R)
    {table : Table R} (records : table.records = (c.parts row.tableName).records.set j r) :
    (c.setPart row.tableName table).stored = c.stored.set (c.start k + j) r := by
  have hfile := files_getElem? hrow
  obtain ⟨hk, heq⟩ := List.getElem?_eq_some_iff.1 hfile
  have split : c.stored = (c.files.take k).flatMap (·.records) ++
      ((c.parts row.tableName).records ++ (c.files.drop (k + 1)).flatMap (·.records)) := by
    rw [← flatMap_cons, ← heq, ← drop_eq_getElem_cons hk, ← flatMap_append, take_append_drop]
    rfl
  have split' : (c.setPart row.tableName table).stored = (c.files.take k).flatMap (·.records) ++
      (table.records ++ (c.files.drop (k + 1)).flatMap (·.records)) := by
    rw [stored, files_setPart numbered hrow, set_eq_take_append_cons_drop, if_pos hk,
      flatMap_append, flatMap_cons]
  rw [split', split, records, start, set_append_right _ _ (by omega),
    Nat.add_sub_cancel_left, set_append_left _ _ hj]

end Content

namespace MultiPart

variable {R : Type} {schema : MultiPartSchema R} {s : MultiPart R}

/-! ## In every state -/

/-- What a table keeps under every operation and edit. -/
structure Editable (schema : MultiPartSchema R) (s : MultiPart R) : Prop
    extends Whole schema s where
  numbered : s.content.Numbered
  view : s.Viewing

theorem Editable.rewrite (editable : s.Editable schema)
    (nonempty : s.indexTable.records ≠ []) : (s.rewrite schema).2.Editable schema := by
  obtain ⟨records, pos, stored⟩ := RecordSet.save_stored (t := s.dataTable) schema.toSchema
    editable.view.data s.buffer
  have sync := editable.sync
  obtain ⟨row, hrow, name⟩ := sync.named nonempty
  exact
    { sync := ⟨sync.notNew, sync.name, sync.bound, sync.behind, sync.last,
        fun empty => absurd empty nonempty, RecordSet.flagSound_of_pos pos, sync.named,
        sync.buffered⟩
      filled := editable.filled.update records fun row hrow => .inr ⟨row, hrow, rfl⟩
      count := editable.count
      numbered := editable.numbered
      view := ⟨rfl, stored⟩ }

theorem Editable.edit (editable : s.Editable schema) (r : R) :
    (s.edit schema r).2.Editable schema := by
  have sync := editable.sync
  have setValues (dirty : Bool) (buffer : R) : ({ s.getIndexCount.2 with
      isDirty := dirty, buffer := buffer } : MultiPart R).Editable schema :=
    { sync := ⟨sync.notNew, sync.name, sync.bound, sync.behind, sync.last, sync.empty,
        sync.flag, sync.named, sync.buffered⟩
      filled := editable.filled
      count := editable.count
      numbered := editable.numbered
      view := ⟨editable.view.table, editable.view.data⟩ }
  rw [edit_eq schema editable.view]
  split_ifs with atEnd
  · exact setValues true s.buffer
  · have nonempty : s.indexTable.records ≠ [] := by
      intro rows
      refine atEnd ?_
      show (decide (s.indexTable.records.length = 0) || _) = true
      simp [rows]
    cases schema.autoIncField with
    | none => exact setValues true r
    | some field => exact (setValues true r).rewrite nonempty

theorem Editable.apply (some_part : 0 < schema.maxFiles) (editable : s.Editable schema)
    (op : EditOp R) : (op.apply schema s).Editable schema := by
  have sync := editable.sync
  have reads {s' : MultiPart R} (whole : s'.Whole schema) (content : s'.content = s.content)
      (view : s'.Viewing) : s'.Editable schema :=
    { toWhole := whole, numbered := content ▸ editable.numbered, view := view }
  cases op with
  | edit r => exact editable.edit r
  | onCursor op =>
    have whole := editable.toWhole.cursorOp some_part op
    cases op with
    | getRecordCount =>
      exact reads whole (sync.moves_getRecordCount schema).1.content
        ((sync.moves_getRecordCount schema).3 editable.view)
    | onTable op =>
      rcases op.cases with ⟨r, rfl⟩ | rfl | readsOnly
      · have saved : (Op.apply schema (.save r) s).content =
            s.content.store schema s.appendFileMode r :=
          (store_content schema sync editable.filled r).2.1
        exact ⟨whole, saved ▸ editable.numbered.store _ r, viewing_store schema s r⟩
      · have opened : (Op.apply schema .reopen s).content = s.content.reload schema :=
          (synced_open schema (fun name => { s.parts name with
            autoIncValue := (s.parts name).loadAutoIncValue schema.toSchema })
            s.indexTable editable.count fun rows => (sync.empty rows).2.2.2).2
        exact ⟨whole, opened ▸ editable.numbered, viewing_open schema _ _⟩
      · obtain ⟨-, content, viewing⟩ := readsOnly.apply schema sync
        exact reads whole content (viewing editable.view)

theorem editable_edited (schema : MultiPartSchema R) (some_part : 0 < schema.maxFiles)
    (ops : List (EditOp R)) : (edited schema ops).Editable schema := by
  have start : (created schema).Editable schema :=
    { toWhole := whole_created schema
      numbered := by
        rw [Content.Numbered, (created_content schema).2]
        exact List.Pairwise.nil
      view := viewing_open schema _ _ }
  have steps {s : MultiPart R} (editable : s.Editable schema) :
      (ops.foldl (fun s op => op.apply schema s) s).Editable schema := by
    induction ops generalizing s with
    | nil => exact editable
    | cons op ops ih => exact ih (editable.apply some_part op)
  exact steps start

/-! ## The read-only fields -/

theorem Editable.rewrite_atRecord (editable : s.Editable schema) {i : Nat}
    (here : s.AtRecord i) (r : R) :
    (((s.getIndexCount.2.setValues r).rewrite schema).2).stored = s.stored.set i r ∧
      ∀ name ≠ s.dataName,
        ((s.getIndexCount.2.setValues r).rewrite schema).2.parts name = s.parts name := by
  obtain ⟨k, j, row, on, rfl⟩ := here
  have hj : j < (s.parts row.tableName).records.length :=
    (List.getElem?_eq_some_iff.1 on.record).1
  have saved := (RecordSet.save_current schema.toSchema r editable.view.data on.pos
    (t := s.dataTable) (by rw [on.dataTable]; exact on.record)).1
  refine ⟨?_, fun name differ => Function.update_of_ne differ ..⟩
  have rewritten : ((s.getIndexCount.2.setValues r).rewrite schema).2.content =
      s.content.setPart row.tableName
        ((s.data.setRecordBuffer r).save schema.toSchema s.dataTable).2.1 := by
    rw [← on.name]
    rfl
  show ((s.getIndexCount.2.setValues r).rewrite schema).2.content.stored = _
  rw [rewritten]
  refine Content.stored_setPart editable.numbered on.rowAt hj r ?_
  rw [saved, on.dataTable]
  rfl

/-- The save of an edited record refuses, or rewrites, as the read-only fields demand exactly
on a table with an `AUTOINC` field, when neither is modified. -/
theorem edit_iff (schema : MultiPartSchema R) (some_part : 0 < schema.maxFiles)
    (ops : List (EditOp R)) (i : Nat) (here : (edited schema ops).AtRecord i) (r : R) :
    EditSound schema (edited schema ops) i r ↔
      schema.autoIncField.isSome ∧ ¬ Modifies schema (edited schema ops) r := by
  have editable := editable_edited schema some_part ops
  generalize edited schema ops = s at here editable
  have step := edit_eq schema editable.view r
  rw [if_neg (by rw [here.eof]; exact Bool.false_ne_true)] at step
  obtain ⟨stored, others⟩ := editable.rewrite_atRecord here r
  constructor
  · rintro ⟨refused, rewritten⟩
    rw [step] at refused rewritten
    cases hauto : schema.autoIncField with
    | none =>
      rw [hauto] at refused rewritten
      by_cases modifies : Modifies schema s r
      · exact nomatch (refused modifies).1
      · obtain ⟨autoInc, outcome⟩ := (rewritten modifies).1
        exact nomatch outcome
    | some field =>
      rw [hauto] at refused
      exact ⟨rfl, fun modifies => nomatch (refused modifies).1⟩
  · rintro ⟨auto, unmodified⟩
    obtain ⟨field, hauto⟩ := Option.isSome_iff_exists.1 auto
    rw [hauto] at step
    refine ⟨fun modifies => absurd modifies unmodified, fun _ => ?_⟩
    rw [step]
    exact ⟨⟨_, rfl⟩, stored, rfl, others⟩

/-- One record with id 1 and date 5, the cursor on it. -/
def oneEntry : List (EditOp (Nat × Nat)) :=
  [.onCursor (.onTable (.save (0, 5))), .onCursor (.onTable .moveFirst)]

theorem atRecord_oneEntry : (edited logSchema oneEntry).AtRecord 0 :=
  ⟨0, 0, ⟨0, 0, 0, 1⟩, ⟨by decide +kernel, by decide +kernel, by decide +kernel,
    by decide +kernel, by decide +kernel, by decide +kernel⟩, by decide +kernel⟩

theorem edit_iff_log : EditSound logSchema (edited logSchema oneEntry) 0 (7, 5) ↔
    logSchema.autoIncField.isSome ∧ ¬ Modifies logSchema (edited logSchema oneEntry) (7, 5) :=
  edit_iff logSchema (by decide) oneEntry 0 atRecord_oneEntry (7, 5)

/-- An edit of the id is not refused. -/
theorem edit_fails : ¬ EditSound logSchema (edited logSchema oneEntry) 0 (7, 5) := by
  rintro ⟨refused, -⟩
  have modifies : Modifies logSchema (edited logSchema oneEntry) (7, 5) :=
    .inl (by decide +kernel)
  exact absurd (refused modifies).1 (by decide +kernel)

end MultiPart

end CimArm
