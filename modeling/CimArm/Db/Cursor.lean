import CimArm.Db.Content
import Mathlib.Algebra.Order.Ring.Int

/-!
# Cursor positions of a multi-part table

A cursor that has just read a record stands on some part and some record of it;
`AtRecord` numbers these positions along the whole table, in stored order.
`moveNext` and `movePrev` step by one along that numbering, over the ends of
parts as well, and no movement changes the content (`Frame`) or puts the cursors
out of step (`Synced`).
-/

namespace CimArm

open List

namespace Content

variable {R : Type} {c : Content R} {k j : Nat} {row : IndexRow} {r : R}

/-- Every part of the index has records. -/
def Filled (c : Content R) : Prop := ∀ row ∈ c.rows, (c.parts row.tableName).records ≠ []

/-- The position of the first record of part `k` in the whole table. -/
def start (c : Content R) (k : Nat) : Nat := ((c.files.take k).flatMap (·.records)).length

theorem files_getElem? (hrow : c.rows[k]? = some row) :
    c.files[k]? = some (c.parts row.tableName) := by
  simp [files, hrow]

theorem stored_getElem? (hrow : c.rows[k]? = some row)
    (hr : (c.parts row.tableName).records[j]? = some r) : c.stored[c.start k + j]? = some r := by
  have hfile := files_getElem? hrow
  obtain ⟨hk, heq⟩ := List.getElem?_eq_some_iff.1 hfile
  have split : c.stored = (c.files.take k).flatMap (·.records) ++
      ((c.parts row.tableName).records ++ (c.files.drop (k + 1)).flatMap (·.records)) := by
    rw [← flatMap_cons, ← heq, ← drop_eq_getElem_cons hk, ← flatMap_append, take_append_drop]
    rfl
  have hj : j < (c.parts row.tableName).records.length := (List.getElem?_eq_some_iff.1 hr).1
  rw [split, start, List.getElem?_append_right (by omega), Nat.add_sub_cancel_left,
    List.getElem?_append_left hj, hr]

theorem start_succ (hrow : c.rows[k]? = some row) :
    c.start (k + 1) = c.start k + (c.parts row.tableName).records.length := by
  have hfile := files_getElem? hrow
  simp [start, take_add_one, hfile]

theorem start_rows_length (c : Content R) : c.start c.rows.length = c.stored.length := by
  have : c.files.length = c.rows.length := by simp [files]
  rw [start, ← this, take_length]
  rfl

theorem start_le (c : Content R) (k : Nat) : c.start k ≤ c.stored.length := by
  have split : c.stored = (c.files.take k).flatMap (·.records) ++
      (c.files.drop k).flatMap (·.records) := by
    rw [← flatMap_append, take_append_drop]
    rfl
  rw [split, start, length_append]
  omega

@[simp] theorem start_zero (c : Content R) : c.start 0 = 0 := by simp [start]

theorem exists_row (hk : k < c.rows.length) : ∃ row, c.rows[k]? = some row :=
  ⟨c.rows[k], List.getElem?_eq_getElem hk⟩

theorem length_pos (filled : c.Filled) (hrow : c.rows[k]? = some row) :
    0 < (c.parts row.tableName).records.length :=
  length_pos_iff.2 (filled row (mem_of_getElem? hrow))

end Content

namespace MultiPart

variable {R : Type} {schema : MultiPartSchema R} {s s' : MultiPart R}

/-- The cursor has just read record `j` of part `k`. -/
structure OnRecord (s : MultiPart R) (k j : Nat) (row : IndexRow) : Prop where
  rowAt : s.indexTable.records[k]? = some row
  number : s.currentTableNumber = k
  name : s.dataName = row.tableName
  record : (s.parts row.tableName).records[j]? = some s.data.buffer
  pos : s.data.pos = j + 1
  flag : s.data.feof = false

/-- The cursor has just read record `i` of the table. -/
def AtRecord (s : MultiPart R) (i : Nat) : Prop :=
  ∃ k j row, s.OnRecord k j row ∧ i = s.content.start k + j

/-- The cursor is before the first record of the table. -/
structure AtStart (s : MultiPart R) : Prop where
  number : s.currentTableNumber = 0
  name : ∀ row, s.indexTable.records[0]? = some row → s.dataName = row.tableName
  pos : s.data.pos = 0
  flag : s.data.feof = false

theorem AtRecord.buffer {i : Nat} (here : s.AtRecord i) : s.stored[i]? = some s.data.buffer := by
  obtain ⟨k, j, row, on, rfl⟩ := here
  exact Content.stored_getElem? (c := s.content) on.rowAt on.record

/-! ## Moving the data record set -/

theorem Frame.data (s : MultiPart R) (data : RecordSet R) : s.Frame { s with data := data } :=
  ⟨rfl, rfl, rfl, rfl⟩

theorem Frame.readCurrentData (s : MultiPart R) : s.Frame s.readCurrentData := ⟨rfl, rfl, rfl, rfl⟩

theorem Frame.getIndexCount (s : MultiPart R) : s.Frame s.getIndexCount.2 := ⟨rfl, rfl, rfl, rfl⟩

theorem Synced.data (sync : s.Synced) {data : RecordSet R} (flag : data.FlagSound s.dataTable)
    (empty : s.indexTable.records = [] → data.pos = 0) : ({ s with data := data }).Synced :=
  ⟨sync.notNew, sync.name, sync.bound, sync.behind, sync.last, fun rows =>
    ⟨(sync.empty rows).1, (sync.empty rows).2.1, empty rows, (sync.empty rows).2.2.2⟩, flag,
    sync.named, sync.buffered⟩

theorem Synced.readCurrentData (sync : s.Synced) : s.readCurrentData.Synced :=
  ⟨sync.notNew, sync.name, sync.bound, sync.behind, sync.last, sync.empty, sync.flag,
    sync.named, sync.buffered⟩

/-- Nothing stored is lost and the cursors are in step. -/
def Keeps (s s' : MultiPart R) : Prop := s.Frame s' ∧ s'.Synced

theorem Keeps.trans {s'' : MultiPart R} (h : s.Keeps s') (h' : s'.Keeps s'') : s.Keeps s'' :=
  ⟨h.1.trans h'.1, h'.2⟩

theorem Synced.keeps (sync : s.Synced) : s.Keeps s := ⟨.refl s, sync⟩

/-- Neither the table nor the open part is adding a record. -/
structure Viewing (s : MultiPart R) : Prop where
  table : s.isNewRecord = false
  data : s.data.isNewRecord = false

/-- A movement keeps the table, and does not start to add a record. -/
structure Moves (s s' : MultiPart R) : Prop where
  frame : s.Frame s'
  synced : s'.Synced
  viewing : s.Viewing → s'.Viewing

theorem Moves.keeps (h : s.Moves s') : s.Keeps s' := ⟨h.frame, h.synced⟩

theorem Moves.trans {s'' : MultiPart R} (h : s.Moves s') (h' : s'.Moves s'') : s.Moves s'' :=
  ⟨h.1.trans h'.1, h'.2, fun view => h'.3 (h.3 view)⟩

theorem Synced.moves (sync : s.Synced) : s.Moves s := ⟨.refl s, sync, id⟩

theorem Moves.data {data : RecordSet R} (h : s.Moves s') (nonempty : s.indexTable.records ≠ [])
    (flag : data.FlagSound s'.dataTable)
    (stored : s'.data.isNewRecord = false → data.isNewRecord = false) :
    s.Moves { s' with data := data } :=
  ⟨h.1.trans (.data s' data), h.2.data flag fun rows => absurd (h.1.indexTable ▸ rows) nonempty,
    fun view => ⟨(h.3 view).table, stored (h.3 view).data⟩⟩

theorem Moves.readCurrentData (h : s.Moves s') : s.Moves s'.readCurrentData :=
  ⟨h.1.trans (.readCurrentData s'), h.2.readCurrentData, fun view => ⟨rfl, (h.3 view).data⟩⟩

theorem Synced.moves_getIndexCount (sync : s.Synced) : s.Moves s.getIndexCount.2 :=
  ⟨.getIndexCount s, sync.getIndexCount, fun view => ⟨view.table, view.data⟩⟩

theorem Synced.dataTable_nil (sync : s.Synced) (rows : s.indexTable.records = []) :
    s.dataTable.records = [] ∧ s.data.pos = 0 := by
  obtain ⟨-, name, pos, empty⟩ := sync.empty rows
  exact ⟨by rw [dataTable, name, empty], pos⟩

/-- Opening any part by a number of the index, or by a number before it, wherever
the index was moved to; where the part is open already the index is not moved
again, so that it must have reached it. -/
theorem Synced.moves_openDataTable_index (schema : MultiPartSchema R) (sync : s.Synced)
    {index : RecordSet IndexRow} {k : Int} (nonempty : s.indexTable.records ≠ [])
    (hk : k < s.indexTable.records.length) (notNew : index.isNewRecord = false)
    (buffered : index.buffer ∈ s.indexTable.records)
    (reached : s.currentTableNumber = k → k + 1 ≤ index.pos ∧
      ∀ init row, s.indexTable.records = init ++ [row] → k = init.length →
        index.pos = init.length + 1 ∧ index.buffer = row) :
    s.Moves (({ s with index := index } : MultiPart R).openDataTable schema k) := by
  have moved : s.Frame { s with index := index } := ⟨rfl, rfl, rfl, rfl⟩
  refine ⟨moved.trans (frame_openDataTable schema _ k).1, ?_, fun view => ?_⟩
  swap
  · rw [MultiPart.openDataTable]
    split_ifs
    · exact ⟨view.table, view.data⟩
    · exact ⟨view.table, rfl⟩
  by_cases same : s.currentTableNumber = k
  · obtain ⟨behind, last⟩ := reached same
    rw [openDataTable_self (s := { s with index := index }) same]
    exact ⟨notNew, sync.name, sync.bound, fun _ => same ▸ behind,
      fun init row rows number => last init row rows (same ▸ number),
      sync.empty, sync.flag, sync.named, fun _ => buffered⟩
  · rcases lt_or_ge k 0 with neg | pos
    · rw [MultiPart.openDataTable, if_neg same, RecordSet.seek_set_neg neg]
      refine ⟨rfl, fun j row hj => ?_, fun _ => hk, fun _ => ?_, fun init row _ hj => ?_,
        fun rows => absurd rows nonempty, RecordSet.flagSound_of_feof rfl,
        fun _ => ⟨_, buffered, rfl⟩, fun _ => buffered⟩
      · have : k = j := hj
        omega
      · show k + 1 ≤ (index.pos : Int)
        omega
      · have : k = init.length := hj
        omega
    · obtain ⟨n, rfl⟩ := Int.eq_ofNat_of_zero_le pos
      obtain ⟨row, hrow⟩ : ∃ row, s.indexTable.records[n]? = some row :=
        ⟨_, List.getElem?_eq_getElem (by omega)⟩
      rw [openDataTable_of_ne (s := { s with index := index }) same hrow]
      exact synced_moved hrow rfl

theorem Synced.moves_openDataTable (schema : MultiPartSchema R) (sync : s.Synced) {k : Int}
    (nonempty : s.indexTable.records ≠ []) (hk : k < s.indexTable.records.length) :
    s.Moves (s.openDataTable schema k) :=
  sync.moves_openDataTable_index schema nonempty hk sync.notNew (sync.buffered nonempty)
    fun same => ⟨same ▸ sync.behind nonempty,
      fun init row rows number => sync.last init row rows (same.trans number)⟩

/-! ## Steps -/

theorem OnRecord.at_ {k j : Nat} {row : IndexRow} (on : s.OnRecord k j row) :
    s.AtRecord (s.content.start k + j) :=
  ⟨k, j, row, on, rfl⟩

/-! ## Movements keep the table -/

theorem Synced.moves_readNext (sync : s.Synced) : s.Moves s.readNext.2 := by
  have moved : s.Moves { s with data := (s.data.moveNext s.dataTable).2 } := by
    refine ⟨.data s _, sync.data sync.flag.moveNext fun rows => ?_,
      fun view => ⟨view.table, RecordSet.moveNext_isNewRecord view.data⟩⟩
    obtain ⟨empty, pos⟩ := sync.dataTable_nil rows
    rw [RecordSet.moveNext_nil empty, pos]
  simp only [readNext]
  split
  · exact moved.readCurrentData
  · exact moved

theorem Synced.moves_readPrev (sync : s.Synced) : s.Moves s.readPrev.2 := by
  have moved : s.Moves { s with data := (s.data.movePrev s.dataTable).2 } := by
    refine ⟨.data s _, sync.data sync.flag.movePrev fun rows => ?_,
      fun view => ⟨view.table, RecordSet.movePrev_isNewRecord view.data⟩⟩
    obtain ⟨-, pos⟩ := sync.dataTable_nil rows
    rw [RecordSet.movePrev_start pos, pos]
  simp only [readPrev]
  split
  · exact moved.readCurrentData
  · exact moved

theorem Moves.readNext (h : s.Moves s') : s.Moves s'.readNext.2 := h.trans h.2.moves_readNext

theorem Synced.moves_readNextPart (schema : MultiPartSchema R) (sync : s.Synced) :
    s.Moves (s.readNextPart schema).2 := by
  have first := sync.moves_getIndexCount
  show s.Moves (if (s.indexTable.records.length = 0 ||
    s.getIndexCount.2.atLastTable s.indexTable.records.length) = true then
      (false, s.getIndexCount.2) else _).2
  split_ifs with hlast
  · exact first
  · simp only [Bool.or_eq_true, decide_eq_true_eq, not_or, atLastTable, not_lt, not_le] at hlast
    have nonempty : s.indexTable.records ≠ [] := fun h => hlast.1 (by simp [h])
    have below : s.getIndexCount.2.currentTableNumber + 1 <
        (s.getIndexCount.2.indexTable.records.length : Int) := by
      have := hlast.2.2
      show s.getIndexCount.2.currentTableNumber + 1 < (s.indexTable.records.length : Int)
      omega
    have opened := first.trans (first.2.moves_openDataTable schema nonempty below)
    exact (opened.data nonempty opened.2.flag.moveBeforeFirst
      (RecordSet.fseek_isNewRecord 0).trans).readNext

theorem Synced.moves_moveNext (schema : MultiPartSchema R) (sync : s.Synced) :
    s.Moves (s.moveNext schema).2 := by
  have first := sync.moves_readNext
  rw [moveNext]
  generalize s.readNext = step at first ⊢
  obtain ⟨found, s₁⟩ := step
  cases found with
  | true => exact first
  | false => exact first.trans (first.2.moves_readNextPart schema)

theorem Synced.moves_readPrevPart (schema : MultiPartSchema R) (sync : s.Synced) :
    s.Moves (s.readPrevPart schema).2 := by
  rw [readPrevPart]
  split_ifs with hzero
  · exact sync.moves
  · have nonempty : s.indexTable.records ≠ [] := fun h => hzero (sync.empty h).1
    have bound := sync.bound nonempty
    have opened := sync.moves_openDataTable schema (k := s.currentTableNumber - 1) nonempty
      (by omega)
    exact (opened.data nonempty opened.2.flag.moveLast
      RecordSet.moveLast_isNewRecord).readCurrentData

theorem Synced.moves_movePrev (schema : MultiPartSchema R) (sync : s.Synced) :
    s.Moves (s.movePrev schema).2 := by
  have first := sync.moves_readPrev
  rw [movePrev]
  generalize s.readPrev = step at first ⊢
  obtain ⟨found, s₁⟩ := step
  cases found with
  | true => exact first
  | false => exact first.trans (first.2.moves_readPrevPart schema)

theorem Synced.moves_moveFirst (schema : MultiPartSchema R) (sync : s.Synced) :
    s.Moves (s.moveFirst schema).2 := by
  have first := sync.moves_getIndexCount
  show s.Moves (if s.indexTable.records.length = 0 then (false, s.getIndexCount.2) else _).2
  split_ifs with hzero hnumber
  · exact first
  · have nonempty : s.getIndexCount.2.indexTable.records ≠ [] := fun h =>
      hzero (congrArg List.length h)
    have opened := first.trans (first.2.moves_openDataTable schema (k := 0) nonempty
      (by simpa using length_pos_iff.2 nonempty))
    exact (opened.data nonempty opened.2.flag.moveFirst
      fun _ => RecordSet.seek_isNewRecord .set 0).readCurrentData
  · exact (first.data (fun h => hzero (congrArg List.length h))
      first.2.flag.moveFirst fun _ => RecordSet.seek_isNewRecord .set 0).readCurrentData

theorem Synced.moves_moveLast (schema : MultiPartSchema R) (sync : s.Synced) :
    s.Moves (s.moveLast schema).2 := by
  have first := sync.moves_getIndexCount
  show s.Moves (if s.indexTable.records.length = 0 then (false, s.getIndexCount.2) else _).2
  split_ifs with hzero hnumber
  · exact first
  · have nonempty : s.getIndexCount.2.indexTable.records ≠ [] := fun h =>
      hzero (congrArg List.length h)
    have opened := first.trans (first.2.moves_openDataTable schema
      (k := s.indexTable.records.length - 1) nonempty
      (by show _ < (s.indexTable.records.length : Int); omega))
    exact (opened.data nonempty opened.2.flag.moveLast
      RecordSet.moveLast_isNewRecord).readCurrentData
  · exact (first.data (fun h => hzero (congrArg List.length h))
      first.2.flag.moveLast RecordSet.moveLast_isNewRecord).readCurrentData

theorem Synced.moves_moveBeforeFirst (schema : MultiPartSchema R) (sync : s.Synced) :
    s.Moves (s.moveBeforeFirst schema).2 := by
  have opened : s.Moves
      (if s.currentTableNumber ≠ 0 then s.openDataTable schema 0 else s) := by
    split_ifs with hnumber
    · have nonempty : s.indexTable.records ≠ [] := fun h => hnumber (sync.empty h).1
      exact sync.moves_openDataTable schema nonempty (by simpa using length_pos_iff.2 nonempty)
    · exact sync.moves
  rw [moveBeforeFirst]
  generalize (if s.currentTableNumber ≠ 0 then s.openDataTable schema 0 else s) = s₁ at opened
  refine ⟨opened.1.trans (.data s₁ _), opened.2.data opened.2.flag.moveBeforeFirst fun _ => ?_,
    fun view => ⟨(opened.3 view).table, (RecordSet.fseek_isNewRecord 0).trans (opened.3 view).data⟩⟩
  rw [RecordSet.moveBeforeFirst_snd]

/-! ## Movements step along the table -/

section steps

variable {k j i : Nat} {row : IndexRow}

theorem OnRecord.dataTable (on : s.OnRecord k j row) :
    s.dataTable = s.parts row.tableName := by
  rw [MultiPart.dataTable, on.name]

theorem OnRecord.lt (on : s.OnRecord k j row) : k < s.indexTable.records.length :=
  (List.getElem?_eq_some_iff.1 on.rowAt).1

theorem readNext_read {r : R} (hr : s.dataTable.records[s.data.pos]? = some r)
    (flag : s.data.feof = false) :
    s.readNext = (true, { s with data := RecordSet.onRecord s.data.pos r }.readCurrentData) := by
  simp [readNext, RecordSet.moveNext_read hr flag]

theorem moveNext_of_read (h : s.readNext = (true, s')) :
    s.moveNext schema = (true, s') := by
  simp [MultiPart.moveNext, h]

theorem readNext_end (h : s.dataTable.records.length ≤ s.data.pos) :
    s.readNext = (false, { s with data := (s.data.moveNext s.dataTable).2 }) := by
  simp [readNext, (RecordSet.moveNext_end h).1]

theorem onRecord_of {r : R} (rowAt : s.indexTable.records[k]? = some row)
    (number : s.currentTableNumber = k) (name : s.dataName = row.tableName)
    (hr : (s.parts row.tableName).records[j]? = some r) :
    ({ s with data := .onRecord j r } : MultiPart R).readCurrentData.OnRecord k j row :=
  ⟨rowAt, number, name, hr, rfl, rfl⟩

theorem openDataTable_number (schema : MultiPartSchema R) {n : Nat} (number : s.currentTableNumber ≠ n)
    (hrow : s.indexTable.records[n]? = some row) :
    (s.openDataTable schema n).indexTable.records[n]? = some row ∧
      (s.openDataTable schema n).currentTableNumber = n ∧
      (s.openDataTable schema n).dataName = row.tableName ∧
      (s.openDataTable schema n).parts = s.parts ∧
      (s.openDataTable schema n).data = RecordSet.open schema.toSchema := by
  rw [openDataTable_of_ne number hrow]
  exact ⟨hrow, rfl, rfl, rfl, rfl⟩

theorem readNextPart_read (schema : MultiPartSchema R) (number : s.currentTableNumber = k)
    (hrow : s.indexTable.records[k + 1]? = some row) {r : R}
    (hr : (s.parts row.tableName).records[0]? = some r) :
    (s.readNextPart schema).1 = true ∧ (s.readNextPart schema).2.OnRecord (k + 1) 0 row := by
  have hk : k + 1 < s.indexTable.records.length := (List.getElem?_eq_some_iff.1 hrow).1
  have more : (s.indexTable.records.length = 0 ||
      s.getIndexCount.2.atLastTable s.indexTable.records.length) = false := by
    have number : s.getIndexCount.2.currentTableNumber = k := number
    simp only [atLastTable, number, Bool.or_eq_false_iff, decide_eq_false_iff_not]
    omega
  have next : s.getIndexCount.2.currentTableNumber + 1 = (k + 1 : Nat) := congrArg (· + 1) number
  obtain ⟨hrow', number', name', parts', data'⟩ := openDataTable_number schema
    (s := s.getIndexCount.2) (n := k + 1) (by rw [← next]; omega) hrow
  have step : s.readNextPart schema =
      (let s₁ := s.getIndexCount.2.openDataTable schema (k + 1 : Nat)
      ({ s₁ with data := (s₁.data.moveBeforeFirst s₁.dataTable).2 } : MultiPart R).readNext) := by
    rw [readNextPart, ← next]
    exact if_neg fun h => absurd (more.symm.trans h) (by simp)
  rw [step]
  generalize s.getIndexCount.2.openDataTable schema (k + 1 : Nat) = s₁ at *
  simp only [data', RecordSet.moveBeforeFirst_snd]
  rw [readNext_read (r := r) _ rfl]
  · exact ⟨rfl, onRecord_of (s := s₁) hrow' number' name' (by rw [parts']; exact hr)⟩
  · show (s₁.parts s₁.dataName).records[0]? = some r
    rw [name', parts']
    exact hr

theorem readNextPart_end (schema : MultiPartSchema R) (number : s.currentTableNumber = k)
    (hk : s.indexTable.records.length = k + 1) :
    s.readNextPart schema = (false, s.getIndexCount.2) := by
  refine if_pos ?_
  simp [atLastTable, number, hk]

theorem OnRecord.moveNext_inside (schema : MultiPartSchema R) (on : s.OnRecord k j row)
    (hj : j + 1 < (s.parts row.tableName).records.length) :
    (s.moveNext schema).1 = true ∧ (s.moveNext schema).2.OnRecord k (j + 1) row := by
  have hr : s.dataTable.records[j + 1]? = some (s.parts row.tableName).records[j + 1] := by
    rw [on.dataTable]
    exact List.getElem?_eq_getElem hj
  have step := readNext_read (by rw [on.pos]; exact hr) on.flag
  rw [on.pos] at step
  rw [moveNext_of_read step]
  exact ⟨rfl, onRecord_of on.rowAt on.number on.name (List.getElem?_eq_getElem hj)⟩

theorem OnRecord.atRecord (on : s.OnRecord k j row) (h : s.content.start k + j = i) :
    s.AtRecord i :=
  ⟨k, j, row, on, h.symm⟩

theorem AtRecord.moveNext (schema : MultiPartSchema R) (sync : s.Synced)
    (filled : s.content.Filled) (here : s.AtRecord i) :
    (i + 1 < s.content.stored.length →
      (s.moveNext schema).1 = true ∧ (s.moveNext schema).2.AtRecord (i + 1)) ∧
    (s.content.stored.length ≤ i + 1 →
      (s.moveNext schema).1 = false ∧ ((s.moveNext schema).2.eof).1 = true) := by
  have frame := (sync.moves_moveNext schema).1.content
  obtain ⟨k, j, row, on, rfl⟩ := here
  have hsucc : s.content.start (k + 1) =
      s.content.start k + (s.parts row.tableName).records.length :=
    Content.start_succ (c := s.content) on.rowAt
  have hj : j < (s.parts row.tableName).records.length :=
    (List.getElem?_eq_some_iff.1 on.record).1
  have bound := s.content.start_le (k + 1)
  rcases Nat.lt_or_ge (j + 1) (s.parts row.tableName).records.length with inside | last
  · -- the next record is in the same part
    refine ⟨fun _ => ?_, fun h => absurd h (by omega)⟩
    obtain ⟨found, on'⟩ := on.moveNext_inside schema inside
    exact ⟨found, on'.atRecord (by rw [frame]; omega)⟩
  · have atEnd : s.dataTable.records.length ≤ s.data.pos := by
      rw [on.dataTable, on.pos]
      exact last
    have failed : s.moveNext schema =
        ({ s with data := (s.data.moveNext s.dataTable).2 } : MultiPart R).readNextPart schema := by
      rw [MultiPart.moveNext, readNext_end atEnd]
      rfl
    rcases Nat.lt_or_ge (k + 1) s.indexTable.records.length with more | final
    · -- the next record is the first of the next part
      obtain ⟨row', hrow'⟩ := Content.exists_row (c := s.content) more
      have size := Content.length_pos filled hrow'
      have hsucc' := Content.start_succ (c := s.content) hrow'
      have bound' := s.content.start_le (k + 1 + 1)
      refine ⟨fun _ => ?_, fun h => absurd h (by omega)⟩
      rw [failed] at frame ⊢
      obtain ⟨found, on'⟩ := readNextPart_read schema
        (s := { s with data := (s.data.moveNext s.dataTable).2 }) on.number hrow'
        (List.getElem?_eq_getElem size)
      exact ⟨found, on'.atRecord (by rw [frame]; omega)⟩
    · -- the table ends here
      have count : s.indexTable.records.length = k + 1 := by
        have := on.lt
        omega
      have total : s.content.start (k + 1) = s.content.stored.length := by
        rw [← count]
        exact s.content.start_rows_length
      refine ⟨fun h => absurd h (by omega), fun _ => ?_⟩
      have ended := readNextPart_end schema
        (s := { s with data := (s.data.moveNext s.dataTable).2 }) on.number count
      have flag : (s.data.moveNext s.dataTable).2.eof s.dataTable = true :=
        (RecordSet.moveNext_end atEnd).2.1
      rw [failed, ended]
      refine ⟨rfl, ?_⟩
      simp only [MultiPart.eof, MultiPart.getIndexCount, atLastTable, on.number, count]
      simp [MultiPart.dataTable] at flag ⊢
      exact flag

theorem AtStart.moveNext (schema : MultiPartSchema R) (sync : s.Synced)
    (filled : s.content.Filled) (start : s.AtStart) (nonempty : s.content.rows ≠ []) :
    (s.moveNext schema).1 = true ∧ (s.moveNext schema).2.AtRecord 0 := by
  have frame := (sync.moves_moveNext schema).1.content
  obtain ⟨row, hrow⟩ := Content.exists_row (length_pos_iff.2 nonempty)
  have name := start.name row hrow
  have hr := List.getElem?_eq_getElem (Content.length_pos filled hrow)
  have step := readNext_read (s := s) (by rw [start.pos, dataTable, name]; exact hr) start.flag
  rw [start.pos] at step
  rw [moveNext_of_read step] at frame ⊢
  exact ⟨rfl, (onRecord_of hrow start.number name hr).atRecord (by rw [frame]; simp)⟩

theorem AtRecord.eof (here : s.AtRecord i) : s.eof.1 = false := by
  obtain ⟨k, j, row, on, -⟩ := here
  have rows : s.indexTable.records.length ≠ 0 := by
    have := on.lt
    omega
  have inside : s.data.eof s.dataTable = false := by
    have hj := (List.getElem?_eq_some_iff.1 on.record).1
    rw [RecordSet.eof, on.flag, on.dataTable, Bool.or_false, decide_eq_false_iff_not]
    omega
  show (decide (s.indexTable.records.length = 0) || (s.data.eof s.dataTable && _)) = false
  simp [rows, inside]

theorem AtRecord.lt (here : s.AtRecord i) : i < s.content.stored.length :=
  (List.getElem?_eq_some_iff.1 here.buffer).1

theorem AtRecord.drop_eq (here : s.AtRecord i) :
    s.content.stored.drop i = s.data.buffer :: s.content.stored.drop (i + 1) := by
  obtain ⟨hi, hr⟩ := List.getElem?_eq_some_iff.1 (show s.content.stored[i]? = _ from here.buffer)
  rw [List.drop_eq_getElem_cons hi, hr]

theorem getIndexCount_buffer (s : MultiPart R) : s.getIndexCount.2.data.buffer = s.data.buffer := rfl

theorem AtRecord.eof_eq (here : s.AtRecord i) : s.eof = (false, s.getIndexCount.2) :=
  Prod.ext here.eof rfl

theorem AtRecord.eof_at (here : s.AtRecord i) : s.getIndexCount.2.AtRecord i := by
  obtain ⟨k, j, row, on, pos⟩ := here
  exact ⟨k, j, row, ⟨on.rowAt, on.number, on.name, on.record, on.pos, on.flag⟩, pos⟩

theorem AtRecord.ahead (schema : MultiPartSchema R) (sync : s.Synced) (filled : s.content.Filled)
    (here : s.AtRecord i) :
    s.Moves (s.getIndexCount.2.moveNext schema).2 ∧
      (i + 1 < s.content.stored.length → (s.getIndexCount.2.moveNext schema).2.AtRecord (i + 1)) ∧
      (s.content.stored.length ≤ i + 1 →
        (s.getIndexCount.2.moveNext schema).2.eof.1 = true) := by
  have counted := sync.moves_getIndexCount
  obtain ⟨step, last⟩ := here.eof_at.moveNext schema counted.2 filled
  exact ⟨counted.trans (counted.2.moves_moveNext schema), fun more => (step more).2,
    fun final => (last final).2⟩

theorem readPrevPart_read (schema : MultiPartSchema R) (number : s.currentTableNumber = (k + 1 : Nat))
    (hrow : s.indexTable.records[k]? = some row) {init : List R} {r : R}
    (records : (s.parts row.tableName).records = init ++ [r]) :
    (s.readPrevPart schema).1 = true ∧
      (s.readPrevPart schema).2.OnRecord k init.length row := by
  have before : s.currentTableNumber - 1 = (k : Nat) := by omega
  obtain ⟨hrow', number', name', parts', data'⟩ := openDataTable_number schema
    (s := s) (n := k) (by omega) hrow
  have step : s.readPrevPart schema =
      (true, ({ s.openDataTable schema (k : Nat) with
        data := ((s.openDataTable schema (k : Nat)).data.moveLast
          (s.openDataTable schema (k : Nat)).dataTable).2 } : MultiPart R).readCurrentData) := by
    rw [readPrevPart, before]
    exact if_neg (by omega)
  rw [step]
  generalize s.openDataTable schema (k : Nat) = s₁ at *
  have table : s₁.dataTable.records = init ++ [r] := by rw [dataTable, name', parts', records]
  rw [data', RecordSet.moveLast_snoc table (fun raised => by simp [RecordSet.open] at raised)]
  exact ⟨rfl, onRecord_of hrow' number' name' (by rw [parts', records]; simp)⟩

theorem AtRecord.movePrev (schema : MultiPartSchema R) (sync : s.Synced)
    (filled : s.content.Filled) (here : s.AtRecord i) :
    (0 < i → (s.movePrev schema).1 = true ∧ (s.movePrev schema).2.AtRecord (i - 1)) ∧
    (i = 0 → (s.movePrev schema).1 = false ∧ (s.movePrev schema).2.AtStart) := by
  have frame := (sync.moves_movePrev schema).1.content
  obtain ⟨k, j, row, on, rfl⟩ := here
  rcases j with - | j
  · -- the first record of its part
    have first := RecordSet.movePrev_first (t := s.dataTable) on.pos
    have failed : s.movePrev schema =
        ({ s with data := { s.data with pos := 0, feof := false } } : MultiPart R).readPrevPart
          schema := by
      simp [MultiPart.movePrev, readPrev, first]
    rcases k with - | k
    · have start : ({ s with data := { s.data with pos := 0, feof := false } } :
          MultiPart R).readPrevPart schema =
          (false, { s with data := { s.data with pos := 0, feof := false } }) :=
        if_pos on.number
      refine ⟨fun h => absurd h (by simp), fun _ => ?_⟩
      rw [failed, start]
      refine ⟨rfl, on.number, fun row' hrow' => ?_, rfl, rfl⟩
      obtain rfl : row = row' := Option.some.inj (on.rowAt.symm.trans hrow')
      exact on.name
    · obtain ⟨row', hrow'⟩ := Content.exists_row (c := s.content) (k := k)
        (Nat.lt_of_succ_lt on.lt)
      have hsucc := Content.start_succ (c := s.content) hrow'
      have size := Content.length_pos filled hrow'
      obtain ⟨init, r, records⟩ := eq_nil_or_concat _ |>.resolve_left
        (length_pos_iff.1 size)
      rw [concat_eq_append] at records
      have length := congrArg List.length records
      rw [length_append, length_singleton] at length
      rw [failed] at frame ⊢
      obtain ⟨found, on'⟩ := readPrevPart_read schema
        (s := { s with data := { s.data with pos := 0, feof := false } }) on.number hrow' records
      exact ⟨fun _ => ⟨found, on'.atRecord (by rw [frame]; omega)⟩, fun h => by omega⟩
  · -- the record before is in the same part
    have hj : j < (s.parts row.tableName).records.length := by
      have := (List.getElem?_eq_some_iff.1 on.record).1
      omega
    have hr := List.getElem?_eq_getElem hj
    have back := RecordSet.movePrev_read (t := s.dataTable) on.pos
      (by rw [on.dataTable]; exact hr)
    have moved : s.movePrev schema =
        (true, ({ s with data := { s.data with
          pos := j + 1, feof := false
          buffer := (s.parts row.tableName).records[j] } } : MultiPart R).readCurrentData) := by
      simp [MultiPart.movePrev, readPrev, back]
    rw [moved] at frame ⊢
    have on' : OnRecord ({ s with data := { s.data with
        pos := j + 1, feof := false
        buffer := (s.parts row.tableName).records[j] } } : MultiPart R).readCurrentData k j row :=
      ⟨on.rowAt, on.number, on.name, hr, rfl, rfl⟩
    exact ⟨fun _ => ⟨rfl, on'.atRecord (by rw [frame]; omega)⟩, fun h => by omega⟩

theorem Synced.moveLast_atRecord (schema : MultiPartSchema R) (sync : s.Synced)
    (filled : s.content.Filled) :
    (s.content.rows ≠ [] → (s.moveLast schema).1 = true ∧
      (s.moveLast schema).2.AtRecord (s.content.stored.length - 1)) ∧
    (s.content.rows = [] → (s.moveLast schema).1 = false) := by
  have frame := (sync.moves_moveLast schema).1.content
  refine ⟨fun nonempty => ?_, fun empty => ?_⟩
  · obtain ⟨before, row, rows⟩ := eq_nil_or_concat s.indexTable.records |>.resolve_left nonempty
    rw [concat_eq_append] at rows
    have hrow : s.indexTable.records[before.length]? = some row := by simp [rows]
    have size := Content.length_pos (c := s.content) filled hrow
    have hsucc := Content.start_succ (c := s.content) hrow
    have total : s.content.start (before.length + 1) = s.content.stored.length := by
      rw [← s.content.start_rows_length]
      simp [content, rows]
    obtain ⟨init, r, records⟩ := eq_nil_or_concat _ |>.resolve_left
      (length_pos_iff.1 size)
    rw [concat_eq_append] at records
    have length := congrArg List.length records
    rw [length_append, length_singleton] at length
    -- on the last part already, or opening it
    have last : s.getIndexCount.2.Synced := sync.getIndexCount
    have onLast := last.onLast schema rows
    have opened := (last.moves_openDataTable schema (k := before.length) nonempty
      (by show _ < (s.indexTable.records.length : Int); rw [rows]; simp)).1
    have sync' := last.openDataTable schema hrow
    have step : s.moveLast schema =
        (true, ({ s.getIndexCount.2.openDataTable schema before.length with
          data := ((s.getIndexCount.2.openDataTable schema before.length).data.moveLast
            (s.getIndexCount.2.openDataTable schema before.length).dataTable).2 } :
            MultiPart R).readCurrentData) := by
      have count : ((s.indexTable.records.length : Int) - 1) = before.length := by
        rw [rows, length_append, length_singleton]
        omega
      have same : (if s.getIndexCount.2.currentTableNumber ≠ before.length then
          s.getIndexCount.2.openDataTable schema before.length else s.getIndexCount.2) =
          s.getIndexCount.2.openDataTable schema before.length := by
        split_ifs with hne
        · rfl
        · exact (openDataTable_self (not_not.1 hne)).symm
      rw [MultiPart.moveLast, ← same, ← count]
      exact if_neg (by simp [rows])
    rw [step] at frame ⊢
    generalize s.getIndexCount.2.openDataTable schema before.length = s₁ at *
    have table : s₁.dataTable.records = init ++ [r] := by
      rw [dataTable, onLast.name, opened.parts]
      exact records
    have flag : s₁.data.feof = true → s₁.data.pos ≠ 0 := fun raised pos => by
      have := sync'.flag raised pos
      simp [table] at this
    rw [RecordSet.moveLast_snoc table flag] at frame ⊢
    refine ⟨rfl, (onRecord_of (k := before.length) (j := init.length) (r := r)
      ?_ onLast.number onLast.name ?_).atRecord ?_⟩
    · rw [onLast.rows]
      simp
    · rw [opened.parts]
      show (s.content.parts row.tableName).records[init.length]? = some r
      rw [records]
      simp
    · rw [frame]
      omega
  · exact congrArg Prod.fst (if_pos (by simp [show s.indexTable.records = [] from empty]))

theorem Synced.moveFirst_atRecord (schema : MultiPartSchema R) (sync : s.Synced)
    (filled : s.content.Filled) :
    (s.content.rows ≠ [] → (s.moveFirst schema).1 = true ∧ (s.moveFirst schema).2.AtRecord 0) ∧
    (s.content.rows = [] → (s.moveFirst schema).1 = false) := by
  have frame := (sync.moves_moveFirst schema).1.content
  refine ⟨fun nonempty => ?_, fun empty => ?_⟩
  · obtain ⟨row, hrow⟩ := Content.exists_row (length_pos_iff.2 nonempty)
    have size := Content.length_pos (c := s.content) filled hrow
    obtain ⟨r, rest, records⟩ := exists_cons_of_length_pos size
    have hrow' : s.getIndexCount.2.indexTable.records[0]? = some row := hrow
    have last : s.getIndexCount.2.Synced := sync.getIndexCount
    have opened := (last.moves_openDataTable schema (k := (0 : Nat)) nonempty
      (Int.ofNat_lt.2 (length_pos_iff.2 nonempty))).1
    have name : (s.getIndexCount.2.openDataTable schema (0 : Nat)).dataName = row.tableName ∧
        (s.getIndexCount.2.openDataTable schema (0 : Nat)).currentTableNumber = 0 := by
      by_cases h : s.getIndexCount.2.currentTableNumber = (0 : Nat)
      · rw [openDataTable_self h]
        exact ⟨last.name 0 row h hrow', h⟩
      · rw [openDataTable_of_ne h hrow']
        exact ⟨rfl, rfl⟩
    have step : s.moveFirst schema =
        (true, ({ s.getIndexCount.2.openDataTable schema (0 : Nat) with
          data := ((s.getIndexCount.2.openDataTable schema (0 : Nat)).data.moveFirst
            (s.getIndexCount.2.openDataTable schema (0 : Nat)).dataTable).2 } :
            MultiPart R).readCurrentData) := by
      have same : (if s.getIndexCount.2.currentTableNumber ≠ 0 then
          s.getIndexCount.2.openDataTable schema 0 else s.getIndexCount.2) =
          s.getIndexCount.2.openDataTable schema (0 : Nat) := by
        split_ifs with hne
        · rfl
        · exact (openDataTable_self (not_not.1 hne)).symm
      rw [MultiPart.moveFirst, ← same]
      exact if_neg fun h => nonempty (eq_nil_of_length_eq_zero h)
    rw [step] at frame ⊢
    generalize s.getIndexCount.2.openDataTable schema (0 : Nat) = s₁ at *
    have table : s₁.dataTable.records = r :: rest := by
      rw [dataTable, name.1, opened.parts]
      exact records
    have hrow₁ : s₁.indexTable.records[0]? = some row := opened.indexTable ▸ hrow
    have hr : (s₁.parts row.tableName).records[0]? = some r := by
      rw [← name.1]
      exact (congrArg (·[0]?) table)
    rw [RecordSet.moveFirst_cons table] at frame ⊢
    exact ⟨rfl, (onRecord_of hrow₁ name.2 name.1 hr).atRecord (by rw [frame]; simp)⟩
  · exact congrArg Prod.fst (if_pos (by simp [show s.indexTable.records = [] from empty]))

end steps

end MultiPart

end CimArm
