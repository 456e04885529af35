import CimArm.Db.MultiPart

/-!
# Saving into a multi-part table

`Content` is a multi-part table without its cursors: the part files and the index
rows.  `Content.store` says what saving a new record means there.  `Synced` is
what the cursors of a `MultiPart` owe to its content between operations, and
`MultiPart.store_content` says that saving keeps it and stores in the content.
-/

namespace CimArm

open List

/-- The part files and the index rows of a multi-part table. -/
structure Content (R : Type) : Type where
  parts : Nat → Table R
  rows : List IndexRow

theorem IndexRow.widen_of_not_outside {row : IndexRow} {date : Nat}
    (h : row.outside date = false) : row.widen date = row := by
  simp only [outside, Bool.or_eq_false_iff, decide_eq_false_iff_not] at h
  simp [widen, h]

namespace Content

variable {R : Type} (schema : MultiPartSchema R) (self : Content R)

/-- The part files of the index rows, oldest first. -/
def files : List (Table R) := self.rows.map fun row => self.parts row.tableName

/-- The records of the table in stored order. -/
def stored : List R := self.files.flatMap (·.records)

/-- The row of a part whose first record is `r`. -/
def newRow (name : Nat) (r : R) : IndexRow :=
  let date := match schema.dateField with
    | some date => truncDateTime (date r)
    | none => 0
  { tableName := name, fromDate := date, toDate := date, fromId := schema.idField.get r }

/-- The row of a part after `r` is added to it. -/
def widenTo (row : IndexRow) (r : R) : IndexRow :=
  match schema.dateField with
  | some date => row.widen (truncDateTime (date r))
  | none => row

/-- Start the part `name` after the rows `kept`, handing it an auto-increment value. -/
def addPart (kept : List IndexRow) (name autoInc : Nat) (r : R) : Content R :=
  let table := { self.parts name with autoIncValue := autoInc }
  { parts := Function.update self.parts name (table.append schema.toSchema r)
    rows := kept ++ [newRow schema name (table.written schema.toSchema r)] }

/-- Add a record to the last part. -/
def extend (kept : List IndexRow) (last : IndexRow) (r : R) : Content R :=
  let table := self.parts last.tableName
  { parts := Function.update self.parts last.tableName (table.append schema.toSchema r)
    rows := kept ++ [widenTo schema last (table.written schema.toSchema r)] }

/-- How many of `count` index rows make room for a new part. -/
def toDelete (count : Nat) : Nat :=
  if count ≥ schema.maxFiles then (count - schema.maxFiles) + 1 else 0

/-- The rows a rotation keeps. -/
def kept : List IndexRow := self.rows.drop (toDelete schema self.rows.length)

/-- Start a new part after the last of the rows that are kept. -/
def rotate (r : R) : Content R :=
  match (self.kept schema).getLast? with
  | some last => self.addPart schema (self.kept schema) (last.tableName + 1)
      (self.parts last.tableName).autoIncValue r
  | none => self.addPart schema (self.kept schema) 0 0 r

/-- A part of `count` records gets no more; `cut` asks for it where there is no limit. -/
def full (cut : Bool) (count : Nat) : Bool :=
  match schema.maxRecordCount with
  | some maxRecordCount => maxRecordCount ≤ count
  | none => cut

/-- Whether saving a new record rotates. -/
def rotates (cut : Bool) : Bool :=
  match self.rows.getLast? with
  | some last => full schema cut (self.parts last.tableName).records.length
  | none => false

/-- Save a new record. -/
def store (cut : Bool) (r : R) : Content R :=
  match self.rows.getLast? with
  | none => self.addPart schema [] 0 (self.parts 0).autoIncValue r
  | some last =>
    if self.rotates schema cut then self.rotate schema r
    else self.extend schema self.rows.dropLast last r

end Content

namespace MultiPart

variable {R : Type} {schema : MultiPartSchema R} {self : MultiPart R}

def content (self : MultiPart R) : Content R := ⟨self.parts, self.indexTable.records⟩

/-- What the cursors owe to the content: the data record set is on the part whose
number it says, the index is not left behind it, on the last part the index
buffer holds the last row, ready to be rewritten, and the data record set has not
found the end of its part at the start. A number may be none of the index, but
the open part and the index buffer are always of the index. -/
structure Synced (s : MultiPart R) : Prop where
  notNew : s.index.isNewRecord = false
  name : ∀ (k : Nat) row, s.currentTableNumber = k →
    s.indexTable.records[k]? = some row → s.dataName = row.tableName
  bound : s.indexTable.records ≠ [] →
    s.currentTableNumber < s.indexTable.records.length
  behind : s.indexTable.records ≠ [] → s.currentTableNumber + 1 ≤ s.index.pos
  last : ∀ init row, s.indexTable.records = init ++ [row] →
    s.currentTableNumber = init.length →
    s.index.pos = init.length + 1 ∧ s.index.buffer = row
  empty : s.indexTable.records = [] →
    s.currentTableNumber = 0 ∧ s.dataName = 0 ∧ s.data.pos = 0 ∧ (s.parts 0).records = []
  flag : s.data.FlagSound s.dataTable
  named : s.indexTable.records ≠ [] → ∃ row ∈ s.indexTable.records, s.dataName = row.tableName
  buffered : s.indexTable.records ≠ [] → s.index.buffer ∈ s.indexTable.records

/-- What searching and moving never change. -/
structure Frame (s s' : MultiPart R) : Prop where
  parts : s'.parts = s.parts
  indexTable : s'.indexTable = s.indexTable
  appendFileMode : s'.appendFileMode = s.appendFileMode
  shouldCutFile : s'.shouldCutFile = s.shouldCutFile

theorem Frame.refl (s : MultiPart R) : s.Frame s := ⟨rfl, rfl, rfl, rfl⟩

theorem Frame.trans {a b c : MultiPart R} (ab : a.Frame b) (bc : b.Frame c) : a.Frame c :=
  ⟨bc.parts.trans ab.parts, bc.indexTable.trans ab.indexTable,
    bc.appendFileMode.trans ab.appendFileMode, bc.shouldCutFile.trans ab.shouldCutFile⟩

theorem Frame.content {a b : MultiPart R} (ab : a.Frame b) : b.content = a.content := by
  simp [MultiPart.content, ab.parts, ab.indexTable]

theorem frame_openDataTable (schema : MultiPartSchema R) (s : MultiPart R) (k : Int) :
    s.Frame (s.openDataTable schema k) ∧ (s.openDataTable schema k).buffer = s.buffer := by
  rw [openDataTable]
  split
  · exact ⟨.refl s, rfl⟩
  · exact ⟨⟨rfl, rfl, rfl, rfl⟩, rfl⟩

variable {s : MultiPart R}

theorem openDataTable_self {k : Int} (h : s.currentTableNumber = k) :
    s.openDataTable schema k = s := by
  rw [openDataTable, if_pos h]

variable {k : Nat} {row : IndexRow} {init : List IndexRow}

theorem openDataTable_of_ne (h : s.currentTableNumber ≠ k)
    (hrow : s.indexTable.records[k]? = some row) : s.openDataTable schema k =
      { s with
        index := .onRecord k row, dataName := row.tableName
        data := RecordSet.open schema.toSchema, currentTableNumber := k } := by
  rw [openDataTable, if_neg h, RecordSet.seek_set hrow]
  rfl

theorem synced_moved (hrow : s.indexTable.records[k]? = some row) {data : RecordSet R}
    (flag : data.feof = false) : ({ s with
      index := .onRecord k row, dataName := row.tableName, data := data
      currentTableNumber := k } : MultiPart R).Synced := by
  have hk : k < s.indexTable.records.length := (List.getElem?_eq_some_iff.1 hrow).1
  have nonempty : s.indexTable.records ≠ [] := ne_nil_of_length_pos (by omega)
  refine ⟨rfl, fun j row' hj hrow' => ?_, fun _ => ?_, fun _ => ?_, fun init row' hinit hj => ?_,
    fun hnil => absurd hnil nonempty, RecordSet.flagSound_of_feof flag,
    fun _ => ⟨row, mem_of_getElem? hrow, rfl⟩, fun _ => mem_of_getElem? hrow⟩
  · obtain rfl : k = j := Int.ofNat_inj.1 hj
    obtain rfl : row = row' := Option.some.inj (hrow.symm.trans hrow')
    rfl
  · simpa using hk
  · simp [RecordSet.onRecord]
  · obtain rfl : k = init.length := Int.ofNat_inj.1 hj
    refine ⟨rfl, ?_⟩
    rw [hinit] at hrow
    simpa [RecordSet.onRecord] using hrow.symm

theorem Synced.openDataTable (schema : MultiPartSchema R) (sync : s.Synced)
    (hrow : s.indexTable.records[k]? = some row) : (s.openDataTable schema k).Synced := by
  by_cases h : s.currentTableNumber = k
  · rwa [openDataTable_self h]
  · rw [openDataTable_of_ne h hrow]
    exact synced_moved hrow rfl

/-! ## Dropping the oldest rows -/

/-- Dropping rows touches the index only; while rows remain, the index is at its
start with the end-of-file flag down. -/
theorem deleteOldest_eq (n : Nat) (s : MultiPart R) (notNew : s.index.isNewRecord = false)
    (flag : s.index.feof = false) :
    ∃ index, deleteOldest n s =
      { s with
        indexTable := { s.indexTable with records := s.indexTable.records.drop n }
        index := index } ∧ index.isNewRecord = false ∧
      (n < s.indexTable.records.length → index.feof = false) ∧
      (0 < n ∨ s.index.pos = 0 → index.pos = 0) := by
  induction n generalizing s with
  | zero => exact ⟨s.index, by simp [deleteOldest], notNew, fun _ => flag, fun h => by simpa using h⟩
  | succ n ih =>
    cases hrows : s.indexTable.records with
    | nil =>
      -- the table is empty: nothing is found any more
      have missing (s : MultiPart R) (hrows : s.indexTable.records = []) :
          s.index.moveFirst s.indexTable =
            (false, { s.index with pos := 0, feof := true, isNewRecord := false, isDirty := false }) := by
        have read : (s.index.seek s.indexTable .set 0) =
            { s.index with pos := 0, feof := true, isNewRecord := false, isDirty := false } := by
          rw [RecordSet.seek, RecordSet.fseek_of_eq (n := 0) (by simp)]
          exact RecordSet.fread_of_length_le (by simp [hrows])
        simp [RecordSet.moveFirst, read, RecordSet.eof]
      have stay (m : Nat) (s : MultiPart R) (hrows : s.indexTable.records = [])
          (notNew : s.index.isNewRecord = false) (hpos : s.index.pos = 0) :
          ∃ index, deleteOldest m s = { s with index := index } ∧ index.isNewRecord = false ∧
            index.pos = 0 := by
        induction m generalizing s with
        | zero => exact ⟨s.index, rfl, notNew, hpos⟩
        | succ m ih =>
          rw [deleteOldest, missing s hrows]
          exact ih _ hrows rfl rfl
      obtain ⟨index, e, hnew, hpos⟩ := stay n { s with index := { s.index with
        pos := 0, feof := true, isNewRecord := false, isDirty := false } } hrows rfl rfl
      refine ⟨index, ?_, hnew, fun h => by simp at h, fun _ => hpos⟩
      have same : ({ s.indexTable with records := [] } : Table IndexRow) = s.indexTable := by
        rw [← hrows]
      rw [deleteOldest, missing s hrows]
      simpa [same] using e
    | cons row rest =>
      obtain ⟨index, e, hnew, hflag, hpos⟩ := ih
        { s with
          indexTable := { s.indexTable with records := rest }
          index := ⟨0, false, row, false, false⟩ } rfl rfl
      refine ⟨index, ?_, hnew, fun h => hflag (by simpa using h), fun _ => hpos (.inr rfl)⟩
      rw [deleteOldest, RecordSet.moveFirst_cons hrows]
      simpa only [if_true, RecordSet.delete_first hrows, drop_succ_cons] using e

/-! ## Opening the part that takes the next record -/

/-- The object is on its last part `row`, after the parts `init`. -/
structure OnLast (s : MultiPart R) (init : List IndexRow) (row : IndexRow) : Prop where
  rows : s.indexTable.records = init ++ [row]
  name : s.dataName = row.tableName
  number : s.currentTableNumber = init.length
  pos : s.index.pos = init.length + 1
  buffer : s.index.buffer = row
  notNew : s.index.isNewRecord = false

theorem OnLast.synced (on : s.OnLast init row) (flag : s.data.FlagSound s.dataTable) :
    s.Synced where
  notNew := on.notNew
  name k row' hk hrow := by
    obtain rfl : k = init.length := Int.ofNat_inj.1 (hk.symm.trans on.number)
    obtain rfl : row = row' := by simpa [on.rows] using hrow
    exact on.name
  bound _ := by
    rw [on.number, on.rows, length_append, length_singleton]
    omega
  behind _ := by simp [on.number, on.pos]
  last init' row' rows' _ := by
    obtain ⟨rfl, hrow⟩ := append_inj' (on.rows.symm.trans rows') rfl
    obtain rfl : row = row' := by simpa using hrow
    exact ⟨on.pos, on.buffer⟩
  empty rows := by simp [on.rows] at rows
  flag := flag
  named _ := ⟨row, by simp [on.rows], on.name⟩
  buffered _ := by simp [on.rows, on.buffer]

theorem Synced.getIndexCount (sync : s.Synced) : s.getIndexCount.2.Synced :=
  ⟨sync.notNew, sync.name, sync.bound, sync.behind, sync.last, sync.empty, sync.flag,
    sync.named, sync.buffered⟩

theorem Synced.onLast (schema : MultiPartSchema R) (sync : s.Synced)
    (rows : s.indexTable.records = init ++ [row]) :
    (s.openDataTable schema init.length).OnLast init row := by
  have hrow : s.indexTable.records[init.length]? = some row := by simp [rows]
  by_cases h : s.currentTableNumber = init.length
  · obtain ⟨hpos, hbuffer⟩ := sync.last init row rows h
    rw [openDataTable_self h]
    exact ⟨rows, sync.name _ _ h hrow, h, hpos, hbuffer, sync.notNew⟩
  · rw [openDataTable_of_ne h hrow]
    exact ⟨rows, rfl, rfl, rfl, rfl, rfl⟩

theorem makeRoom_eq (schema : MultiPartSchema R) (s : MultiPart R)
    (notNew : s.index.isNewRecord = false) :
    ∃ index, s.makeRoom schema =
      { s with
        indexTable := { s.indexTable with records := s.content.kept schema }
        index := index } ∧ index.isNewRecord = false ∧
      (s.content.kept schema ≠ [] → index.feof = false) ∧
      (s.content.kept schema = [] → s.indexTable.records = [] ∨ index.pos = 0) := by
  by_cases hfull : s.indexTable.records.length ≥ schema.maxFiles
  · obtain ⟨index, e, hnew, hflag, hpos⟩ := deleteOldest_eq
      ((s.indexTable.records.length - schema.maxFiles) + 1) s.getIndexCount.2 notNew rfl
    have hkept : s.content.kept schema = s.indexTable.records.drop
        ((s.indexTable.records.length - schema.maxFiles) + 1) := by
      simp [Content.kept, Content.toDelete, content, hfull]
    have room : s.makeRoom schema =
        deleteOldest ((s.indexTable.records.length - schema.maxFiles) + 1) s.getIndexCount.2 :=
      if_pos hfull
    refine ⟨index, by rw [room, e, hkept]; rfl, hnew, fun h => hflag ?_,
      fun _ => .inr (hpos (.inl (by omega)))⟩
    by_contra hlen
    exact h (by rw [hkept]; exact drop_eq_nil_of_le (Nat.le_of_not_lt hlen))
  · have hkept : s.content.kept schema = s.indexTable.records := by
      simp [Content.kept, Content.toDelete, content, hfull]
    have room : s.makeRoom schema = s.getIndexCount.2 := if_neg hfull
    exact ⟨{ s.index with feof := false }, by rw [room, hkept]; rfl, notNew, fun _ => rfl,
      fun h => .inl (hkept ▸ h)⟩

/-- The suffix and the auto-increment value of the part that follows some rows. -/
def nextPart (s : MultiPart R) (kept : List IndexRow) : Nat × Nat :=
  match kept.getLast? with
  | some last => (last.tableName + 1, (s.parts last.tableName).autoIncValue)
  | none => (0, 0)

theorem nextTable_eq (notNew : s.index.isNewRecord = false)
    (flag : s.indexTable.records ≠ [] → s.index.feof = false)
    (start : s.indexTable.records = [] → s.index.pos = 0) :
    ∃ index, s.nextTable = (s.nextPart s.indexTable.records, { s with index := index }) ∧
      index.isNewRecord = false := by
  rcases s.indexTable.records.eq_nil_or_concat with rows | ⟨init, row, rows⟩
  · have none : s.index.moveLast s.indexTable = (false, s.index) := by
      simp [RecordSet.moveLast, RecordSet.bof, RecordSet.eof, rows, start rows]
    exact ⟨s.index, by simp [nextTable, none, nextPart, rows], notNew⟩
  · have nonempty : s.indexTable.records ≠ [] := by simp [rows]
    have last := RecordSet.moveLast_snoc (by simpa using rows)
      (fun raised => absurd ((flag nonempty).symm.trans raised) (by simp))
    exact ⟨.onRecord init.length row, by simp [nextTable, last, nextPart, rows, RecordSet.onRecord],
      rfl⟩

/-- A rotation keeps the newest rows and goes to a new part after them, which
takes over the auto-increment value of the last one kept. -/
theorem appendFile_eq (schema : MultiPartSchema R) (s : MultiPart R)
    (notNew : s.index.isNewRecord = false) (nonempty : s.indexTable.records ≠ []) :
    let kept := s.content.kept schema
    let next := s.nextPart kept
    ∃ index, s.appendFile schema =
      { s with
        parts := Function.update s.parts next.1 { s.parts next.1 with autoIncValue := next.2 }
        indexTable := { s.indexTable with records := kept }
        index := index, dataName := next.1, data := RecordSet.open schema.toSchema
        currentTableNumber := kept.length } ∧
      index.isNewRecord = false ∧ index.feof = false := by
  intro kept next
  obtain ⟨index, room, hnew, hflag, hpos⟩ := makeRoom_eq schema s notNew
  obtain ⟨index', table, hnew'⟩ := nextTable_eq (s := s.makeRoom schema)
    (by rw [room]; exact hnew) (by rw [room]; exact hflag)
    (by rw [room]; exact fun h => (hpos h).resolve_left nonempty)
  refine ⟨{ index' with feof := false }, ?_, hnew', rfl⟩
  rw [appendFile, table, room]
  rfl

/-! ## Writing the record and its index row -/

theorem appendRecord_eq (schema : MultiPartSchema R) (s : MultiPart R)
    (atEnd : s.data.feof = true → s.data.pos = s.dataTable.records.length) :
    ∃ data, (s.appendRecord schema).2 =
      { s with
        data := data
        parts := Function.update s.parts s.dataName
          (s.dataTable.append schema.toSchema s.buffer) } ∧
      data.buffer = s.dataTable.written schema.toSchema s.buffer ∧ data.pos ≠ 0 := by
  obtain ⟨table, hpos, hbuffer, -⟩ := RecordSet.save_new schema.toSchema s.buffer atEnd
  refine ⟨_, ?_, hbuffer, hpos ▸ Nat.succ_ne_zero _⟩
  rw [appendRecord, ← table]

theorem addIndexRecord_eq (schema : MultiPartSchema R) (s : MultiPart R)
    (flag : s.index.feof = false) :
    ∃ index, s.addIndexRecord schema =
      { s with
        indexTable := { s.indexTable with records := s.indexTable.records ++
          [Content.newRow schema s.dataName s.data.buffer] }
        index := index } ∧
      index.pos = s.indexTable.records.length + 1 ∧
      index.buffer = Content.newRow schema s.dataName s.data.buffer ∧
      index.isNewRecord = false := by
  obtain ⟨table, hpos, hbuffer, hnew⟩ := RecordSet.save_new indexSchema
    (Content.newRow schema s.dataName s.data.buffer)
    (fun h : s.index.feof = true => absurd (flag.symm.trans h) (by simp))
  refine ⟨_, ?_, hpos, hbuffer, hnew⟩
  have appended : s.indexTable.append indexSchema (Content.newRow schema s.dataName s.data.buffer) =
      { s.indexTable with records := s.indexTable.records ++
        [Content.newRow schema s.dataName s.data.buffer] } := rfl
  rw [addIndexRecord, ← appended, ← table]
  rfl

theorem updateIndexDates_eq (schema : MultiPartSchema R) (s : MultiPart R)
    (rows : s.indexTable.records = init ++ [row]) (hpos : s.index.pos = init.length + 1)
    (hbuffer : s.index.buffer = row) (notNew : s.index.isNewRecord = false) :
    ∃ index, s.updateIndexDates schema =
      { s with
        indexTable := { s.indexTable with
          records := init ++ [Content.widenTo schema row s.data.buffer] }
        index := index } ∧
      index.pos = init.length + 1 ∧ index.buffer = Content.widenTo schema row s.data.buffer ∧
      index.isNewRecord = false := by
  have same : ({ s.indexTable with records := init ++ [row] } : Table IndexRow) = s.indexTable := by
    rw [← rows]
  cases hdate : schema.dateField with
  | none =>
    refine ⟨s.index, ?_, hpos, ?_, notNew⟩
    · simp only [updateIndexDates, Content.widenTo, hdate]
      rw [same]
    · simpa [Content.widenTo, hdate] using hbuffer
  | some date =>
    have widened : Content.widenTo schema row s.data.buffer =
        row.widen (truncDateTime (date s.data.buffer)) := by
      simp [Content.widenTo, hdate]
    cases outside : row.outside (truncDateTime (date s.data.buffer)) with
    | true =>
      obtain ⟨table, hpos', hbuffer', hnew'⟩ := RecordSet.save_current indexSchema
        (t := s.indexTable) (row.widen (truncDateTime (date s.data.buffer))) notNew hpos
        (show s.indexTable.records[init.length]? = some row by simp [rows])
      refine ⟨_, ?_, hpos', hbuffer'.trans widened.symm, hnew'⟩
      have written : s.indexTable.records.set init.length
          (row.widen (truncDateTime (date s.data.buffer))) =
          init ++ [Content.widenTo schema row s.data.buffer] := by
        rw [rows, widened]
        simp
      rw [written] at table
      simp only [updateIndexDates, hdate, hbuffer, outside, if_true, table]
    | false =>
      rw [IndexRow.widen_of_not_outside outside] at widened
      refine ⟨s.index, ?_, hpos, by rw [hbuffer, widened], notNew⟩
      simp only [updateIndexDates, hdate, hbuffer, outside, widened, same]
      simp

/-! ## Saving a new record -/

theorem openLastPart_nil (schema : MultiPartSchema R) (rows : s.indexTable.records = []) :
    s.openLastPart schema = (0, s.getIndexCount.2) := by
  simp [openLastPart, getIndexCount, rows]

/-- With a part to add to, the object goes there and, when that part is full,
further on to a new one. -/
theorem openLastPart_snoc (schema : MultiPartSchema R) (sync : s.Synced)
    (rows : s.indexTable.records = init ++ [row]) :
    ∃ s', s.Frame s' ∧ s'.buffer = s.buffer ∧ s'.OnLast init row ∧ s'.data.feof = false ∧
      s.openLastPart schema =
        if Content.full schema s.appendFileMode (s.parts row.tableName).records.length then
          (0, ({ s' with
            appendFileMode := false
            shouldCutFile := s.shouldCutFile || schema.maxRecordCount.isSome }).appendFile schema)
        else ((s.parts row.tableName).records.length, s') := by
  have sync' := sync.getIndexCount
  have onLast := sync'.onLast schema rows
  obtain ⟨frame, hbuffer⟩ := frame_openDataTable schema s.getIndexCount.2 init.length
  generalize hs : s.getIndexCount.2.openDataTable schema init.length = s₁ at *
  have frame' : s.Frame s₁ := ⟨frame.parts, frame.indexTable, frame.appendFileMode,
    frame.shouldCutFile⟩
  have table : s₁.dataTable = s.parts row.tableName := by
    rw [dataTable, onLast.name, frame'.parts]
  refine ⟨{ s₁ with data := { s₁.data with feof := false } },
    ⟨frame'.parts, frame'.indexTable, frame'.appendFileMode, frame'.shouldCutFile⟩, hbuffer,
    ⟨onLast.rows, onLast.name, onLast.number, onLast.pos, onLast.buffer, onLast.notNew⟩,
    rfl, ?_⟩
  have count : ((s.indexTable.records.length : Int) - 1) = init.length := by
    rw [rows, length_append, length_singleton]
    omega
  have nonzero : s.indexTable.records.length ≠ 0 := by simp [rows]
  have mode : s₁.shouldAppendFile schema (s.parts row.tableName).records.length =
      Content.full schema s.appendFileMode (s.parts row.tableName).records.length := by
    rw [shouldAppendFile, frame'.appendFileMode]
    rfl
  have opened : s.openLastPart schema =
      (if s₁.shouldAppendFile schema s₁.dataTable.records.length then
        (0, ({ s₁ with
          data := { s₁.data with feof := false }
          appendFileMode := false
          shouldCutFile := s₁.shouldCutFile || schema.maxRecordCount.isSome }).appendFile schema)
      else (s₁.dataTable.records.length, { s₁ with data := { s₁.data with feof := false } })) := by
    rw [openLastPart, ← hs, ← count]
    exact if_neg nonzero
  rw [opened, table, mode, frame'.shouldCutFile]

theorem OnLast.of_addIndexRecord (schema : MultiPartSchema R) {kept : List IndexRow}
    (rows : s.indexTable.records = kept) (number : s.currentTableNumber = kept.length)
    (flag : s.index.feof = false)
    (atEnd : s.data.feof = true → s.data.pos = s.dataTable.records.length) :
    let row := Content.newRow schema s.dataName (s.dataTable.written schema.toSchema s.buffer)
    let s' := (s.appendRecord schema).2.addIndexRecord schema
    s'.OnLast kept row ∧
      s'.parts = Function.update s.parts s.dataName
        (s.dataTable.append schema.toSchema s.buffer) ∧
      s'.shouldCutFile = s.shouldCutFile ∧ s'.data.FlagSound s'.dataTable := by
  intro row s'
  obtain ⟨data, e, hdata, moved⟩ := appendRecord_eq schema s atEnd
  obtain ⟨index, e', hpos, hbuffer, hnew⟩ := addIndexRecord_eq schema (s.appendRecord schema).2
    (by rw [e]; exact flag)
  rw [e] at e' hpos hbuffer
  simp only [hdata] at e' hbuffer
  simp only [s', e, e']
  exact ⟨⟨by simp [rows, row], rfl, number, by simpa [rows] using hpos, hbuffer, hnew⟩, trivial,
    trivial, RecordSet.flagSound_of_pos moved⟩

theorem OnLast.updateIndexDates (schema : MultiPartSchema R) (on : s.OnLast init row)
    (atEnd : s.data.feof = true → s.data.pos = s.dataTable.records.length) :
    let row' := Content.widenTo schema row (s.dataTable.written schema.toSchema s.buffer)
    let s' := (s.appendRecord schema).2.updateIndexDates schema
    s'.OnLast init row' ∧
      s'.parts = Function.update s.parts s.dataName
        (s.dataTable.append schema.toSchema s.buffer) ∧
      s'.shouldCutFile = s.shouldCutFile ∧ s'.data.FlagSound s'.dataTable := by
  intro row' s'
  obtain ⟨data, e, hdata, moved⟩ := appendRecord_eq schema s atEnd
  obtain ⟨index, e', hpos, hbuffer, hnew⟩ := updateIndexDates_eq schema (s.appendRecord schema).2
    (by rw [e]; exact on.rows) (by rw [e]; exact on.pos) (by rw [e]; exact on.buffer)
    (by rw [e]; exact on.notNew)
  rw [e] at e' hbuffer
  simp only [hdata] at e' hbuffer
  have name : row'.tableName = row.tableName := by
    simp only [row', Content.widenTo]
    split <;> rfl
  simp only [s', e, e']
  exact ⟨⟨rfl, by rw [name]; exact on.name, on.number, hpos, hbuffer, hnew⟩, trivial,
    trivial, RecordSet.flagSound_of_pos moved⟩

theorem Synced.saveNew_flags (sync : s.Synced) :
    ({ s with isDirty := false, isNewRecord := false, appendFileMode := false } :
      MultiPart R).Synced :=
  ⟨sync.notNew, sync.name, sync.bound, sync.behind, sync.last, sync.empty, sync.flag,
    sync.named, sync.buffered⟩

theorem rotate_eq (schema : MultiPartSchema R) (c : Content R) (s : MultiPart R)
    (parts : s.parts = c.parts) (r : R) :
    c.rotate schema r = c.addPart schema (c.kept schema) (s.nextPart (c.kept schema)).1
      (s.nextPart (c.kept schema)).2 r := by
  rw [Content.rotate, nextPart, parts]
  cases (c.kept schema).getLast? <;> rfl

/-- Saving keeps the cursors in step and stores the buffer in the content; the
flag that client tables are cut by is raised by a rotation of a limited table. -/
theorem saveNew_content (schema : MultiPartSchema R) (sync : s.Synced)
    (filled : ∀ row ∈ s.indexTable.records, (s.parts row.tableName).records ≠ []) :
    let s' := (s.saveNew schema).2
    s'.Synced ∧ s'.content = s.content.store schema s.appendFileMode s.buffer ∧
      s'.appendFileMode = false ∧
      s'.shouldCutFile = (s.shouldCutFile ||
        (s.content.rotates schema s.appendFileMode && schema.maxRecordCount.isSome)) := by
  intro s'
  rcases s.indexTable.records.eq_nil_or_concat with rows | ⟨init, row, rows⟩
  · obtain ⟨number, name, hpos, hempty⟩ := sync.empty rows
    obtain ⟨on, parts, cut, flag⟩ := OnLast.of_addIndexRecord schema (s := s.getIndexCount.2)
      rows (by simpa [MultiPart.getIndexCount] using number) rfl
      (fun _ => by rw [dataTable]; simp [MultiPart.getIndexCount, hpos, name, hempty])
    have saved : s' = { (s.getIndexCount.2.appendRecord schema).2.addIndexRecord schema with
        isDirty := false, isNewRecord := false, appendFileMode := false } := by
      simp only [s', saveNew, openLastPart_nil schema rows]
      rfl
    rw [saved]
    refine ⟨(on.synced flag).saveNew_flags, ?_, rfl, ?_⟩
    · simp only [content, parts, on.rows, Content.store, rows, List.getLast?_nil]
      simp [Content.addPart, MultiPart.getIndexCount, dataTable, name]
    · simp only [cut]
      simp [Content.rotates, content, rows, MultiPart.getIndexCount]
  · rw [concat_eq_append] at rows
    obtain ⟨s₁, frame, hbuffer, on, hflag, opened⟩ := openLastPart_snoc schema sync rows
    have table : s₁.dataTable = s.parts row.tableName := by
      rw [dataTable, on.name, frame.parts]
    have rotates : s.content.rotates schema s.appendFileMode =
        Content.full schema s.appendFileMode (s.parts row.tableName).records.length := by
      simp [Content.rotates, content, rows]
    have last : s.content.rows.getLast? = some row := by simp [content, rows]
    cases hfull : Content.full schema s.appendFileMode (s.parts row.tableName).records.length with
    | true =>
      rw [hfull, if_pos rfl] at opened
      generalize hs₂ : ({ s₁ with
        appendFileMode := false
        shouldCutFile := s.shouldCutFile || schema.maxRecordCount.isSome } : MultiPart R) = s₂
        at opened
      have content₂ : s₂.content = s.content := by
        rw [← hs₂]
        exact frame.content
      obtain ⟨index, moved, hnew, hflag'⟩ := appendFile_eq schema s₂
        (by rw [← hs₂]; exact on.notNew) (by rw [← hs₂]; simp [on.rows])
      rw [content₂] at moved
      have keptRows : (s₂.appendFile schema).indexTable.records = s.content.kept schema := by
        rw [moved]
      obtain ⟨onNew, parts, cut, flag⟩ := OnLast.of_addIndexRecord schema keptRows (by rw [moved])
        (by rw [moved]; exact hflag') (by rw [moved]; intro h; simp [RecordSet.open] at h)
      have saved : s' = { ((s₂.appendFile schema).appendRecord schema).2.addIndexRecord schema with
          isDirty := false, isNewRecord := false, appendFileMode := false } := by
        simp only [s', saveNew, opened]
        rfl
      rw [saved]
      refine ⟨(onNew.synced flag).saveNew_flags, ?_, rfl, ?_⟩
      · have stored : s.content.store schema s.appendFileMode s.buffer =
            s.content.rotate schema s.buffer := by
          simp [Content.store, last, rotates, hfull]
        rw [stored, rotate_eq schema s.content s₂ (by rw [← content₂]; rfl)]
        have parts₂ : s₂.parts = s.parts := congrArg Content.parts content₂
        have buffer₂ : s₂.buffer = s.buffer := by
          rw [← hs₂]
          exact hbuffer
        refine congrArg₂ Content.mk (parts.trans ?_) (onNew.rows.trans ?_)
        · simp only [moved, dataTable, Function.update_self, Function.update_idem, parts₂, buffer₂]
          rfl
        · simp only [moved, dataTable, Function.update_self, parts₂, buffer₂]
          rfl
      · simp only [cut]
        rw [moved, rotates, hfull, ← hs₂]
        rfl
    | false =>
      rw [hfull, if_neg (by simp)] at opened
      have nonempty : (s.parts row.tableName).records.length ≠ 0 := by
        simpa using filled row (by simp [rows])
      obtain ⟨onLast, parts, cut, flag⟩ := on.updateIndexDates schema
        (fun h => by rw [hflag] at h; simp at h)
      have saved : s' = { (s₁.appendRecord schema).2.updateIndexDates schema with
          isDirty := false, isNewRecord := false, appendFileMode := false } := by
        simp only [s', saveNew, opened, if_neg nonempty]
      rw [saved]
      refine ⟨(onLast.synced flag).saveNew_flags, ?_, rfl, ?_⟩
      · have stored : s.content.store schema s.appendFileMode s.buffer =
            s.content.extend schema init row s.buffer := by
          have before : s.content.rows.dropLast = init := by simp [content, rows]
          simp [Content.store, last, rotates, hfull, before]
        rw [stored]
        simp only [content, parts, onLast.rows, on.name, frame.parts, hbuffer, table, Content.extend]
      · simp only [cut, frame.shouldCutFile, rotates, hfull]
        simp

theorem Synced.setValues (schema : MultiPartSchema R) (sync : s.Synced) (r : R) :
    ((s.add schema).setValues r).Synced :=
  ⟨sync.notNew, sync.name, sync.bound, sync.behind, sync.last, sync.empty, sync.flag,
    sync.named, sync.buffered⟩

theorem Synced.cutFile (sync : s.Synced) : s.cutFile.Synced :=
  ⟨sync.notNew, sync.name, sync.bound, sync.behind, sync.last, sync.empty, sync.flag,
    sync.named, sync.buffered⟩

theorem Synced.setShouldCutFile (sync : s.Synced) (aValue : Bool) :
    (s.setShouldCutFile aValue).Synced :=
  ⟨sync.notNew, sync.name, sync.bound, sync.behind, sync.last, sync.empty, sync.flag,
    sync.named, sync.buffered⟩

theorem store_content (schema : MultiPartSchema R) (sync : s.Synced)
    (filled : ∀ row ∈ s.indexTable.records, (s.parts row.tableName).records ≠ []) (r : R) :
    let s' := (s.store schema r).2
    s'.Synced ∧ s'.content = s.content.store schema s.appendFileMode r ∧
      s'.appendFileMode = false ∧
      s'.shouldCutFile = (s.shouldCutFile ||
        (s.content.rotates schema s.appendFileMode && schema.maxRecordCount.isSome)) :=
  saveNew_content schema (sync.setValues schema r) filled

theorem synced_open (schema : MultiPartSchema R) (parts : Nat → Table R)
    (indexTable : Table IndexRow) (count : indexTable.records.length ≤ schema.maxFiles)
    (fresh : indexTable.records = [] → (parts 0).records = []) :
    (MultiPart.open schema parts indexTable).Synced ∧
      (MultiPart.open schema parts indexTable).content = ⟨parts, indexTable.records⟩ := by
  have kept (s : MultiPart R) (h : s.indexTable.records.length ≤ schema.maxFiles) :
      s.clearOldExcededData schema = s := if_neg (Nat.not_lt.2 h)
  rw [MultiPart.open]
  cases rows : indexTable.records with
  | nil =>
    rw [RecordSet.moveNext_nil rows]
    dsimp only
    rw [kept _ count]
    exact ⟨⟨rfl, fun k row _ h => by simp [rows] at h, fun h => absurd rows h,
      fun h => absurd rows h, fun init row h => by simp [rows] at h,
      fun _ => ⟨rfl, rfl, rfl, fresh rows⟩, RecordSet.flagSound_of_feof rfl,
      fun h => absurd rows h, fun h => absurd rows h⟩, by simp [content, rows]⟩
  | cons row rest =>
    have first : indexTable.records[(RecordSet.open indexSchema).pos]? = some row := by
      simp [rows, RecordSet.open]
    rw [RecordSet.moveNext_read first rfl]
    dsimp only
    rw [kept _ count]
    exact ⟨synced_moved (k := 0) first rfl
      (s := ⟨parts, indexTable, .onRecord 0 row, 0, RecordSet.open schema.toSchema, 0, schema.blank,
        false, false, false, false⟩), by simp [content, rows]⟩

theorem open_flags (schema : MultiPartSchema R) (parts : Nat → Table R)
    (indexTable : Table IndexRow) (count : indexTable.records.length ≤ schema.maxFiles) :
    (MultiPart.open schema parts indexTable).appendFileMode = false ∧
      (MultiPart.open schema parts indexTable).shouldCutFile = false := by
  rw [MultiPart.open]
  generalize (RecordSet.open indexSchema).moveNext indexTable = step
  obtain ⟨found, index⟩ := step
  dsimp only
  rw [clearOldExcededData, if_neg (Nat.not_lt.2 count)]
  exact ⟨rfl, rfl⟩

end MultiPart

end CimArm
