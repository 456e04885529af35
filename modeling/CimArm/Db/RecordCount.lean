import CimArm.Db.Iteration

/-!
# Counting the records of a multi-part table

`getRecordCount` opens one part after another, opens the part again that was open before, and
seeks to the position of its record set.  This position is the one after the current record,
and a seek reads a record.

* `getRecordCount_iff`: when the cursor stands where it stood.
-/

namespace CimArm.MultiPart

variable {R : Type}

/-- Open the parts from a number on and add up their records. -/
def countParts (schema : MultiPartSchema R) : Nat → Nat → MultiPart R → Nat × MultiPart R
  | 0, _, self => (0, self)
  | n + 1, i, self =>
    let self := self.openDataTable schema i
    let (count, data) := self.data.getRecordCount self.dataTable
    let (rest, self) := countParts schema n (i + 1) { self with data := data }
    (count + rest, self)

def getRecordCount (schema : MultiPartSchema R) (self : MultiPart R) : Nat × MultiPart R :=
  let (indexRecCount, self) := self.getIndexCount
  let oldTableNumber := self.currentTableNumber
  let oldPos := self.data.getCurrentPos
  let (count, self) := countParts schema indexRecCount 0 self
  let self := self.openDataTable schema oldTableNumber
  (count, { self with data := self.data.seek self.dataTable .set oldPos })

/-- Where a cursor stands: the number and the file of its part, the position in the file, and
the current record. -/
structure Stand (R : Type) : Type where
  currentTableNumber : Int
  dataName : Nat
  pos : Nat
  current : R

def stand (self : MultiPart R) : Stand R :=
  ⟨self.currentTableNumber, self.dataName, self.data.pos, self.current⟩

/-- The cursor of one state stands where that of another does, and so it does after a
movement. -/
structure SameCursor (schema : MultiPartSchema R) (s s' : MultiPart R) : Prop where
  here : s'.stand = s.stand
  next : (s'.moveNext schema).1 = (s.moveNext schema).1 ∧
    (s'.moveNext schema).2.stand = (s.moveNext schema).2.stand
  prev : (s'.movePrev schema).1 = (s.movePrev schema).1 ∧
    (s'.movePrev schema).2.stand = (s.movePrev schema).2.stand

/-- What a cursor must be for counting to leave it where it is: the open part has been read to
its end, and it is the only one, or the current record is blank; a cursor that a search left
at no part must be on the last one. -/
def KeptByCount (schema : MultiPartSchema R) (s : MultiPart R) : Prop :=
  s.indexTable.records = [] ∨ ∃ init last, s.indexTable.records = init ++ [last] ∧
    s.dataTable.records.length ≤ s.data.pos ∧
    (init = [] ∧ s.currentTableNumber = 0 ∨ s.current = schema.blank) ∧
    (s.currentTableNumber < 0 → s.dataName = last.tableName ∧
      (s.data.pos ≤ 1 → s.index.buffer.tableName = last.tableName))

variable {schema : MultiPartSchema R} {s s' : MultiPart R}

/-! ## Counting -/

theorem openDataTable_neg {k : Int} (differ : s.currentTableNumber ≠ k) (neg : k < 0) :
    s.openDataTable schema k =
      { s with
        index := { s.index with isNewRecord := false, isDirty := false }
        dataName := s.index.buffer.tableName, data := RecordSet.open schema.toSchema,
        currentTableNumber := k } := by
  rw [openDataTable, if_neg differ, RecordSet.seek_set_neg neg]

/-- The part `i` open, its records counted. -/
def counted (schema : MultiPartSchema R) (s : MultiPart R) (i : Nat) : MultiPart R :=
  { s.openDataTable schema i with
    data := { (s.openDataTable schema i).data with feof := false } }

theorem Synced.counted (schema : MultiPartSchema R) (sync : s.Synced) {i : Nat} (hi : i < s.indexTable.records.length) :
    s.Moves (s.counted schema i) := by
  have nonempty : s.indexTable.records ≠ [] := List.ne_nil_of_length_pos (by omega)
  have opened := sync.moves_openDataTable schema nonempty (Int.ofNat_lt.2 hi)
  exact opened.data nonempty (RecordSet.flagSound_of_feof rfl) id

theorem counted_number (schema : MultiPartSchema R) (s : MultiPart R) (i : Nat) :
    (s.counted schema i).currentTableNumber = i := by
  show (s.openDataTable schema i).currentTableNumber = i
  rw [openDataTable]
  split_ifs with here
  · exact here
  · rfl

theorem countParts_succ (schema : MultiPartSchema R) (n i : Nat) (s : MultiPart R) :
    countParts schema (n + 1) i s =
      ((s.counted schema i).dataTable.records.length +
          (countParts schema n (i + 1) (s.counted schema i)).1,
        (countParts schema n (i + 1) (s.counted schema i)).2) := rfl

theorem Synced.countParts_fst (schema : MultiPartSchema R) (sync : s.Synced) {n i : Nat}
    (all : i + n = s.indexTable.records.length) :
    s.content.start i + (countParts schema n i s).1 = s.content.stored.length := by
  induction n generalizing i s with
  | zero =>
    have full : i = s.content.rows.length := all
    rw [full, s.content.start_rows_length]
    rfl
  | succ n ih =>
    have keeps := sync.counted schema (i := i) (by omega)
    have rest := ih keeps.2 (i := i + 1) (by rw [keeps.1.indexTable]; omega)
    obtain ⟨row, hrow⟩ := Content.exists_row (c := s.content) (k := i) (by
      show i < s.indexTable.records.length
      omega)
    have name : (s.counted schema i).dataName = row.tableName :=
      keeps.2.name i row (counted_number schema s i) (by rw [keeps.1.indexTable]; exact hrow)
    have part : (s.counted schema i).dataTable = s.content.parts row.tableName := by
      rw [dataTable, name, keeps.1.parts]
      rfl
    rw [keeps.1.content, Content.start_succ hrow] at rest
    rw [countParts_succ, part]
    dsimp only
    omega

/-- After the count the last part is open, again unless it was open and is the first one
counted. -/
theorem Synced.countParts_snd (schema : MultiPartSchema R) (sync : s.Synced) {init : List IndexRow} {last : IndexRow}
    (rows : s.indexTable.records = init ++ [last]) {n i : Nat}
    (all : i + n = init.length) :
    s.Moves (countParts schema (n + 1) i s).2 ∧
      (countParts schema (n + 1) i s).2.currentTableNumber = init.length ∧
      (countParts schema (n + 1) i s).2.data =
        if n = 0 ∧ s.currentTableNumber = i then { s.data with feof := false }
        else RecordSet.open schema.toSchema := by
  have length : s.indexTable.records.length = init.length + 1 := by
    rw [rows, List.length_append, List.length_singleton]
  have keeps := sync.counted schema (i := i) (by omega)
  induction n generalizing i s with
  | zero =>
    have full : i = init.length := all
    refine ⟨keeps, full ▸ counted_number schema s i, ?_⟩
    show (s.counted schema i).data = _
    by_cases here : s.currentTableNumber = i
    · rw [if_pos ⟨rfl, here⟩, MultiPart.counted, openDataTable_self here]
    · obtain ⟨row, hrow⟩ := Content.exists_row (c := s.content) (k := i) (by
        show i < s.indexTable.records.length
        omega)
      rw [if_neg fun both => here both.2, MultiPart.counted, openDataTable_of_ne here hrow]
      rfl
  | succ n ih =>
    have number := counted_number schema s i
    have rows' : (s.counted schema i).indexTable.records = init ++ [last] := by
      rw [keeps.1.indexTable, rows]
    have length' : (s.counted schema i).indexTable.records.length = init.length + 1 := by
      rw [keeps.1.indexTable, length]
    have again := keeps.2.counted schema (i := i + 1) (by omega)
    obtain ⟨keeps', number', data'⟩ := ih keeps.2 rows' (i := i + 1) (by omega) length' again
    have elsewhere : ¬ (n = 0 ∧ (s.counted schema i).currentTableNumber = ((i + 1 : Nat) : Int)) := by
      rintro ⟨-, here⟩
      rw [number] at here
      omega
    rw [if_neg elsewhere] at data'
    exact ⟨keeps.trans keeps', number', by rw [if_neg (by omega)]; exact data'⟩

/-- The state after the parts are counted and the old one is open again. -/
def recounted (schema : MultiPartSchema R) (s : MultiPart R) : MultiPart R :=
  (countParts schema s.indexTable.records.length 0 s.getIndexCount.2).2.openDataTable schema
    s.currentTableNumber

theorem getRecordCount_snd (schema : MultiPartSchema R) (s : MultiPart R) :
    (s.getRecordCount schema).2 =
      { s.recounted schema with
        data := (s.recounted schema).data.seek (s.recounted schema).dataTable .set s.data.pos } :=
  rfl

theorem Synced.getRecordCount_fst (sync : s.Synced) :
    (s.getRecordCount schema).1 = s.content.stored.length := by
  have total := sync.getIndexCount.countParts_fst schema (n := s.indexTable.records.length)
    (i := 0) (Nat.zero_add _)
  have content : s.getIndexCount.2.content = s.content := rfl
  rw [content, Content.start_zero, Nat.zero_add] at total
  exact total

/-- Where the record set is before it seeks. -/
structure Recounted (schema : MultiPartSchema R) (s t : MultiPart R) (init : List IndexRow)
    (last : IndexRow) : Prop where
  frame : s.Frame t
  number : t.currentTableNumber = s.currentTableNumber
  name : t.dataName = if s.currentTableNumber < 0 then last.tableName else s.dataName
  data : t.data = if init = [] ∧ s.currentTableNumber = 0 then { s.data with feof := false }
    else RecordSet.open schema.toSchema
  index : s.currentTableNumber < 0 → t.index.buffer = last

theorem Synced.recounted (sync : s.Synced) {init : List IndexRow} {last : IndexRow}
    (rows : s.indexTable.records = init ++ [last]) :
    s.Recounted schema (s.recounted schema) init last := by
  have length : s.indexTable.records.length = init.length + 1 := by
    rw [rows, List.length_append, List.length_singleton]
  have nonempty : s.indexTable.records ≠ [] := List.ne_nil_of_length_pos (by omega)
  obtain ⟨keeps, number, data⟩ := sync.getIndexCount.countParts_snd schema
    (n := init.length) (i := 0) rows (Nat.zero_add _)
  have same : s.recounted schema = (countParts schema (init.length + 1) 0
      s.getIndexCount.2).2.openDataTable schema s.currentTableNumber := by
    rw [MultiPart.recounted, length]
  have single : (init.length = 0 ∧ s.getIndexCount.2.currentTableNumber = (0 : Nat)) ↔
      (init = [] ∧ s.currentTableNumber = 0) := and_congr_left' List.length_eq_zero_iff
  rw [same]
  generalize (countParts schema (init.length + 1) 0 s.getIndexCount.2).2 = t at keeps number data
  have frame : s.Frame t := (Frame.getIndexCount s).trans keeps.1
  have rows' : t.indexTable.records = init ++ [last] := by rw [frame.indexTable, rows]
  obtain ⟨-, lastRow⟩ := keeps.2.last init last rows' number
  have bound := sync.bound nonempty
  have name : t.dataName = last.tableName :=
    keeps.2.name init.length last number (by simp [rows'])
  have only_first : s.currentTableNumber ≠ init.length →
      ¬ (init = [] ∧ s.currentTableNumber = 0) := by
    rintro other ⟨empty, first⟩
    rw [first, empty] at other
    exact other rfl
  by_cases neg : s.currentTableNumber < 0
  · have differ : t.currentTableNumber ≠ s.currentTableNumber := by omega
    rw [openDataTable_neg differ neg]
    exact
      { frame := ⟨frame.parts, frame.indexTable, frame.appendFileMode, frame.shouldCutFile⟩
        number := rfl
        name := by
          rw [if_pos neg, ← lastRow]
        data := by rw [if_neg (only_first (by omega))]
        index := fun _ => lastRow }
  · obtain ⟨k, hk⟩ : ∃ k : Nat, s.currentTableNumber = k :=
      ⟨s.currentTableNumber.toNat, (Int.toNat_of_nonneg (by omega)).symm⟩
    obtain ⟨row, hrow⟩ := Content.exists_row (c := s.content) (k := k) (by
      show k < s.indexTable.records.length
      omega)
    have here : s.dataName = row.tableName := sync.name k row hk hrow
    by_cases stays : t.currentTableNumber = s.currentTableNumber
    · rw [openDataTable_self stays]
      rw [number, hk] at stays
      exact
        { frame := frame
          number := by rw [number, hk, stays]
          name := by
            have hlast : s.indexTable.records[k]? = some last := by
              rw [rows, ← Int.ofNat_inj.1 stays]
              simp
            rw [if_neg neg, here, name, Option.some.inj (hrow.symm.trans hlast)]
          data := by
            rw [data, if_congr single rfl rfl]
            rfl
          index := fun below => absurd below neg }
    · have hrow' : t.indexTable.records[k]? = some row := by
        rw [frame.indexTable]
        exact hrow
      have differ : t.currentTableNumber ≠ k := hk ▸ stays
      rw [hk, openDataTable_of_ne differ hrow']
      exact
        { frame := ⟨frame.parts, frame.indexTable, frame.appendFileMode, frame.shouldCutFile⟩
          number := hk.symm
          name := by rw [if_neg neg, here]
          data := by rw [if_neg (only_first (by omega))]
          index := fun below => absurd below neg }

end CimArm.MultiPart

/-! ## Movements from the same place -/

theorem CimArm.RecordSet.movePrev_same {R : Type} {t : Table R} (nonempty : t.records ≠ [])
    {self self' : RecordSet R} (pos : self'.pos = self.pos) (buffer : self'.buffer = self.buffer) :
    (self'.movePrev t).1 = (self.movePrev t).1 ∧
      (self'.movePrev t).2.pos = (self.movePrev t).2.pos ∧
      (self'.movePrev t).2.buffer = (self.movePrev t).2.buffer ∧
      ((self.movePrev t).1 = false ↔ self.pos ≤ 1) := by
  rcases hpos : self.pos with - | - | k
  · rw [hpos] at pos
    rw [movePrev_start hpos, movePrev_start pos]
    exact ⟨rfl, pos.trans hpos.symm, buffer, fun _ => Nat.zero_le _, fun _ => rfl⟩
  · rw [hpos] at pos
    rw [movePrev_first hpos, movePrev_first pos]
    exact ⟨rfl, rfl, buffer, fun _ => Nat.le_refl _, fun _ => rfl⟩
  · rw [hpos] at pos
    cases hr : t.records[k]? with
    | some r =>
      rw [movePrev_read hpos hr, movePrev_read pos hr]
      exact ⟨rfl, rfl, rfl, (fun failed => Bool.noConfusion failed), fun low => by omega⟩
    | none =>
      have ended : t.records.length ≤ k := List.getElem?_eq_none_iff.1 hr
      have back (h : RecordSet R) (hpos : h.pos = k + 2) :
          h.movePrev t = (!decide (k = 0), { h with pos := k, feof := true }) := by
        have seek : h.fseek (h.pos - 2) = (true, { h with pos := k, feof := false }) :=
          fseek_of_eq (by omega)
        have read : ({ h with pos := k, feof := false } : RecordSet R).fread t =
            { h with pos := k, feof := true } := fread_of_length_le ended
        have start : h.bof = false := by simp [bof, hpos]
        unfold movePrev
        rw [start, seek]
        dsimp only
        rw [read]
        rfl
      have size := List.length_pos_iff.2 nonempty
      have later : (!decide (k = 0)) = true := by simp; omega
      rw [back self hpos, back self' pos, later]
      exact ⟨rfl, rfl, buffer, (fun failed => Bool.noConfusion failed), fun low => by omega⟩

namespace CimArm.MultiPart

variable {R : Type} {schema : MultiPartSchema R} {s s' : MultiPart R}

/-- Two states read the same files and stand at the same place. -/
structure Alike (s s' : MultiPart R) : Prop where
  parts : s'.parts = s.parts
  indexTable : s'.indexTable = s.indexTable
  stand : s'.stand = s.stand

namespace Alike

variable (alike : Alike s s')

include alike

theorem number : s'.currentTableNumber = s.currentTableNumber :=
  congrArg Stand.currentTableNumber alike.stand

theorem dataTable : s'.dataTable = s.dataTable := by
  rw [MultiPart.dataTable, MultiPart.dataTable, alike.parts,
    show s'.dataName = s.dataName from congrArg Stand.dataName alike.stand]

theorem pos : s'.data.pos = s.data.pos := congrArg Stand.pos alike.stand

theorem buffer : s'.data.buffer = s.data.buffer := congrArg Stand.current alike.stand

theorem data {data data' : RecordSet R} (pos : data'.pos = data.pos)
    (buffer : data'.buffer = data.buffer) :
    Alike { s with data := data } { s' with data := data' } := by
  refine ⟨alike.parts, alike.indexTable, ?_⟩
  show (⟨s'.currentTableNumber, s'.dataName, data'.pos, data'.buffer⟩ : Stand R) =
    ⟨s.currentTableNumber, s.dataName, data.pos, data.buffer⟩
  rw [alike.number, show s'.dataName = s.dataName from congrArg Stand.dataName alike.stand,
    pos, buffer]

end Alike

theorem readNext_same (alike : Alike s s') (data : s'.data = s.data) :
    s'.readNext.1 = s.readNext.1 ∧ s'.readNext.2.stand = s.readNext.2.stand := by
  unfold readNext
  rw [data, alike.dataTable]
  generalize s.data.moveNext s.dataTable = step
  obtain ⟨found, data⟩ := step
  have moved := (@Alike.data _ _ _ alike data data rfl rfl).stand
  cases found
  · exact ⟨rfl, moved⟩
  · exact ⟨rfl, moved⟩

theorem openDataTable_same (alike : Alike s s') {k : Nat}
    (hk : k < s.indexTable.records.length) (differ : s.currentTableNumber ≠ k) :
    Alike (s.openDataTable schema k) (s'.openDataTable schema k) ∧
      (s'.openDataTable schema k).data = (s.openDataTable schema k).data := by
  have hrow := List.getElem?_eq_getElem hk
  have hrow' : s'.indexTable.records[k]? = some s.indexTable.records[k] := by
    rw [alike.indexTable, hrow]
  rw [openDataTable_of_ne differ hrow, openDataTable_of_ne (alike.number ▸ differ) hrow']
  exact ⟨⟨alike.parts, alike.indexTable, rfl⟩, rfl⟩

/-- The part after the open one, opened at its start. -/
def partAfter (schema : MultiPartSchema R) (s : MultiPart R) : MultiPart R :=
  let s₁ := s.getIndexCount.2.openDataTable schema (s.currentTableNumber + 1)
  { s₁ with data := (s₁.data.moveBeforeFirst s₁.dataTable).2 }

theorem readNextPart_eq (schema : MultiPartSchema R) (s : MultiPart R) :
    s.readNextPart schema = if s.indexTable.records.length = 0 ||
        s.getIndexCount.2.atLastTable s.indexTable.records.length then (false, s.getIndexCount.2)
      else (s.partAfter schema).readNext := rfl

theorem readNextPart_same (schema : MultiPartSchema R) (alike : Alike s s') :
    (s'.readNextPart schema).1 = (s.readNextPart schema).1 ∧
      (s'.readNextPart schema).2.stand = (s.readNextPart schema).2.stand := by
  have counted : Alike s.getIndexCount.2 s'.getIndexCount.2 :=
    ⟨alike.parts, alike.indexTable, alike.stand⟩
  rw [readNextPart_eq, readNextPart_eq, alike.indexTable, atLastTable, atLastTable, counted.number]
  split_ifs with last
  · exact ⟨rfl, counted.stand⟩
  · simp only [Bool.or_eq_true, decide_eq_true_eq, not_or, not_lt, not_le] at last
    have here : s.getIndexCount.2.currentTableNumber = s.currentTableNumber := rfl
    obtain ⟨k, hk⟩ : ∃ k : Nat, s.currentTableNumber + 1 = k :=
      ⟨(s.currentTableNumber + 1).toNat, (Int.toNat_of_nonneg (by omega)).symm⟩
    have inside : k < s.getIndexCount.2.indexTable.records.length := by
      show k < s.indexTable.records.length
      omega
    obtain ⟨opened, data⟩ := openDataTable_same counted inside (by omega)
    have moved : ((s'.getIndexCount.2.openDataTable schema k).data.moveBeforeFirst
        (s'.getIndexCount.2.openDataTable schema k).dataTable).2 =
        ((s.getIndexCount.2.openDataTable schema k).data.moveBeforeFirst
          (s.getIndexCount.2.openDataTable schema k).dataTable).2 := by
      rw [data, opened.dataTable]
    rw [partAfter, partAfter, alike.number, hk]
    exact readNext_same (opened.data (by rw [moved]) (by rw [moved])) moved

/-- The part before the open one, read at its last record. -/
def partBefore (schema : MultiPartSchema R) (s : MultiPart R) : MultiPart R :=
  let s₁ := s.openDataTable schema (s.currentTableNumber - 1)
  ({ s₁ with data := (s₁.data.moveLast s₁.dataTable).2 }).readCurrentData

theorem readPrevPart_eq (schema : MultiPartSchema R) (s : MultiPart R) :
    s.readPrevPart schema =
      if s.currentTableNumber = 0 then (false, s) else (true, s.partBefore schema) := rfl

theorem readPrevPart_fst (schema : MultiPartSchema R) (alike : Alike s s') :
    (s'.readPrevPart schema).1 = (s.readPrevPart schema).1 := by
  rw [readPrevPart_eq, readPrevPart_eq, alike.number]
  split_ifs <;> rfl

theorem readPrevPart_same (schema : MultiPartSchema R) (alike : Alike s s')
    (nonneg : 0 ≤ s.currentTableNumber)
    (bound : s.currentTableNumber < s.indexTable.records.length) :
    (s'.readPrevPart schema).2.stand = (s.readPrevPart schema).2.stand := by
  rw [readPrevPart_eq, readPrevPart_eq, alike.number]
  split_ifs with first
  · exact alike.stand
  · obtain ⟨k, hk⟩ : ∃ k : Nat, s.currentTableNumber - 1 = k :=
      ⟨(s.currentTableNumber - 1).toNat, (Int.toNat_of_nonneg (by omega)).symm⟩
    obtain ⟨opened, data⟩ := openDataTable_same alike (k := k) (by omega)
      (by omega)
    have moved : ((s'.openDataTable schema k).data.moveLast
        (s'.openDataTable schema k).dataTable).2 =
        ((s.openDataTable schema k).data.moveLast (s.openDataTable schema k).dataTable).2 := by
      rw [data, opened.dataTable]
    have same := opened.data (congrArg RecordSet.pos moved) (congrArg RecordSet.buffer moved)
    rw [partBefore, partBefore, alike.number, hk]
    exact same.stand

theorem readPrevPart_neg (schema : MultiPartSchema R) (alike : Alike s s')
    (neg : s.currentTableNumber < 0) :
    (s'.readPrevPart schema).2.stand = (s.readPrevPart schema).2.stand ↔
      s'.index.buffer.tableName = s.index.buffer.tableName := by
  have opens (u : MultiPart R) (number : u.currentTableNumber = s.currentTableNumber)
      (parts : u.parts = s.parts) : (u.readPrevPart schema).2.stand =
        ⟨s.currentTableNumber - 1, u.index.buffer.tableName,
          ((RecordSet.open schema.toSchema).moveLast (s.parts u.index.buffer.tableName)).2.pos,
          ((RecordSet.open schema.toSchema).moveLast
            (s.parts u.index.buffer.tableName)).2.buffer⟩ := by
    rw [readPrevPart_eq, if_neg (by omega), partBefore, number,
      openDataTable_neg (by omega) (by omega), ← parts]
    rfl
  rw [opens s' alike.number alike.parts, opens s rfl rfl]
  constructor
  · intro same
    exact congrArg Stand.dataName same
  · intro same
    rw [same]

theorem moveNext_same (schema : MultiPartSchema R) (alike : Alike s s')
    (ended : s.dataTable.records.length ≤ s.data.pos) :
    (s'.moveNext schema).1 = (s.moveNext schema).1 ∧
      (s'.moveNext schema).2.stand = (s.moveNext schema).2.stand := by
  have ended' : s'.dataTable.records.length ≤ s'.data.pos := by
    rw [alike.dataTable, alike.pos]
    exact ended
  have read (u : MultiPart R) (ended : u.dataTable.records.length ≤ u.data.pos) :
      u.moveNext schema =
        ({ u with data := (u.data.moveNext u.dataTable).2 } : MultiPart R).readNextPart schema := by
    rw [moveNext, readNext_end ended]
    rfl
  obtain ⟨-, -, pos, buffer, -⟩ := RecordSet.moveNext_end ended
  obtain ⟨-, -, pos', buffer', -⟩ := RecordSet.moveNext_end ended'
  rw [read s ended, read s' ended']
  exact readNextPart_same schema (alike.data (by rw [pos', pos, alike.pos])
    (by rw [buffer', buffer, alike.buffer]))

/-- The record before is the same, unless the cursor is before the index and its position at
the first record: there the index buffers decide. -/
theorem movePrev_same (schema : MultiPartSchema R) (alike : Alike s s')
    (nonempty : s.dataTable.records ≠ [])
    (bound : s.currentTableNumber < s.indexTable.records.length) :
    ((s'.movePrev schema).1 = (s.movePrev schema).1 ∧
      (s'.movePrev schema).2.stand = (s.movePrev schema).2.stand) ↔
    (s.currentTableNumber < 0 → s.data.pos ≤ 1 →
      s'.index.buffer.tableName = s.index.buffer.tableName) := by
  obtain ⟨found, pos, buffer, start⟩ := RecordSet.movePrev_same nonempty alike.pos alike.buffer
  have moved := alike.data pos buffer
  rw [movePrev, movePrev, readPrev, readPrev, alike.dataTable]
  generalize s.data.movePrev s.dataTable = step at found moved start ⊢
  generalize s'.data.movePrev s.dataTable = step' at found moved ⊢
  obtain ⟨read, data⟩ := step
  obtain ⟨read', data'⟩ := step'
  obtain rfl : read' = read := found
  cases read' with
  | true =>
    refine ⟨fun _ _ low => ?_, fun _ => ⟨rfl, moved.stand⟩⟩
    exact absurd (start.2 low) (by simp)
  | false =>
    have low : s.data.pos ≤ 1 := start.1 rfl
    show (_ = (readPrevPart schema { s with data := data }).1 ∧ _) ↔ _
    have first := readPrevPart_fst schema moved
    rcases lt_or_ge s.currentTableNumber 0 with neg | nonneg
    · have named := readPrevPart_neg schema moved neg
      exact ⟨fun same _ _ => named.1 same.2, fun same => ⟨first, named.2 (same neg low)⟩⟩
    · exact ⟨fun _ neg => absurd neg (by omega),
        fun _ => ⟨first, readPrevPart_same schema moved nonneg bound⟩⟩

/-! ## When the cursor stays -/

theorem seek_set_end {t : Table R} {data : RecordSet R} {k : Nat}
    (ended : t.records.length ≤ k) : data.seek t .set k =
      { data with pos := k, feof := true, isNewRecord := false, isDirty := false } := by
  rw [RecordSet.seek, RecordSet.fseek_of_eq (n := k) (by simp)]
  exact RecordSet.fread_of_length_le ended

section kept

variable {init : List IndexRow} {last : IndexRow} {t : MultiPart R}

theorem Recounted.name_iff (done : s.Recounted schema t init last) :
    t.dataName = s.dataName ↔ (s.currentTableNumber < 0 → s.dataName = last.tableName) := by
  rw [done.name]
  split_ifs with neg
  · exact ⟨fun same _ => same.symm, fun same => (same neg).symm⟩
  · exact ⟨fun _ below => absurd below neg, fun _ => rfl⟩

theorem Recounted.buffer_iff (done : s.Recounted schema t init last) :
    t.data.buffer = s.current ↔
      (init = [] ∧ s.currentTableNumber = 0 ∨ s.current = schema.blank) := by
  rw [done.data]
  split_ifs with single
  · exact ⟨fun _ => .inl single, fun _ => rfl⟩
  · exact ⟨fun same => .inr same.symm, fun kept => (kept.resolve_left single).symm⟩

theorem Recounted.stand_iff (done : s.Recounted schema t init last) :
    ({ t with data := t.data.seek t.dataTable .set s.data.pos } : MultiPart R).stand = s.stand ↔
      s.dataTable.records.length ≤ s.data.pos ∧
      (init = [] ∧ s.currentTableNumber = 0 ∨ s.current = schema.blank) ∧
      (s.currentTableNumber < 0 → s.dataName = last.tableName) := by
  rw [← done.name_iff, ← done.buffer_iff]
  have table (name : t.dataName = s.dataName) : t.dataTable = s.dataTable := by
    rw [dataTable, dataTable, done.frame.parts, name]
  rcases Nat.lt_or_ge s.data.pos t.dataTable.records.length with inside | ended
  · -- the seek reads a record and moves past it
    have moved := @RecordSet.seek_set _ _ t.data _ _ (List.getElem?_eq_getElem inside)
    rw [moved]
    constructor
    · intro same
      have pos : s.data.pos + 1 = s.data.pos := congrArg Stand.pos same
      omega
    · rintro ⟨ended, -, name⟩
      rw [table name] at inside
      omega
  · rw [seek_set_end ended]
    constructor
    · intro same
      have name : t.dataName = s.dataName := congrArg Stand.dataName same
      exact ⟨table name ▸ ended, congrArg Stand.current same, name⟩
    · rintro ⟨-, buffer, name⟩
      show (⟨t.currentTableNumber, t.dataName, s.data.pos, t.data.buffer⟩ : Stand R) =
        ⟨s.currentTableNumber, s.dataName, s.data.pos, s.current⟩
      rw [done.number, name, buffer]

end kept

theorem Synced.sameCursor_nil (sync : s.Synced) (rows : s.indexTable.records = []) :
    SameCursor schema s (s.getRecordCount schema).2 := by
  obtain ⟨records, pos⟩ := sync.dataTable_nil rows
  have first := (sync.empty rows).1
  have same : s.recounted schema = s.getIndexCount.2 := by
    rw [MultiPart.recounted, rows]
    exact openDataTable_self rfl
  have table : s.getIndexCount.2.dataTable = s.dataTable := rfl
  have alike : Alike s (s.getRecordCount schema).2 := by
    rw [getRecordCount_snd, same, table, seek_set_end (by rw [records]; exact Nat.zero_le _)]
    exact ⟨rfl, rfl, rfl⟩
  have ended : s.dataTable.records.length ≤ s.data.pos := by rw [records]; exact Nat.zero_le _
  have start (u : MultiPart R) (pos : u.data.pos = 0) (first : u.currentTableNumber = 0) :
      u.movePrev schema = (false, u) := by
    rw [movePrev, readPrev, RecordSet.movePrev_start pos]
    exact (readPrevPart_eq schema u).trans (if_pos first)
  have prev := start s pos first
  have prev' := start _ (alike.pos.trans pos) (alike.number.trans first)
  exact
    { here := alike.stand
      next := moveNext_same schema alike ended
      prev := by
        rw [prev, prev']
        exact ⟨rfl, alike.stand⟩ }

/-- The cursor stands where it stood, and moves on as it would have, exactly under
`KeptByCount`. -/
theorem Whole.sameCursor_iff (whole : s.Whole schema) :
    SameCursor schema s (s.getRecordCount schema).2 ↔ KeptByCount schema s := by
  have sync := whole.sync
  rcases List.eq_nil_or_concat s.indexTable.records with rows | ⟨init, last, rows⟩
  · exact ⟨fun _ => .inl rows, fun _ => sync.sameCursor_nil rows⟩
  · rw [List.concat_eq_append] at rows
    have nonempty : s.indexTable.records ≠ [] := by simp [rows]
    have records : s.dataTable.records ≠ [] := by
      obtain ⟨row, hrow, name⟩ := sync.named nonempty
      rw [dataTable, name]
      exact whole.filled row hrow
    have done := @Synced.recounted _ schema _ sync _ _ rows
    have kept_iff : KeptByCount schema s ↔ s.dataTable.records.length ≤ s.data.pos ∧
        (init = [] ∧ s.currentTableNumber = 0 ∨ s.current = schema.blank) ∧
        (s.currentTableNumber < 0 → s.dataName = last.tableName ∧
          (s.data.pos ≤ 1 → s.index.buffer.tableName = last.tableName)) := by
      constructor
      · rintro (empty | ⟨init', last', rows', kept⟩)
        · exact absurd empty nonempty
        · obtain ⟨rfl, same⟩ := List.append_inj' (rows.symm.trans rows') rfl
          obtain rfl := List.head_eq_of_cons_eq same
          exact kept
      · intro kept
        exact .inr ⟨init, last, rows, kept⟩
    have index (neg : s.currentTableNumber < 0) :
        (s.getRecordCount schema).2.index.buffer.tableName = last.tableName := by
      rw [getRecordCount_snd]
      exact congrArg IndexRow.tableName (done.index neg)
    have alike (here : (s.getRecordCount schema).2.stand = s.stand) :
        Alike s (s.getRecordCount schema).2 :=
      ⟨done.frame.parts, done.frame.indexTable, here⟩
    have here_iff : (s.getRecordCount schema).2.stand = s.stand ↔ _ := done.stand_iff
    rw [kept_iff]
    constructor
    · intro same
      obtain ⟨ended, buffer, name⟩ := here_iff.1 same.here
      have prev := (movePrev_same schema (alike same.here) records (sync.bound nonempty)).1
        same.prev
      exact ⟨ended, buffer, fun neg => ⟨name neg, fun low => by rw [← index neg, prev neg low]⟩⟩
    · rintro ⟨ended, buffer, before⟩
      have here := here_iff.2 ⟨ended, buffer, fun neg => (before neg).1⟩
      exact
        { here := here
          next := moveNext_same schema (alike here) ended
          prev := (movePrev_same schema (alike here) records (sync.bound nonempty)).2
            fun neg low => by rw [index neg, (before neg).2 low] }

/-! ## In every state -/

theorem Synced.moves_getRecordCount (schema : MultiPartSchema R) (sync : s.Synced) :
    s.Moves (s.getRecordCount schema).2 := by
  rcases List.eq_nil_or_concat s.indexTable.records with rows | ⟨init, last, rows⟩
  · have same : s.recounted schema = s.getIndexCount.2 := by
      rw [MultiPart.recounted, rows]
      exact openDataTable_self rfl
    obtain ⟨records, pos⟩ := sync.dataTable_nil rows
    have table : s.getIndexCount.2.dataTable = s.dataTable := rfl
    rw [getRecordCount_snd, same, table, seek_set_end (by rw [records]; exact Nat.zero_le _)]
    have counted := sync.moves_getIndexCount
    exact ⟨counted.1.trans (.data _ _), counted.2.data (fun _ _ => records) fun _ => pos,
      fun view => ⟨view.table, rfl⟩⟩
  · rw [List.concat_eq_append] at rows
    have nonempty : s.indexTable.records ≠ [] := by simp [rows]
    obtain ⟨keeps, -, -⟩ := sync.getIndexCount.countParts_snd schema
      (n := init.length) (i := 0) rows (Nat.zero_add _)
    have keeps : s.Moves (countParts schema s.indexTable.records.length 0 s.getIndexCount.2).2 := by
      rw [rows, List.length_append, List.length_singleton]
      exact sync.moves_getIndexCount.trans keeps
    have opened : s.Moves (s.recounted schema) := by
      refine keeps.trans (keeps.2.moves_openDataTable schema ?_ ?_)
      · rw [keeps.1.indexTable]
        exact nonempty
      · rw [keeps.1.indexTable]
        exact sync.bound nonempty
    rw [getRecordCount_snd]
    exact opened.data nonempty (opened.2.flag.seek .set s.data.pos)
      fun _ => RecordSet.seek_isNewRecord .set _

/-- What a client does with a cursor: the operations on a table, and counting. -/
inductive CursorOp (R : Type) : Type
  | onTable (op : Op R)
  | getRecordCount

def CursorOp.apply (schema : MultiPartSchema R) : CursorOp R → MultiPart R → MultiPart R
  | .onTable op, s => op.apply schema s
  | .getRecordCount, s => (s.getRecordCount schema).2

/-- The state after some operations on a table just created. -/
def cursor (schema : MultiPartSchema R) (ops : List (CursorOp R)) : MultiPart R :=
  ops.foldl (fun s op => op.apply schema s) (created schema)

theorem Whole.cursorOp (some_part : 0 < schema.maxFiles) (whole : s.Whole schema)
    (op : CursorOp R) : (op.apply schema s).Whole schema := by
  cases op with
  | onTable op => exact whole.apply some_part op
  | getRecordCount =>
    have keeps := whole.sync.moves_getRecordCount schema
    have content : (s.getRecordCount schema).2.content = s.content := keeps.1.content
    exact ⟨keeps.2, content ▸ whole.filled, content ▸ whole.count⟩

theorem whole_cursor (schema : MultiPartSchema R) (some_part : 0 < schema.maxFiles)
    (ops : List (CursorOp R)) : (cursor schema ops).Whole schema := by
  have steps {s : MultiPart R} (whole : s.Whole schema) :
      (ops.foldl (fun s op => op.apply schema s) s).Whole schema := by
    induction ops generalizing s with
    | nil => exact whole
    | cons op ops ih => exact ih (whole.cursorOp some_part op)
  exact steps (whole_created schema)

/-- Counting is right in every state of a table that may have parts, and leaves the cursor
exactly under `KeptByCount`. -/
theorem getRecordCount_iff (schema : MultiPartSchema R) (some_part : 0 < schema.maxFiles)
    (ops : List (CursorOp R)) :
    ((cursor schema ops).getRecordCount schema).1 = (cursor schema ops).stored.length ∧
      (SameCursor schema (cursor schema ops) ((cursor schema ops).getRecordCount schema).2 ↔
        KeptByCount schema (cursor schema ops)) :=
  have whole := whole_cursor schema some_part ops
  ⟨whole.sync.getRecordCount_fst, whole.sameCursor_iff⟩

theorem getRecordCount_iff_log :
    ((cursor logSchema [.onTable (.save (0, 5)), .getRecordCount]).getRecordCount logSchema).1 =
        (cursor logSchema [.onTable (.save (0, 5)), .getRecordCount]).stored.length ∧
      (SameCursor logSchema (cursor logSchema [.onTable (.save (0, 5)), .getRecordCount])
          ((cursor logSchema [.onTable (.save (0, 5)), .getRecordCount]).getRecordCount logSchema).2 ↔
        KeptByCount logSchema (cursor logSchema [.onTable (.save (0, 5)), .getRecordCount])) :=
  getRecordCount_iff logSchema (by decide) _

/-- Two records in two parts, the cursor on the first. -/
def firstOfTwo : MultiPart (Nat × Nat) :=
  cursor logSchema [.onTable (.save (0, 5)), .onTable (.save (0, 7)), .onTable .moveFirst]

/-- Counting leaves the cursor without the record it was on. -/
theorem getRecordCount_fails :
    firstOfTwo.current = (1, 5) ∧ (firstOfTwo.getRecordCount logSchema).2.current = (0, 0) ∧
      ¬ SameCursor logSchema firstOfTwo (firstOfTwo.getRecordCount logSchema).2 := by
  refine ⟨by decide +kernel, by decide +kernel, fun same => ?_⟩
  have here := congrArg Stand.current same.here
  exact absurd here (by decide +kernel)

end CimArm.MultiPart
