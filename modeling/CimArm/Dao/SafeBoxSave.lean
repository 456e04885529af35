import CimArm.Dao.SafeBoxLoad

/-!
# Saving a record of the safe box

`save` writes the row buffer of a handle to the board and, when the board has taken it, to
the table buffer.  When the board fails the row buffer is read back from the table buffer and
the failure goes on to the caller, so nothing but the handle should have changed; but a new
record has taken the next auto-increment value by then.

* `save_failed_iff`: when a save that fails leaves the table as it was.
-/

namespace CimArm

/-- The AUTOINC field of the records of a table, which is stored with its own width. -/
structure AutoIncField (R : Type) : Type where
  get : R → UInt32
  set : R → UInt32 → R

/-- A table of the safe box by rows: its buffer, with what lies at the row numbers outside
it, and what the table counts. -/
structure BoxTable (R : Type) : Type where
  buffer : Int → R
  maxRows : Nat
  recordCount : Nat
  autoIncField : Option (AutoIncField R)
  autoIncValue : UInt32

/-- A handle that edits records. -/
structure BoxEditor (R : Type) : Type extends SafeBoxRecordSet R where
  isDirty : Bool
  isNewRecord : Bool
  /-- How often the mutex of the file is locked. -/
  locks : Nat

/-- Why an operation of a record set raises. -/
inductive BoxError : Type
  | noCurrentRecord | maxRowsLimit | generalIo | board
  deriving DecidableEq

/-- How the board takes a write: whether it answers the seek, and what it answers to each
piece of the record, a failure or a number of units. -/
structure BoardWrite : Type where
  seek : Bool
  piece : Nat → Option Nat

namespace BoardWrite

variable (board : BoardWrite)

/-- `fsWrite`: the pieces of a write, each of as many units as a request carries. -/
def fsWrite (left k n : Nat) : Option Nat :=
  if left > 0 then
    match board.piece k with
    | none => none
    | some count => fsWrite (left - min left MAX_DATA_SIZE) (k + 1) (n + count)
  else some n
termination_by left
decreasing_by
  simp only [MAX_DATA_SIZE]
  omega

/-- Seek to a record and write its units. -/
def writeUnits (units : Nat) : Except BoxError Unit :=
  if board.seek = false then .error .board
  else
    match board.fsWrite units 0 0 with
    | none => .error .board
    | some n => if n ≠ units then .error .generalIo else .ok ()

end BoardWrite

/-- The next auto-increment value, which the table has then used. -/
def BoxTable.nextAutoIncValue {R : Type} (t : BoxTable R) : UInt32 × BoxTable R :=
  (t.autoIncValue + 1, { t with autoIncValue := t.autoIncValue + 1 })

def BoxTable.incRecordCount {R : Type} (t : BoxTable R) : BoxTable R :=
  { t with recordCount := t.recordCount + 1 }

namespace BoxEditor

variable {R : Type} (board : BoardWrite) (units : Nat) (t : BoxTable R) (self : BoxEditor R)

def lock : BoxEditor R := { self with locks := self.locks + 1 }

def unLock : BoxEditor R := { self with locks := self.locks - 1 }

/-- A new record, zeroed, behind the others. -/
def add (zeroed : R) : Except BoxError (BoxEditor R) :=
  if t.recordCount ≥ t.maxRows then .error .maxRowsLimit
  else
    .ok { self with currentRow := t.recordCount, isNewRecord := true, currentRowBuf := zeroed }

/-- `myCurrentRow >= [self getRecordCount]`, where a row before the first counts as a huge
one. -/
def eof : Bool := decide (self.currentRow < 0 ∨ self.currentRow ≥ t.recordCount) ||
  decide (t.recordCount = 0)

/-- `setValue` of one of the fields: the record is dirty even when there is none. -/
def setValue (set : R → R) : Except BoxError Unit × BoxEditor R :=
  let self := { self with isDirty := true }
  if self.eof t && !self.isNewRecord then (.error .noCurrentRecord, self)
  else (.ok (), { self with currentRowBuf := set self.currentRowBuf })

/-- `getValue` of the AUTOINC field. -/
def getValue (field : AutoIncField R) : Except BoxError UInt32 :=
  if self.currentRow < 0 ∨ self.currentRow > t.recordCount then .error .noCurrentRecord
  else .ok (field.get self.currentRowBuf)

/-- The id of an existing record. -/
def update : Except BoxError UInt32 :=
  match t.autoIncField with
  | none => .ok 0
  | some field => self.getValue t field

/-- A new record takes the next auto-increment value. -/
def append : UInt32 × BoxTable R × BoxEditor R :=
  match t.autoIncField with
  | none => (0, t, self)
  | some field =>
    let (value, t) := t.nextAutoIncValue
    (value, t, (self.setValue t fun r => field.set r value).2)

/-- The row buffer goes to the board, and then to the table buffer. -/
def writeRecordToFile : Except BoxError (BoxTable R) :=
  match board.writeUnits units with
  | .error e => .error e
  | .ok () => .ok { t with buffer := Function.update t.buffer self.currentRow self.currentRowBuf }

/-- Write a record that has its id; the mutex is locked. -/
def saveRecord (autoIncValue : UInt32) : Except BoxError UInt32 × BoxTable R × BoxEditor R :=
  match self.writeRecordToFile board units t with
  | .error e =>
    -- the failure goes on after the row buffer is read back
    (.error e, t,
      { self with
        currentRowBuf := t.buffer self.currentRow, isNewRecord := false, isDirty := false }.unLock)
  | .ok t =>
    let t := if self.isNewRecord then t.incRecordCount else t
    (.ok autoIncValue, t, { self.unLock with isDirty := false, isNewRecord := false })

/-- `save`; a record that was not edited is not written. -/
def save : Except BoxError UInt32 × BoxTable R × BoxEditor R :=
  if self.isDirty = false then (.ok 0, t, self)
  else
    let self := self.lock
    if self.isNewRecord then
      let appended := self.append t
      appended.2.2.saveRecord board units appended.2.1 appended.1
    else
      match self.update t with
      | .error e => (.error e, t, self)
      | .ok autoIncValue => self.saveRecord board units t autoIncValue

end BoxEditor

/-! ## One save -/

section

variable {R : Type} {board : BoardWrite} {units : Nat} {t : BoxTable R} {self : BoxEditor R}

variable {e : BoxError}

theorem BoxEditor.writeRecordToFile_error (failed : board.writeUnits units = .error e) :
    self.writeRecordToFile board units t = .error e := by
  rw [writeRecordToFile, failed]

/-- A failure of the board leaves the handle on the record of the table, with the mutex as it
was before the save. -/
theorem BoxEditor.saveRecord_error (failed : board.writeUnits units = .error e)
    (autoIncValue : UInt32) : self.saveRecord board units t autoIncValue = (.error e, t,
      { self with
        currentRowBuf := t.buffer self.currentRow, isNewRecord := false, isDirty := false,
        locks := self.locks - 1 }) := by
  rw [saveRecord, writeRecordToFile_error failed]
  rfl

/-- The table before the write of a new record: the next auto-increment value is taken. -/
theorem BoxEditor.append_table :
    (self.append t).2.1 = if t.autoIncField.isSome then t.nextAutoIncValue.2 else t := by
  rw [append]
  cases t.autoIncField with
  | none => rfl
  | some field => rfl

theorem BoxEditor.save_of_new (dirty : self.isDirty = true) (added : self.isNewRecord = true) :
    self.save board units t =
      (self.lock.append t).2.2.saveRecord board units (self.lock.append t).2.1
        (self.lock.append t).1 := by
  rw [save, if_neg (by simp [dirty])]
  exact if_pos added

/-- What a save whose write fails should do: report it and leave the table buffer, the record
count and the next auto-increment value as they were. -/
def BoxEditor.FailsAtomically (board : BoardWrite) (units : Nat) (t : BoxTable R)
    (self : BoxEditor R) : Prop :=
  (∃ e, (self.save board units t).1 = .error e) ∧
    (self.save board units t).2.1.buffer = t.buffer ∧
    (self.save board units t).2.1.recordCount = t.recordCount ∧
    (self.save board units t).2.1.nextAutoIncValue.1 = t.nextAutoIncValue.1

theorem BoxEditor.save_new_error (failed : board.writeUnits units = .error e)
    (dirty : self.isDirty = true) (added : self.isNewRecord = true) :
    (self.save board units t).1 = .error e ∧
      (self.save board units t).2.1 =
        if t.autoIncField.isSome then t.nextAutoIncValue.2 else t := by
  rw [save_of_new dirty added, saveRecord_error failed]
  exact ⟨rfl, append_table⟩

theorem BoxEditor.save_existing_error (failed : board.writeUnits units = .error e)
    (dirty : self.isDirty = true) (stored : self.isNewRecord = false) :
    (∃ e, (self.save board units t).1 = .error e) ∧ (self.save board units t).2.1 = t := by
  rw [save, if_neg (by simp [dirty])]
  simp only [lock, stored, Bool.false_eq_true, if_false]
  cases update t _ with
  | error e => exact ⟨⟨e, rfl⟩, rfl⟩
  | ok autoIncValue =>
    simp only
    rw [saveRecord_error failed]
    exact ⟨⟨e, rfl⟩, rfl⟩

/-- A save whose write fails leaves the table as it was, unless the record is new and the
table numbers its records. -/
theorem BoxEditor.save_failed_iff (board : BoardWrite) (units : Nat) (t : BoxTable R)
    (self : BoxEditor R) {e : BoxError} (failed : board.writeUnits units = .error e)
    (dirty : self.isDirty = true) :
    self.FailsAtomically board units t ↔ self.isNewRecord = false ∨ t.autoIncField = none := by
  cases added : self.isNewRecord with
  | false =>
    rcases save_existing_error (t := t) failed dirty added with ⟨reported, same⟩
    have kept : self.FailsAtomically board units t := by
      rw [FailsAtomically, same]
      exact ⟨reported, rfl, rfl, rfl⟩
    exact ⟨fun _ => .inl rfl, fun _ => kept⟩
  | true =>
    rcases save_new_error (t := t) failed dirty added with ⟨reported, left⟩
    rw [FailsAtomically, left]
    cases auto : t.autoIncField with
    | none => exact ⟨fun _ => .inr rfl, fun _ => ⟨⟨e, reported⟩, rfl, rfl, rfl⟩⟩
    | some field =>
      constructor
      · rintro ⟨-, -, -, same⟩
        -- the next value is one further than before
        have further : t.autoIncValue + 1 + 1 ≠ t.autoIncValue + 1 := by grind
        exact absurd same further
      · rintro (stored | plain)
        · cases stored
        · cases plain

end

/-- A table of audits, whose record is its number, with one record. -/
def auditsBox : BoxTable UInt32 where
  buffer row := if row = 0 then 7 else 0
  maxRows := 6000
  recordCount := 1
  autoIncField := some ⟨id, fun _ value => value⟩
  autoIncValue := 7

/-- A board that does not answer. -/
def noBoard : BoardWrite := ⟨false, fun _ => none⟩

theorem noBoard_fails : noBoard.writeUnits 1 = .error .board := rfl

/-- The first record edited, and a board that does not answer. -/
theorem BoxEditor.save_failed_iff_edited :
    (⟨⟨0, 9⟩, true, false, 0⟩ : BoxEditor UInt32).FailsAtomically noBoard 1 auditsBox ↔
      false = false ∨ auditsBox.autoIncField = none :=
  BoxEditor.save_failed_iff noBoard 1 auditsBox ⟨⟨0, 9⟩, true, false, 0⟩ noBoard_fails rfl

/-- A new audit that the board does not take: its number is skipped. -/
theorem BoxEditor.save_fails_new :
    ¬ ∀ (board : BoardWrite) (t : BoxTable UInt32) (self : BoxEditor UInt32) (e : BoxError),
      board.writeUnits 1 = .error e → self.isDirty = true → self.FailsAtomically board 1 t := by
  intro atomic
  have same := (atomic noBoard auditsBox ⟨⟨1, 0⟩, true, true, 0⟩ .board noBoard_fails rfl).2.2.2
  exact absurd same (by decide)

end CimArm
