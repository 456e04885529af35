import CimArm.Db.RecordSet
import Mathlib.Logic.Function.Basic

/-!
# Multi-part tables

A multi-part table spreads its records over part files `name_0`, `name_1`, …; an
index file holds one row for each part, with the suffix of its name, the id of
its first record and the days of its oldest and newest record.  New records go to
the last part; a full last part is followed by a new one, and the oldest index
rows are dropped so that the number of rows stays within the configured maximum.
The files of dropped rows stay where they are.

`MultiPart` carries what the object and its two record sets carry: the tables
registered for the part files, the index table with its record set, the record
set of the part that is open, the number of that part in the index
(`currentTableNumber`, which a search can leave negative) and the buffer being
edited.  No deletion of an index row is cut short here, so no temporary index
file is ever found.
-/

namespace CimArm

/-- The day of an instant (`truncDateTime`); the process runs in UTC. -/
def truncDateTime (date : Nat) : Nat := date - date % 86400

/-- One row of the index: the suffix of the part's name, its days and first id. -/
structure IndexRow : Type where
  tableName : Nat
  fromDate : Nat
  toDate : Nat
  fromId : Nat
  deriving DecidableEq, Repr

/-- A day before the oldest or after the newest day of the row. -/
def IndexRow.outside (row : IndexRow) (date : Nat) : Bool :=
  date < truncDateTime row.fromDate || date > truncDateTime row.toDate

/-- An interval with both ends before the oldest or after the newest day of the row. -/
def IndexRow.skipped (row : IndexRow) (aFromDate aToDate : Nat) : Bool :=
  (aFromDate < row.fromDate && aToDate < row.fromDate) ||
    (aFromDate > row.toDate && aToDate > row.toDate)

/-- The row with its newest and its oldest day set to `date` where it is beyond them. -/
def IndexRow.widen (row : IndexRow) (date : Nat) : IndexRow :=
  let updateToDate := date > truncDateTime row.toDate
  let updateFromDate := date < truncDateTime row.fromDate
  { row with
    fromDate := if updateFromDate then date else row.fromDate
    toDate := if updateToDate then date else row.toDate }

/-- A numeric field: its width in bytes and its value. -/
structure NumField (R : Type) : Type where
  len : Nat
  get : R → Nat

/-- A field copied into a zeroed `unsigned long` and read as four big-endian bytes. -/
def NumField.asLong {R : Type} (field : NumField R) (r : R) : Nat :=
  field.get r * 256 ^ (4 - field.len)

theorem NumField.asLong_of_len {R : Type} {field : NumField R} (len : field.len = 4) (r : R) :
    field.asLong r = field.get r := by
  simp [NumField.asLong, len]

/-- What a multi-part table is configured with. An `AUTOINC` field, where there
is one, is the id field, and setting it leaves the date alone. -/
structure MultiPartSchema (R : Type) : Type extends Schema R where
  idField : NumField R
  dateField : Option (R → Nat)
  /-- Records in one part; `none` for no limit. -/
  maxRecordCount : Option Nat
  maxFiles : Nat
  /-- The index keeps the id of a field of two bytes as a signed number, and that of any
  other as four bytes: it is right for these. -/
  id_kept : ∀ r, idField.len = 4 ∨ idField.len = 2 ∧ idField.get r < 2 ^ 15
  id_read : ∀ {read write}, autoIncField = some (read, write) → read = idField.get
  id_write : ∀ {read write}, autoIncField = some (read, write) →
    ∀ n r, n < ulongSize → idField.get (write n r) = n
  date_write : ∀ {read write}, autoIncField = some (read, write) →
    ∀ {date}, dateField = some date → ∀ n r, date (write n r) = date r

structure MultiPart (R : Type) : Type where
  parts : Nat → Table R
  indexTable : Table IndexRow
  index : RecordSet IndexRow
  /-- The suffix of the part the data record set is open on. -/
  dataName : Nat
  data : RecordSet R
  currentTableNumber : Int
  buffer : R
  isNewRecord : Bool
  isDirty : Bool
  appendFileMode : Bool
  shouldCutFile : Bool

/-- The index file has no auto-increment field. -/
def indexSchema : Schema IndexRow := ⟨⟨0, 0, 0, 0⟩, none⟩

namespace MultiPart

variable {R : Type} (schema : MultiPartSchema R) (self : MultiPart R)

/-- The table of the open part. -/
def dataTable : Table R := self.parts self.dataName

/-- The part files of the index rows, oldest first. -/
def files : List (Table R) := self.indexTable.records.map fun row => self.parts row.tableName

/-- The records of the table in stored order. -/
def stored : List R := self.files.flatMap (·.records)

def readCurrentData : MultiPart R :=
  { self with isNewRecord := false, isDirty := false, buffer := self.data.buffer }

/-- The number of parts; asking for it clears the end-of-file flag of the index. -/
def getIndexCount : Nat × MultiPart R :=
  (self.indexTable.records.length, { self with index := { self.index with feof := false } })

/-- Open a part by its number. The index is read there, so that its buffer holds
the row of the open part. -/
def openDataTable (aTableNumber : Int) : MultiPart R :=
  if self.currentTableNumber = aTableNumber then self
  else
    let index := self.index.seek self.indexTable .set aTableNumber
    { self with
      index := index, dataName := index.buffer.tableName
      data := RecordSet.open schema.toSchema, currentTableNumber := aTableNumber }

/-- `currentTableNumber >= count - 1`, compared as unsigned numbers. -/
def atLastTable (count : Nat) : Bool :=
  self.currentTableNumber < 0 || (count : Int) - 1 ≤ self.currentTableNumber

def eof : Bool × MultiPart R :=
  let (count, self) := self.getIndexCount
  (count = 0 || (self.data.eof self.dataTable && self.atLastTable count), self)

def bof : Bool := self.data.bof && self.currentTableNumber ≤ 0

def moveFirst : Bool × MultiPart R :=
  let (count, self) := self.getIndexCount
  if count = 0 then (false, self)
  else
    let self := if self.currentTableNumber ≠ 0 then self.openDataTable schema 0 else self
    let self := { self with data := (self.data.moveFirst self.dataTable).2 }
    (true, self.readCurrentData)

def moveBeforeFirst : Bool × MultiPart R :=
  let self := if self.currentTableNumber ≠ 0 then self.openDataTable schema 0 else self
  let (found, data) := self.data.moveBeforeFirst self.dataTable
  (found, { self with data := data })

/-- `moveNext` inside the open part. -/
def readNext : Bool × MultiPart R :=
  let (found, data) := self.data.moveNext self.dataTable
  let self := { self with data := data }
  (found, if found then self.readCurrentData else self)

/-- `movePrev` inside the open part. -/
def readPrev : Bool × MultiPart R :=
  let (found, data) := self.data.movePrev self.dataTable
  let self := { self with data := data }
  (found, if found then self.readCurrentData else self)

/-- `moveNext` at the end of the open part: the first record of the next one. -/
def readNextPart : Bool × MultiPart R :=
  let (count, self) := self.getIndexCount
  if count = 0 || self.atLastTable count then (false, self)
  else
    let self := self.openDataTable schema (self.currentTableNumber + 1)
    ({ self with data := (self.data.moveBeforeFirst self.dataTable).2 }).readNext

def moveNext : Bool × MultiPart R :=
  let (found, self) := self.readNext
  if found then (true, self) else self.readNextPart schema

/-- `movePrev` at the start of the open part: the last record of the one before. -/
def readPrevPart : Bool × MultiPart R :=
  if self.currentTableNumber = 0 then (false, self)
  else
    let self := self.openDataTable schema (self.currentTableNumber - 1)
    (true, ({ self with data := (self.data.moveLast self.dataTable).2 }).readCurrentData)

def movePrev : Bool × MultiPart R :=
  let (found, self) := self.readPrev
  if found then (true, self) else self.readPrevPart schema

def moveLast : Bool × MultiPart R :=
  let (count, self) := self.getIndexCount
  if count = 0 then (false, self)
  else
    let self := if self.currentTableNumber ≠ count - 1 then self.openDataTable schema (count - 1)
      else self
    let self := { self with data := (self.data.moveLast self.dataTable).2 }
    (true, self.readCurrentData)

/-! ## Saving -/

/-- Start a new record in a zeroed buffer. -/
def add : MultiPart R := { self with buffer := schema.blank, isNewRecord := true }

/-- The field setters, which together leave `r` in the buffer and mark it dirty. -/
def setValues (r : R) : MultiPart R := { self with buffer := r, isDirty := true }

/-- Ask for a new part at the next new record of a table without record limit. -/
def cutFile : MultiPart R := { self with appendFileMode := true }

def setShouldCutFile (aValue : Bool) : MultiPart R := { self with shouldCutFile := aValue }

/-- Add the index row of a part whose first record was just written. -/
def addIndexRecord : MultiPart R :=
  let date := match schema.dateField with
    | some date => truncDateTime (date self.data.buffer)
    | none => 0
  let row : IndexRow :=
    { tableName := self.dataName, fromDate := date, toDate := date
      fromId := schema.idField.get self.data.buffer }
  let (_, indexTable, index) :=
    ((self.index.add indexSchema).setRecordBuffer row).save indexSchema self.indexTable
  { self with indexTable := indexTable, index := index }

/-- Widen the days of the index row in the index buffer to the record just written. -/
def updateIndexDates : MultiPart R :=
  match schema.dateField with
  | none => self
  | some dateField =>
    let date := truncDateTime (dateField self.data.buffer)
    if self.index.buffer.outside date then
      let (_, indexTable, index) :=
        (self.index.setRecordBuffer (self.index.buffer.widen date)).save indexSchema self.indexTable
      { self with indexTable := indexTable, index := index }
    else self

/-- Create the part of a suffix after the last one. -/
def createDataTable (aTableId : Nat) : MultiPart R :=
  let (count, self) := self.getIndexCount
  { self with
    dataName := aTableId, data := RecordSet.open schema.toSchema, currentTableNumber := count }

/-- Drop a number of index rows, oldest first. -/
def deleteOldest : Nat → MultiPart R → MultiPart R
  | 0, self => self
  | n + 1, self =>
    let (found, index) := self.index.moveFirst self.indexTable
    if found then
      let (indexTable, index) := index.delete self.indexTable []
      deleteOldest n { self with indexTable := indexTable, index := index }
    else deleteOldest n { self with index := index }

/-- At the boot, drop the oldest index rows that exceed the maximum. -/
def clearOldExcededData : MultiPart R :=
  if self.indexTable.records.length > schema.maxFiles then
    let self := deleteOldest (self.indexTable.records.length - schema.maxFiles) self
    { self with data := RecordSet.open schema.toSchema }
  else self

/-- Open the table at the boot: its first part, or the file `name_0` when there is
none. -/
def «open» (parts : Nat → Table R) (indexTable : Table IndexRow) : MultiPart R :=
  let (found, index) := (RecordSet.open indexSchema).moveNext indexTable
  let self : MultiPart R :=
    { parts := parts, indexTable := indexTable, index := index,
      dataName := if found then index.buffer.tableName else 0,
      data := RecordSet.open schema.toSchema, currentTableNumber := 0, buffer := schema.blank,
      isNewRecord := false, isDirty := false, appendFileMode := false, shouldCutFile := false }
  self.clearOldExcededData schema

/-- Close the table and open it after a restart, when each table of a part loads
its auto-increment value from its file. -/
def reopen : MultiPart R :=
  MultiPart.open schema
    (fun name => { self.parts name with
      autoIncValue := (self.parts name).loadAutoIncValue schema.toSchema })
    self.indexTable

/-- The first half of `appendFile`: drop the index rows that exceed the maximum
once a part is added. -/
def makeRoom : MultiPart R :=
  let (fileCount, self) := self.getIndexCount
  if fileCount ≥ schema.maxFiles then deleteOldest ((fileCount - schema.maxFiles) + 1) self
  else self

/-- The suffix of the part after the last row, and the auto-increment value it
takes over; without a row both start again at 0. -/
def nextTable : (Nat × Nat) × MultiPart R :=
  let (found, index) := self.index.moveLast self.indexTable
  (if found then
      (index.buffer.tableName + 1, (self.parts index.buffer.tableName).autoIncValue)
    else (0, 0),
    { self with index := index })

/-- Make room in the index and open a new part after the last one, which hands
its auto-increment value on. -/
def appendFile : MultiPart R :=
  let ((tableId, autoInc), self) := (self.makeRoom schema).nextTable
  let self := self.createDataTable schema tableId
  let dataTable := { self.parts tableId with autoIncValue := autoInc }
  { self with parts := Function.update self.parts tableId dataTable }

/-- The last part is full, or a cut was asked for in a table without limit. -/
def shouldAppendFile (count : Nat) : Bool :=
  match schema.maxRecordCount with
  | some maxRecordCount => maxRecordCount ≤ count
  | none => self.appendFileMode

/-- Go to the last part, or to a new one when the last must not grow. The result
is the number of records of the part the next record goes to. -/
def openLastPart : Nat × MultiPart R :=
  let (count, self) := self.getIndexCount
  if count = 0 then (0, self)
  else
    let self := self.openDataTable schema (count - 1)
    let (count, data) := self.data.getRecordCount self.dataTable
    let self := { self with data := data }
    if self.shouldAppendFile schema count then
      let self := { self with
        appendFileMode := false
        shouldCutFile := self.shouldCutFile || schema.maxRecordCount.isSome }
      (0, self.appendFile schema)
    else (count, self)

/-- Write the buffer as a new record of the open part. -/
def appendRecord : Nat × MultiPart R :=
  let data := (self.data.add schema.toSchema).setRecordBuffer self.buffer
  let (autoInc, table, data) := data.save schema.toSchema self.dataTable
  (autoInc, { self with data := data, parts := Function.update self.parts self.dataName table })

/-- Save a new record. The result is its auto-increment value. -/
def saveNew : Nat × MultiPart R :=
  let (count, self) := self.openLastPart schema
  let (autoInc, self) := self.appendRecord schema
  let self := if count = 0 then self.addIndexRecord schema else self.updateIndexDates schema
  (autoInc, { self with isDirty := false, isNewRecord := false, appendFileMode := false })

/-- Add a record and save it: the sequence of every client. -/
def store (r : R) : Nat × MultiPart R := ((self.add schema).setValues r).saveNew schema

/-! ## Searching -/

/-- Count the leading index rows whose first id is not above the value, reading
the index from its position. `found` is the number of the last one. -/
def searchIndex (aValue : Nat) : Nat → Int → MultiPart R → Int × MultiPart R
  | 0, tableNo, self => (tableNo, self)
  | fuel + 1, tableNo, self =>
    let (found, index) := self.index.moveNext self.indexTable
    let self := { self with index := index }
    if !found then (tableNo, self)
    else if index.buffer.fromId > aValue then (tableNo, self)
    else searchIndex aValue fuel (tableNo + 1) self

def binarySearch (field : NumField R) (aValue : Nat) : Bool × MultiPart R :=
  let (count, self) := self.getIndexCount
  if count = 0 then (false, self)
  else
    let self := { self with index := (self.index.moveBeforeFirst self.indexTable).2 }
    let (tableNo, self) := searchIndex aValue (count + 1) (-1) self
    let self := self.openDataTable schema tableNo
    let (found, data) := self.data.binarySearch self.dataTable field.get aValue
    let self := { self with data := data }
    if found then (true, self.readCurrentData) else (false, self)

def findById (field : NumField R) (aValue : Nat) : Bool × MultiPart R :=
  self.binarySearch schema field aValue

/-- Step back while the value stays; each step passes a record or a part. -/
def backWhileEqual (field : NumField R) (aValue : Nat) : Nat → MultiPart R → MultiPart R
  | 0, self => self
  | fuel + 1, self =>
    let (found, self) := self.movePrev schema
    if !found then self
    else if field.asLong self.data.buffer ≠ aValue then self
    else backWhileEqual field aValue fuel self

def findFirstById (field : NumField R) (aValue : Nat) : Bool × MultiPart R :=
  let (found, self) := self.binarySearch schema field aValue
  if !found then (false, self)
  else
    let self := backWhileEqual schema field aValue (self.stored.length + 1) self
    (true, (self.moveNext schema).2)

/-- Step forward to the first value that is not below `aValue`. -/
def forwardWhileLess (field : NumField R) (aValue : Nat) :
    Nat → MultiPart R → Bool × MultiPart R
  | 0, self => (false, self)
  | fuel + 1, self =>
    let (atEnd, self) := self.eof
    if atEnd then (false, self)
    else if field.asLong self.data.buffer ≥ aValue then (true, self)
    else forwardWhileLess field aValue fuel (self.moveNext schema).2

def findFirstFromId (field : NumField R) (aValue : Nat) : Bool × MultiPart R :=
  let (found, self) := self.binarySearch schema field aValue
  if found then (true, self)
  else
    let (found, self) := self.moveFirst schema
    if !found then (false, self)
    else forwardWhileLess schema field aValue (self.stored.length + 1) self

/-- `while (![rs eof] && more) { body; [rs moveNext]; }` -/
def readWhile {σ : Type} (more : R → Bool) (body : σ → R → σ) :
    Nat → σ → MultiPart R → σ × MultiPart R
  | 0, state, self => (state, self)
  | fuel + 1, state, self =>
    let (atEnd, self) := self.eof
    if atEnd || !more self.data.buffer then (state, self)
    else readWhile more body fuel (body state self.data.buffer) (self.moveNext schema).2

/-! ## Searching by date -/

/-- Read the index from its position to a row that is not skipped, and open its
part. -/
def findNextRecordSet (aFromDate aToDate : Nat) : Nat → Int → MultiPart R → Bool × MultiPart R
  | 0, _, self => (false, self)
  | fuel + 1, tableNumber, self =>
    let (found, index) := self.index.moveNext self.indexTable
    let self := { self with index := index }
    if !found then (false, self)
    else if index.buffer.skipped aFromDate aToDate then
      findNextRecordSet aFromDate aToDate fuel (tableNumber + 1) self
    else (true, self.openDataTable schema (tableNumber + 1))

def findNextRecordSetByDateTime (aFromDate aToDate : Nat) : Bool × MultiPart R :=
  findNextRecordSet schema aFromDate aToDate (self.indexTable.records.length + 1)
    self.currentTableNumber self

/-- Read the open part to a record in the interval. -/
def scanPart (date : R → Nat) (aFromDate aToDate : Nat) : Nat → MultiPart R → Bool × MultiPart R
  | 0, self => (false, self)
  | fuel + 1, self =>
    let (found, data) := self.data.moveNext self.dataTable
    let self := { self with data := data }
    if !found then (false, self)
    else if date data.buffer ≥ aFromDate ∧ date data.buffer ≤ aToDate then (true, self)
    else scanPart date aFromDate aToDate fuel self

/-- Go to the start of the next part that is not skipped. -/
def openNextPart (aFromDate aToDate : Nat) : Bool × MultiPart R :=
  let (found, self) := self.findNextRecordSetByDateTime schema aFromDate aToDate
  if found then (true, { self with data := (self.data.moveBeforeFirst self.dataTable).2 })
  else (false, self)

/-- `findNextByDateTime` at the end of the open part. -/
def findNextPart (aFromDate aToDate : Nat) : Bool × MultiPart R :=
  let (count, self) := self.getIndexCount
  if count = 0 || self.atLastTable count then (false, self)
  else self.openNextPart schema aFromDate aToDate

/-- The loop over the parts; each round but the first is on a later part. -/
def findNextLoop (date : R → Nat) (aFromDate aToDate : Nat) :
    Nat → MultiPart R → Bool × MultiPart R
  | 0, self => (false, self)
  | fuel + 1, self =>
    let (found, self) := self.scanPart date aFromDate aToDate (self.dataTable.records.length + 1)
    if found then (true, self)
    else
      let (found, self) := self.findNextPart schema aFromDate aToDate
      if found then findNextLoop date aFromDate aToDate fuel self else (false, self)

def findNextByDateTime (date : R → Nat) (aFromDate aToDate : Nat) : Bool × MultiPart R :=
  findNextLoop schema date aFromDate aToDate (self.indexTable.records.length + 1) self

def findFirstByDateTime (date : R → Nat) (aFromDate aToDate : Nat) : Bool × MultiPart R :=
  let (found, index) := self.index.moveBeforeFirst self.indexTable
  let self := { self with index := index }
  if !found then (false, self)
  else
    let (found, self) := ({ self with currentTableNumber := -1 }).openNextPart schema
      aFromDate aToDate
    if found then self.findNextByDateTime schema date aFromDate aToDate else (false, self)

end MultiPart

end CimArm
