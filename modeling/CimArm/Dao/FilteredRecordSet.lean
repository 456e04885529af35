import CimArm.Dao.SafeBoxRecordSet
import CimArm.Db.Iteration
import CimArm.Lib.Traversal
import CimArm.Telesup.DFileTransferProtocol

/-!
# Filtered record sets

A `FilteredRecordSet` wraps a record set and moves with a `DataSearcher` over the records that
satisfy its filters.  The wrapped record set is any of the four kinds; what the searcher needs
of it is that it walks over its records from before the first one (`AbstractRecordSet.Left`).
-/

namespace CimArm

open List

open FileTransfer (sameText)
open Traversal

/-- `ABSTRACT_RECORDSET`: a handle on a data file, on a table in parts, on a table of the safe
box, or on the rows of a query. -/
inductive AbstractRecordSet (R : Type) : Type
  | file (table : Table R) (self : RecordSet R)
  | parts (schema : MultiPartSchema R) (self : MultiPart R)
  | safeBox (table : SafeBoxTable R) (self : SafeBoxRecordSet R)
  | query (myRows : List R) (myCurrentRow : Int)

theorem MultiPart.moveNext_of_eof {R : Type} {s : MultiPart R} (schema : MultiPartSchema R)
    (sync : s.Synced) (ended : s.eof.1 = true) :
    (s.moveNext schema).1 = false ∧ (s.moveNext schema).2.eof.1 = true := by
  by_cases rows : s.content.rows = []
  · refine ⟨sync.moveNext_empty rows, eof_of_empty ?_⟩
    rw [(sync.moves_moveNext schema).1.content]
    exact rows
  · have some : s.indexTable.records.length ≠ 0 := fun none =>
      rows (eq_nil_of_length_eq_zero none)
    have ended : (decide (s.indexTable.records.length = 0) ||
        (s.data.eof s.dataTable && s.atLastTable s.indexTable.records.length)) = true := ended
    simp only [some, decide_false, Bool.false_or, Bool.and_eq_true] at ended
    have stays : s.readNext = (false, s) := by
      rw [readNext, RecordSet.moveNext, if_pos ended.1]
      rfl
    have final : s.moveNext schema = (false, s.getIndexCount.2) := by
      rw [moveNext, stays]
      change (if (s.indexTable.records.length = 0 ||
        s.getIndexCount.2.atLastTable s.indexTable.records.length) = true then
          (false, s.getIndexCount.2) else _) = _
      exact if_pos ((Bool.or_eq_true _ _).mpr (.inr ended.2))
    rw [final]
    refine ⟨rfl, ?_⟩
    change (decide (s.indexTable.records.length = 0) ||
      (s.data.eof s.dataTable && s.atLastTable s.indexTable.records.length)) = true
    rw [ended.1, ended.2, Bool.and_true, Bool.or_true]

namespace AbstractRecordSet

variable {R : Type}

def moveBeforeFirst : AbstractRecordSet R → Bool × AbstractRecordSet R
  | .file table self => (self.moveBeforeFirst table).map id (.file table)
  | .parts schema self => (self.moveBeforeFirst schema).map id (.parts schema)
  | .safeBox table self => self.moveBeforeFirst.map id (.safeBox table)
  | .query myRows _ => (true, .query myRows (-1))

def moveNext : AbstractRecordSet R → Bool × AbstractRecordSet R
  | .file table self => (self.moveNext table).map id (.file table)
  | .parts schema self => (self.moveNext schema).map id (.parts schema)
  | .safeBox table self => (self.moveNext table).map id (.safeBox table)
  | .query myRows myCurrentRow =>
    let count : Int := myRows.length
    if count = 0 ∨ myCurrentRow ≥ count then (false, .query myRows myCurrentRow)
    else (decide (myCurrentRow + 1 < count), .query myRows (myCurrentRow + 1))

/-- Asking for the end of a table in parts clears a flag of its index. The row number of a safe
box is compared as an unsigned one. -/
def eof : AbstractRecordSet R → Bool × AbstractRecordSet R
  | .file table self => (self.eof table, .file table self)
  | .parts schema self => self.eof.map id (.parts schema)
  | .safeBox table self =>
    let count : Int := SafeBoxRecordSet.getRecordCount table
    (decide (self.currentRow < 0 ∨ self.currentRow ≥ count ∨ count = 0), .safeBox table self)
  | .query myRows myCurrentRow =>
    let count : Int := myRows.length
    (decide (myCurrentRow < 0 ∨ myCurrentRow ≥ count ∨ count = 0), .query myRows myCurrentRow)

/-- The record the getters read, unless they raise `NO_CURRENT_RECORD_EX`. -/
def getRecord : AbstractRecordSet R → Option R
  | .file _ self => self.getRecord
  | .parts _ self => self.data.getRecord
  | .safeBox table self => self.getRecord table
  | .query myRows myCurrentRow => if myCurrentRow < 0 then none else myRows[myCurrentRow.toNat]?

/-- The records in stored order. -/
def records : AbstractRecordSet R → List R
  | .file table _ => table.records
  | .parts _ self => self.content.stored
  | .safeBox table _ => table.records
  | .query myRows _ => myRows

/-- The parts of a table are in step and have records, as in every state of the table. -/
def WellFormed : AbstractRecordSet R → Prop
  | .parts _ self => self.Synced ∧ self.content.Filled
  | _ => True

/-! ## Walking over the records -/

/-- Before the first record. -/
def Before : AbstractRecordSet R → Prop
  | .file _ self => self.pos = 0 ∧ self.feof = false
  | .parts _ self => self.content.rows ≠ [] → self.AtStart
  | .safeBox _ self => self.currentRow = -1
  | .query _ myCurrentRow => myCurrentRow = -1

/-- On record `k`. -/
def On (k : Nat) : AbstractRecordSet R → Prop
  | .file table self => self.pos = k + 1 ∧ self.feof = false ∧ table.records[k]? = some self.buffer
  | .parts _ self => self.AtRecord k
  | .safeBox table self => self.currentRow = k ∧ table.records[k]? = some self.currentRowBuf
  | .query myRows myCurrentRow => myCurrentRow = k ∧ k < myRows.length

/-- Past the last record. -/
def Past : AbstractRecordSet R → Prop
  | .file table self => self.eof table = true
  | .parts _ self => self.eof.1 = true
  | .safeBox table self => table.records = [] ∨ (table.records.length : Int) ≤ self.currentRow
  | .query myRows myCurrentRow => myRows = [] ∨ (myRows.length : Int) ≤ myCurrentRow

/-- `n` records have been passed. -/
def At : Nat → AbstractRecordSet R → Prop
  | 0, rs => rs.Before
  | k + 1, rs => rs.On k

variable {rs : AbstractRecordSet R} {all : List R}

/-- No movement changes the records. -/
def Same (rs rs' : AbstractRecordSet R) : Prop := rs'.WellFormed ∧ rs'.records = rs.records

theorem same_moveBeforeFirst (wf : rs.WellFormed) : rs.Same rs.moveBeforeFirst.2 := by
  cases rs with
  | file table self => exact ⟨trivial, rfl⟩
  | parts schema self =>
    have keeps := wf.1.moves_moveBeforeFirst schema
    exact ⟨⟨keeps.2, keeps.1.content ▸ wf.2⟩, congrArg Content.stored keeps.1.content⟩
  | safeBox table self => exact ⟨trivial, rfl⟩
  | query myRows myCurrentRow => exact ⟨trivial, rfl⟩

theorem same_moveNext (wf : rs.WellFormed) : rs.Same rs.moveNext.2 := by
  cases rs with
  | file table self => exact ⟨trivial, rfl⟩
  | parts schema self =>
    have keeps := wf.1.moves_moveNext schema
    exact ⟨⟨keeps.2, keeps.1.content ▸ wf.2⟩, congrArg Content.stored keeps.1.content⟩
  | safeBox table self => exact ⟨trivial, rfl⟩
  | query myRows myCurrentRow =>
    rw [moveNext]
    split_ifs <;> exact ⟨trivial, rfl⟩

theorem same_eof (wf : rs.WellFormed) : rs.Same rs.eof.2 := by
  cases rs with
  | file table self => exact ⟨trivial, rfl⟩
  | parts schema self =>
    have keeps := wf.1.moves_getIndexCount
    exact ⟨⟨keeps.2, keeps.1.content ▸ wf.2⟩, congrArg Content.stored keeps.1.content⟩
  | safeBox table self => exact ⟨trivial, rfl⟩
  | query myRows myCurrentRow => exact ⟨trivial, rfl⟩

theorem before_moveBeforeFirst (wf : rs.WellFormed) : rs.moveBeforeFirst.2.Before := by
  cases rs with
  | file table self =>
    change (self.moveBeforeFirst table).2.pos = 0 ∧ (self.moveBeforeFirst table).2.feof = false
    rw [RecordSet.moveBeforeFirst_snd]
    exact ⟨rfl, rfl⟩
  | parts schema self =>
    intro rows
    have frame := (wf.1.moves_moveBeforeFirst schema).1.content
    exact wf.1.moveBeforeFirst_atStart schema (frame ▸ rows)
  | safeBox table self => rfl
  | query myRows myCurrentRow => rfl

theorem On.getRecord {k : Nat} (on : rs.On k) :
    ∃ r, rs.getRecord = some r ∧ rs.records[k]? = some r := by
  cases rs with
  | file table self =>
    rcases on with ⟨pos, -, buffer⟩
    exact ⟨self.buffer, if_neg (by omega), buffer⟩
  | parts schema self =>
    have buffer := MultiPart.AtRecord.buffer on
    rcases on with ⟨part, j, row, on, -⟩
    exact ⟨self.data.buffer, if_neg fun h => absurd h.1 (by rw [on.pos]; omega), buffer⟩
  | safeBox table self =>
    rcases on with ⟨row, buffer⟩
    have inside := (List.getElem?_eq_some_iff.1 buffer).1
    refine ⟨self.currentRowBuf, if_neg ?_, buffer⟩
    rw [SafeBoxRecordSet.isPastCount, SafeBoxRecordSet.getRecordCount]
    omega
  | query myRows myCurrentRow =>
    rcases on with ⟨rfl, inside⟩
    refine ⟨myRows[k], ?_, List.getElem?_eq_getElem inside⟩
    change (if (k : Int) < 0 then none else myRows[(k : Int).toNat]?) = _
    rw [if_neg (by omega), Int.toNat_natCast, List.getElem?_eq_getElem inside]

theorem On.eof {k : Nat} (on : rs.On k) : rs.eof.1 = false ∧ rs.eof.2.On k := by
  cases rs with
  | file table self =>
    rcases on with ⟨pos, flag, buffer⟩
    have inside := (List.getElem?_eq_some_iff.1 buffer).1
    refine ⟨?_, pos, flag, buffer⟩
    change (decide (table.records.length = 0) || self.feof) = false
    rw [flag, Bool.or_false, decide_eq_false_iff_not]
    omega
  | parts schema self =>
    refine ⟨MultiPart.AtRecord.eof on, ?_⟩
    rcases on with ⟨part, j, row, on, rfl⟩
    exact ⟨part, j, row, ⟨on.rowAt, on.number, on.name, on.record, on.pos, on.flag⟩, rfl⟩
  | safeBox table self =>
    rcases on with ⟨row, buffer⟩
    have inside := (List.getElem?_eq_some_iff.1 buffer).1
    refine ⟨decide_eq_false ?_, row, buffer⟩
    rw [SafeBoxRecordSet.getRecordCount]
    omega
  | query myRows myCurrentRow =>
    rcases on with ⟨row, inside⟩
    exact ⟨decide_eq_false (by omega), row, inside⟩

theorem Past.eof (past : rs.Past) : rs.eof.1 = true ∧ rs.eof.2.Past := by
  cases rs with
  | file table self => exact ⟨past, past⟩
  | parts schema self => exact ⟨past, past⟩
  | safeBox table self =>
    refine ⟨decide_eq_true ?_, past⟩
    rw [SafeBoxRecordSet.getRecordCount]
    rcases past with none | past
    · exact .inr (.inr (by simp [none]))
    · exact .inr (.inl past)
  | query myRows myCurrentRow =>
    refine ⟨decide_eq_true ?_, past⟩
    rcases past with none | past
    · exact .inr (.inr (by simp [none]))
    · exact .inr (.inl past)

theorem Past.moveNext (wf : rs.WellFormed) (past : rs.Past) :
    rs.moveNext.1 = false ∧ rs.moveNext.2.Past := by
  cases rs with
  | file table self =>
    have stays : self.moveNext table = (false, self) := if_pos past
    change (self.moveNext table).1 = false ∧ (self.moveNext table).2.eof table = true
    rw [stays]
    exact ⟨rfl, past⟩
  | parts schema self => exact MultiPart.moveNext_of_eof schema wf.1 past
  | safeBox table self =>
    have stays : self.moveNext table = (false, self) := by
      refine if_pos ?_
      rw [SafeBoxRecordSet.getRecordCount]
      exact past.imp (fun none => by simp [none]) id
    change (self.moveNext table).1 = false ∧
      (AbstractRecordSet.safeBox table (self.moveNext table).2).Past
    rw [stays]
    exact ⟨rfl, past⟩
  | query myRows myCurrentRow =>
    have stays : (AbstractRecordSet.query myRows myCurrentRow).moveNext =
        (false, .query myRows myCurrentRow) := if_pos (past.imp (fun none => by simp [none]) id)
    rw [stays]
    exact ⟨rfl, past⟩

theorem At.moveNext {n : Nat} (wf : rs.WellFormed) (here : rs.At n) :
    (n < rs.records.length → rs.moveNext.1 = true ∧ rs.moveNext.2.On n) ∧
      (rs.records.length ≤ n → rs.moveNext.1 = false ∧ rs.moveNext.2.Past) := by
  cases rs with
  | file table self =>
    have place : self.pos = n ∧ self.feof = false := by
      cases n with
      | zero => exact here
      | succ k => exact ⟨here.1, here.2.1⟩
    rcases place with ⟨rfl, flag⟩
    constructor
    · intro inside
      have read : self.moveNext table = (true, .onRecord self.pos table.records[self.pos]) :=
        RecordSet.moveNext_read (List.getElem?_eq_getElem inside) flag
      change (self.moveNext table).1 = true ∧
        (AbstractRecordSet.file table (self.moveNext table).2).On self.pos
      rw [read]
      exact ⟨rfl, rfl, rfl, List.getElem?_eq_getElem inside⟩
    · intro beyond
      have ended := RecordSet.moveNext_end beyond
      exact ⟨ended.1, ended.2.1⟩
  | parts schema self =>
    cases n with
    | zero =>
      by_cases rows : self.content.rows = []
      · have none : self.content.stored = [] := by
          simp [Content.stored, Content.files, rows]
        refine ⟨fun inside => absurd inside (by simp [records, none]), fun _ => ?_⟩
        exact MultiPart.moveNext_of_eof schema wf.1 (MultiPart.eof_of_empty rows)
      · have read := (here rows).moveNext schema wf.1 wf.2 rows
        have frame := (wf.1.moves_moveNext schema).1.content
        refine ⟨fun _ => read, fun none => absurd (MultiPart.AtRecord.buffer read.2) ?_⟩
        rw [List.getElem?_eq_none]
        · exact fun same => Option.some_ne_none _ same.symm
        · exact (congrArg (fun c => c.stored.length) frame).trans_le none
    | succ k => exact MultiPart.AtRecord.moveNext schema wf.1 wf.2 here
  | safeBox table self =>
    have row : self.currentRow = (n : Int) - 1 := by
      cases n with
      | zero => exact here
      | succ k => exact here.1.trans (by omega)
    constructor
    · intro inside
      have at_n : table.records[n]? = some table.records[n] := List.getElem?_eq_getElem inside
      change (self.moveNext table).1 = true ∧
        (AbstractRecordSet.safeBox table (self.moveNext table).2).On n
      rw [moveNext_box at_n row]
      exact ⟨rfl, rfl, at_n⟩
    · intro beyond
      change (table.records.length : Nat) ≤ n at beyond
      change (self.moveNext table).1 = false ∧
        (AbstractRecordSet.safeBox table (self.moveNext table).2).Past
      rw [SafeBoxRecordSet.moveNext, SafeBoxRecordSet.getRecordCount]
      by_cases none : (table.records.length : Int) = 0 ∨
          self.currentRow ≥ (table.records.length : Int)
      · simp only [if_pos none]
        exact ⟨trivial, none.imp (fun none => eq_nil_of_length_eq_zero (by omega)) id⟩
      · have past : self.currentRow + 1 ≥ (table.records.length : Int) := by omega
        simp only [if_neg none, if_pos past]
        exact ⟨trivial, .inr past⟩
  | query myRows myCurrentRow =>
    have row : myCurrentRow = (n : Int) - 1 := by
      cases n with
      | zero => exact here
      | succ k => exact here.1.trans (by omega)
    constructor
    · intro inside
      change n < myRows.length at inside
      have more : ¬ ((myRows.length : Int) = 0 ∨ myCurrentRow ≥ (myRows.length : Int)) := by omega
      rw [AbstractRecordSet.moveNext]
      simp only [if_neg more]
      exact ⟨decide_eq_true (by omega), by omega, inside⟩
    · intro beyond
      change myRows.length ≤ n at beyond
      rw [AbstractRecordSet.moveNext]
      by_cases none : (myRows.length : Int) = 0 ∨ myCurrentRow ≥ (myRows.length : Int)
      · simp only [if_pos none]
        exact ⟨trivial, none.imp (fun none => eq_nil_of_length_eq_zero (by omega)) id⟩
      · simp only [if_neg none]
        exact ⟨decide_eq_false (by omega), .inr (by omega)⟩

/-- What a walk over the records still has before it. -/
def Left (all rest : List R) (rs : AbstractRecordSet R) : Prop :=
  rs.WellFormed ∧ rs.records = all ∧
    ((∃ n, rs.At n ∧ rest = all.drop n) ∨ rs.Past ∧ rest = [])

/-- On a record, with what is left behind it. -/
def Reached (all : List R) (r : R) (rest : List R) (rs : AbstractRecordSet R) : Prop :=
  rs.WellFormed ∧ rs.records = all ∧ rs.getRecord = some r ∧
    ∃ k, rs.On k ∧ all[k]? = some r ∧ rest = all.drop (k + 1)

/-- At the end. -/
def Ended (all : List R) (rs : AbstractRecordSet R) : Prop :=
  rs.WellFormed ∧ rs.records = all ∧ rs.Past

variable {rest : List R} {r : R}

theorem Reached.left (reached : rs.Reached all r rest) : rs.Left all rest := by
  rcases reached with ⟨wf, same, -, k, on, -, behind⟩
  exact ⟨wf, same, .inl ⟨k + 1, on, behind⟩⟩

theorem Ended.left (ended : rs.Ended all) : rs.Left all [] :=
  ⟨ended.1, ended.2.1, .inr ⟨ended.2.2, rfl⟩⟩

theorem left_moveBeforeFirst (wf : rs.WellFormed) :
    rs.moveBeforeFirst.2.Left rs.records rs.records := by
  have same := same_moveBeforeFirst wf
  exact ⟨same.1, same.2, .inl ⟨0, before_moveBeforeFirst wf, rfl⟩⟩

theorem Left.moveNext_cons (here : rs.Left all (r :: rest)) :
    rs.moveNext.1 = true ∧ rs.moveNext.2.Reached all r rest := by
  rcases here with ⟨wf, rfl, ⟨n, at_n, behind⟩ | ⟨-, none⟩⟩
  · have inside : n < rs.records.length := by
      by_contra beyond
      rw [drop_eq_nil_of_le (Nat.not_lt.1 beyond)] at behind
      cases behind
    rcases (at_n.moveNext wf).1 inside with ⟨moved, on⟩
    rcases same_moveNext wf with ⟨wf', same⟩
    rcases on.getRecord with ⟨r', read, there⟩
    rw [same] at there
    rw [drop_eq_getElem_cons inside] at behind
    rcases List.cons.inj behind with ⟨rfl, rfl⟩
    have first : rs.records[n] = r' :=
      Option.some.inj ((List.getElem?_eq_getElem inside).symm.trans there)
    exact ⟨moved, wf', same, first ▸ read, n, on, List.getElem?_eq_getElem inside, rfl⟩
  · cases none

theorem Left.moveNext_nil (here : rs.Left all []) :
    rs.moveNext.1 = false ∧ rs.moveNext.2.Ended all := by
  rcases here with ⟨wf, rfl, ⟨n, at_n, behind⟩ | ⟨past, -⟩⟩
  · have beyond : rs.records.length ≤ n := drop_eq_nil_iff.1 behind.symm
    rcases same_moveNext wf with ⟨wf', same⟩
    exact ((at_n.moveNext wf).2 beyond).imp id fun past => ⟨wf', same, past⟩
  · rcases same_moveNext wf with ⟨wf', same⟩
    exact (past.moveNext wf).imp id fun past => ⟨wf', same, past⟩

theorem Reached.eof (reached : rs.Reached all r rest) :
    rs.eof.1 = false ∧ rs.eof.2.Reached all r rest := by
  rcases reached with ⟨wf, rfl, -, k, on, here, behind⟩
  rcases same_eof wf with ⟨wf', same⟩
  rcases on.eof with ⟨more, on⟩
  rcases on.getRecord with ⟨r', read, there⟩
  rw [same] at there
  obtain rfl : r = r' := Option.some.inj (here.symm.trans there)
  exact ⟨more, wf', same, read, k, on, here, behind⟩

theorem Ended.eof (ended : rs.Ended all) : rs.eof.1 = true ∧ rs.eof.2.Ended all := by
  rcases ended with ⟨wf, rfl, past⟩
  rcases same_eof wf with ⟨wf', same⟩
  exact past.eof.imp id fun past => ⟨wf', same, past⟩

end AbstractRecordSet


/-! ## The searcher -/

/-- The operators of a filter. -/
inductive Operator
  | equal | notEqual | less | great | greatEqual | lessEqual
  deriving DecidableEq, Repr

/-- The operator that a text stands for; `none` raises `INVALID_PARAMETER_EX`. -/
def Operator.ofText (anOperator : String) : Option Operator :=
  if anOperator = "=" then some .equal
  else if anOperator = "!=" then some .notEqual
  else if anOperator = ">=" then some .greatEqual
  else if anOperator = "<=" then some .lessEqual
  else if anOperator = "<" then some .less
  else if anOperator = ">" then some .great
  else none

/-- The data types that are compared as numbers. -/
inductive NumericType
  | char | short | long | dateTime
  deriving DecidableEq, Repr

/-- The data type of a filter and the value it compares its field with. -/
inductive FilterValue
  | numeric (dataType : NumericType) (value : Int)
  | string (value : List UInt8)
  deriving DecidableEq, Repr

structure FilterRec : Type where
  name : String
  operator : Operator
  value : FilterValue
  deriving DecidableEq, Repr

/-- How the fields of a record are read; `none` raises `FIELD_NOT_FOUND_EX`. A string is read
with all the bytes of its field. -/
structure Getters (R : Type) : Type where
  getNumericValue : NumericType → R → String → Option Int
  getStringValue : R → String → Option (List UInt8)

/-- What ends a call early. -/
inductive SearchStop
  | arrayOverflow | bufferOverflow | invalidParameter | noCurrentRecord | fieldNotFound
  /-- A field is copied past the end of the buffer of `checkCondition`. -/
  | outside
  /-- The search has moved more often than there are records. -/
  | endless
  deriving DecidableEq, Repr

structure DataSearcher : Type where
  myFilters : List FilterRec
  firstCall : Bool
  deriving DecidableEq, Repr

/-- `DS_MAX_FILTERS` -/
def dsMaxFilters : Nat := 5

/-- `DS_MAX_FIELD_SIZE` -/
def dsMaxFieldSize : Nat := 30

/-- `char buffer[100]` -/
def conditionBuffer : Nat := 100

namespace DataSearcher

variable {R : Type} (g : Getters R)

def clear : DataSearcher := ⟨[], true⟩

def addFilter (self : DataSearcher) (aFieldName anOperator : String) (aValue : FilterValue) :
    Except SearchStop DataSearcher :=
  if self.myFilters.length ≥ dsMaxFilters then .error .arrayOverflow
  else if aFieldName.utf8ByteSize > dsMaxFieldSize then .error .bufferOverflow
  else
    match Operator.ofText anOperator with
    | none => .error .invalidParameter
    | some operator =>
      .ok { self with myFilters := self.myFilters ++ [⟨aFieldName, operator, aValue⟩] }

def compareNumeric (aValue aToValue : Int) : Operator → Bool
  | .equal => aValue = aToValue
  | .notEqual => aValue ≠ aToValue
  | .less => aValue < aToValue
  | .great => aValue > aToValue
  | .greatEqual => aValue ≥ aToValue
  | .lessEqual => aValue ≤ aToValue

/-- One filter of `checkCondition`. -/
def checkFilter (current : FilterRec) (r : R) : Except SearchStop Bool :=
  match current.value with
  | .numeric dataType value =>
    match g.getNumericValue dataType r current.name with
    | none => .error .fieldNotFound
    | some stored => .ok (compareNumeric stored value current.operator)
  | .string value =>
    match g.getStringValue r current.name with
    | none => .error .fieldNotFound
    | some stored =>
      -- the copy is closed by a zero behind its bytes
      if stored.length ≥ conditionBuffer then .error .outside
      else if current.operator = .equal then .ok (sameText value stored)
      else if current.operator ≠ .equal then .ok (!sameText value stored)
      else .error .invalidParameter

def checkCondition : List FilterRec → Option R → Except SearchStop Bool
  | [], _ => .ok true
  | _ :: _, none => .error .noCurrentRecord
  | current :: filters, some r =>
    match checkFilter g current r with
    | .error e => .error e
    | .ok false => .ok false
    | .ok true => checkCondition filters (some r)

/-- The loop of `findNext`, which may move as often as there are records and once more. -/
def search (filters : List FilterRec) :
    Nat → AbstractRecordSet R → Except SearchStop (Bool × AbstractRecordSet R)
  | 0, _ => .error .endless
  | fuel + 1, myRecordSet =>
    let (ended, myRecordSet) := myRecordSet.eof
    if ended then .ok (false, myRecordSet)
    else
      match checkCondition g filters myRecordSet.getRecord with
      | .error e => .error e
      | .ok true => .ok (true, myRecordSet)
      | .ok false => search filters fuel myRecordSet.moveNext.2

end DataSearcher

structure FilteredRecordSet (R : Type) : Type where
  myRecordSet : AbstractRecordSet R
  myDataSearcher : DataSearcher

namespace FilteredRecordSet

variable {R : Type} (g : Getters R)

/-- `findNext` of the searcher -/
def moveNext (self : FilteredRecordSet R) : Except SearchStop (Bool × FilteredRecordSet R) :=
  let myRecordSet := if self.myDataSearcher.firstCall then self.myRecordSet.moveBeforeFirst.2
    else self.myRecordSet
  let myDataSearcher := { self.myDataSearcher with firstCall := false }
  let (moved, myRecordSet) := myRecordSet.moveNext
  if !moved then .ok (false, ⟨myRecordSet, myDataSearcher⟩)
  else
    (DataSearcher.search g myDataSearcher.myFilters (myRecordSet.records.length + 1)
      myRecordSet).map fun (found, myRecordSet) => (found, ⟨myRecordSet, myDataSearcher⟩)

/-- `find` of the searcher -/
def moveFirst (self : FilteredRecordSet R) : Except SearchStop (Bool × FilteredRecordSet R) :=
  moveNext g { self with myDataSearcher := { self.myDataSearcher with firstCall := true } }

def moveBeforeFirst (self : FilteredRecordSet R) :
    Except SearchStop (Bool × FilteredRecordSet R) :=
  .ok (false, { self with myRecordSet := self.myRecordSet.moveBeforeFirst.2 })

/-- The record the getters read. -/
def getRecord (self : FilteredRecordSet R) : Option R := self.myRecordSet.getRecord

/-! ## Searching -/

section searching

variable {g} {filters : List FilterRec} {all : List R}

/-- A search ends where the first record that passes is sought. -/
def Agrees (all : List R) (result : Except SearchStop (Bool × AbstractRecordSet R)) :
    Except SearchStop (Option (Option R × List (Option R))) → Prop
  | .error e => result = .error e
  | .ok none => ∃ rs, result = .ok (false, rs) ∧ rs.Ended all
  | .ok (some (a, behind)) => ∃ r rest rs, a = some r ∧ behind = rest.map some ∧
      result = .ok (true, rs) ∧ rs.Reached all r rest

theorem search_agrees {rest : List R} {fuel : Nat} {r : R} {rs : AbstractRecordSet R}
    (reached : rs.Reached all r rest) (enough : rest.length + 2 ≤ fuel) :
    Agrees all (DataSearcher.search g filters fuel rs)
      (seek (DataSearcher.checkCondition g filters) ((r :: rest).map some)) := by
  induction rest generalizing r rs fuel with
  | nil =>
    obtain ⟨fuel, rfl⟩ : ∃ left, fuel = left + 1 + 1 := ⟨fuel - 2, by simp at enough; omega⟩
    rcases reached.eof with ⟨more, reached⟩
    rw [DataSearcher.search, map_cons, map_nil, seek]
    simp only [more, Bool.false_eq_true, if_false, reached.2.2.1]
    cases DataSearcher.checkCondition g filters (some r) with
    | error e => rfl
    | ok passed =>
      cases passed with
      | true => exact ⟨r, [], _, rfl, rfl, rfl, reached⟩
      | false =>
        rcases reached.left.moveNext_nil with ⟨-, ended⟩
        rcases ended.eof with ⟨stopped, ended⟩
        refine ⟨_, ?_, ended⟩
        simp only [DataSearcher.search, stopped, if_true]
  | cons next rest ih =>
    obtain ⟨fuel, rfl⟩ : ∃ left, fuel = left + 1 := ⟨fuel - 1, by omega⟩
    rcases reached.eof with ⟨more, reached⟩
    rw [DataSearcher.search, map_cons, seek]
    simp only [more, Bool.false_eq_true, if_false, reached.2.2.1]
    cases DataSearcher.checkCondition g filters (some r) with
    | error e => rfl
    | ok passed =>
      cases passed with
      | true => exact ⟨r, next :: rest, _, rfl, rfl, rfl, reached⟩
      | false =>
        rw [length_cons] at enough
        exact ih reached.left.moveNext_cons.2 (by omega)

/-- What a filtered record set still has before it: after a first call the searcher starts
again. -/
def Ready (all : List R) (filters : List FilterRec) (items : List (Option R))
    (self : FilteredRecordSet R) : Prop :=
  self.myDataSearcher.myFilters = filters ∧ ∃ rest, items = rest.map some ∧
    if self.myDataSearcher.firstCall then
      self.myRecordSet.WellFormed ∧ self.myRecordSet.records = all ∧ rest = all
    else self.myRecordSet.Left all rest

theorem Ready.start {self : FilteredRecordSet R} (wf : self.myRecordSet.WellFormed)
    (same : self.myRecordSet.records = all) (first : self.myDataSearcher.firstCall = true) :
    Ready all self.myDataSearcher.myFilters (all.map some) self := by
  refine ⟨rfl, all, rfl, ?_⟩
  rw [if_pos first]
  exact ⟨wf, same, rfl⟩

theorem Ready.placed {items : List (Option R)} {self : FilteredRecordSet R}
    (ready : Ready all filters items self) : ∃ rest, items = rest.map some ∧
      (if self.myDataSearcher.firstCall then self.myRecordSet.moveBeforeFirst.2
        else self.myRecordSet).Left all rest := by
  rcases ready with ⟨-, rest, rfl, here⟩
  refine ⟨rest, rfl, ?_⟩
  split_ifs at here ⊢
  · rcases here with ⟨wf, rfl, rfl⟩
    exact AbstractRecordSet.left_moveBeforeFirst wf
  · exact here

theorem Ready.moveNext_agrees {items : List (Option R)} {self : FilteredRecordSet R}
    (ready : Ready all filters items self) :
    ∃ result, moveNext g self =
        result.map (fun found : Bool × AbstractRecordSet R =>
          (found.1, ⟨found.2, ⟨filters, false⟩⟩)) ∧
      Agrees all result (seek (DataSearcher.checkCondition g filters) items) := by
  rcases ready.placed with ⟨rest, rfl, here⟩
  rcases ready with ⟨rfl, -⟩
  rw [moveNext]
  generalize (if self.myDataSearcher.firstCall then self.myRecordSet.moveBeforeFirst.2
    else self.myRecordSet) = rs at here
  cases rest with
  | nil =>
    rcases here.moveNext_nil with ⟨stopped, ended⟩
    refine ⟨.ok (false, rs.moveNext.2), ?_, _, rfl, ended⟩
    simp only [stopped, Bool.not_false, if_true]
    rfl
  | cons r rest =>
    rcases here.moveNext_cons with ⟨moved, reached⟩
    refine ⟨DataSearcher.search g self.myDataSearcher.myFilters
      (rs.moveNext.2.records.length + 1) rs.moveNext.2, ?_, search_agrees reached ?_⟩
    · simp only [moved, Bool.not_true, Bool.false_eq_true, if_false]
    · rcases reached with ⟨-, rfl, -, k, -, there, rfl⟩
      have inside := (List.getElem?_eq_some_iff.1 there).1
      rw [length_drop]
      omega

theorem seeks : Seeks (DataSearcher.checkCondition g filters) (Ready all filters) (moveNext g)
    getRecord := by
  constructor
  · intro items self a behind ready sought
    rcases ready.moveNext_agrees (g := g) with ⟨result, moved, agrees⟩
    rw [sought] at agrees
    rcases agrees with ⟨r, rest, rs, rfl, rfl, rfl, reached⟩
    exact ⟨_, moved, reached.2.2.1, rfl, rest, rfl, reached.left⟩
  · intro items self ready sought
    rcases ready.moveNext_agrees (g := g) with ⟨result, moved, agrees⟩
    rw [sought] at agrees
    rcases agrees with ⟨rs, rfl, ended⟩
    exact ⟨_, moved, rfl, [], rfl, ended.left⟩
  · intro items self e ready sought
    rcases ready.moveNext_agrees (g := g) with ⟨result, moved, agrees⟩
    rw [sought] at agrees
    rw [moved, show result = .error e from agrees]
    rfl

end searching

end FilteredRecordSet

/-! ## Filters as they are given -/

/-- The arguments of an `addFilter` message. -/
structure FilterCall : Type where
  name : String
  operator : String
  value : FilterValue
  deriving DecidableEq, Repr

namespace FilterCall

variable {R : Type} (g : Getters R)

/-- The field of a record satisfies the filter. -/
def Satisfied (f : FilterCall) (r : R) : Bool :=
  match f.value with
  | .numeric dataType value =>
    (g.getNumericValue dataType r f.name).any fun stored =>
      (Operator.ofText f.operator).any (DataSearcher.compareNumeric stored value)
  | .string value =>
    (g.getStringValue r f.name).any fun stored =>
      (f.operator = "=" && sameText value stored) || (f.operator = "!=" && !sameText value stored)

/-- A numeric filter with a relational operator, or a string filter for equality or
inequality. -/
def Proper (f : FilterCall) : Prop :=
  match f.value with
  | .numeric _ _ => (Operator.ofText f.operator).isSome
  | .string _ => f.operator = "=" ∨ f.operator = "!="

instance (f : FilterCall) : Decidable f.Proper := by
  unfold Proper
  cases f.value <;> infer_instance

/-- The field exists, and a string field has room in the buffer. -/
def Readable (f : FilterCall) (r : R) : Prop :=
  match f.value with
  | .numeric dataType _ => (g.getNumericValue dataType r f.name).isSome
  | .string _ => ∃ stored, g.getStringValue r f.name = some stored ∧
      stored.length < conditionBuffer

/-- The fields of the filters that are looked at, up to the first one not satisfied. -/
def AllReadable : List FilterCall → R → Prop
  | [], _ => True
  | f :: fs, r => f.Readable g r ∧ (f.Satisfied g r = true → AllReadable fs r)

/-- The searcher takes the name of the field. -/
def Short (f : FilterCall) : Prop := f.name.utf8ByteSize ≤ dsMaxFieldSize

instance (f : FilterCall) : Decidable f.Short := inferInstanceAs (Decidable (_ ≤ _))

/-- The searcher has room for the filter, and refuses its operator. -/
def Refused (fs : List FilterCall) : Prop :=
  ∃ before f after, fs = before ++ f :: after ∧ before.length < dsMaxFilters ∧ f.Short ∧
    Operator.ofText f.operator = none ∧
    ∀ b ∈ before, b.Short ∧ (Operator.ofText b.operator).isSome

/-- The searcher takes the filters, and can read what it looks at. -/
def Served (fs : List FilterCall) (records : List R) : Prop :=
  fs.length ≤ dsMaxFilters ∧ (∀ f ∈ fs, f.Short ∧ f.Proper) ∧ ∀ r ∈ records, AllReadable g fs r

end FilterCall

/-! ## Adding the filters -/

/-- The record of a filter whose operator is known. -/
def FilterCall.record? (f : FilterCall) : Option FilterRec :=
  (Operator.ofText f.operator).map fun operator => ⟨f.name, operator, f.value⟩

namespace DataSearcher

def addCall (self : DataSearcher) (f : FilterCall) : Except SearchStop DataSearcher :=
  self.addFilter f.name f.operator f.value

/-- The filters of a searcher that is cleared. -/
def addFilters (fs : List FilterCall) : Except SearchStop DataSearcher := fs.foldlM addCall clear

theorem addCall_of_taken {self : DataSearcher} {f : FilterCall}
    (room : self.myFilters.length < dsMaxFilters) (short : f.Short)
    (known : (Operator.ofText f.operator).isSome) :
    self.addCall f = .ok { self with myFilters := self.myFilters ++ f.record?.toList } := by
  obtain ⟨operator, text⟩ := Option.isSome_iff_exists.1 known
  rw [addCall, addFilter, if_neg (Nat.not_le.2 room), if_neg (Nat.not_lt.2 short),
    FilterCall.record?, text]
  rfl

theorem foldlM_addCall {self : DataSearcher} {fs : List FilterCall}
    (room : self.myFilters.length + fs.length ≤ dsMaxFilters)
    (taken : ∀ f ∈ fs, f.Short ∧ (Operator.ofText f.operator).isSome) :
    fs.foldlM addCall self =
      .ok { self with myFilters := self.myFilters ++ fs.filterMap FilterCall.record? } := by
  induction fs generalizing self with
  | nil =>
    rw [filterMap_nil, append_nil]
    rfl
  | cons f fs ih =>
    rw [length_cons] at room
    rcases taken f mem_cons_self with ⟨short, known⟩
    have one : f.record?.toList.length = 1 := by
      obtain ⟨operator, text⟩ := Option.isSome_iff_exists.1 known
      rw [FilterCall.record?, text]
      rfl
    rw [foldlM_cons, addCall_of_taken (by omega) short known]
    refine (ih ?_ fun f member => taken f (mem_cons_of_mem _ member)).trans ?_
    · rw [length_append, one]
      omega
    · rw [append_assoc]
      cases record : f.record? with
      | none =>
        rw [record] at one
        cases one
      | some added =>
        rw [filterMap_cons_some record, Option.toList_some, singleton_append]

theorem foldlM_addCall_cases (self : DataSearcher) (fs : List FilterCall) :
    ((∀ f ∈ fs, f.Short ∧ (Operator.ofText f.operator).isSome) ∧
        (fs ≠ [] → self.myFilters.length + fs.length ≤ dsMaxFilters)) ∨
      ∃ e, fs.foldlM addCall self = .error e ∧
        (e = .invalidParameter → ∃ before f after, fs = before ++ f :: after ∧
          self.myFilters.length + before.length < dsMaxFilters ∧ f.Short ∧
          Operator.ofText f.operator = none ∧
          ∀ b ∈ before, b.Short ∧ (Operator.ofText b.operator).isSome) := by
  induction fs generalizing self with
  | nil => exact .inl ⟨forall_mem_nil _, fun some => absurd rfl some⟩
  | cons f fs ih =>
    rw [foldlM_cons]
    by_cases room : self.myFilters.length < dsMaxFilters
    · by_cases short : f.Short
      · cases text : Operator.ofText f.operator with
        | none =>
          refine .inr ⟨.invalidParameter, ?_, fun _ =>
            ⟨[], f, fs, rfl, room, short, text, forall_mem_nil _⟩⟩
          rw [addCall, addFilter, if_neg (Nat.not_le.2 room), if_neg (Nat.not_lt.2 short), text]
          rfl
        | some operator =>
          have known : (Operator.ofText f.operator).isSome := text ▸ rfl
          rw [addCall_of_taken room short known]
          have added : f.record?.toList.length = 1 := by
            rw [FilterCall.record?, text]
            rfl
          rcases ih { self with myFilters := self.myFilters ++ f.record?.toList } with
            ⟨taken, fits⟩ | ⟨e, failed, fault⟩
          · refine .inl ⟨forall_mem_cons.2 ⟨⟨short, known⟩, taken⟩, fun _ => ?_⟩
            rw [length_append, added] at fits
            rw [length_cons]
            cases fs with
            | nil => exact room
            | cons next fs =>
              have fits := fits (cons_ne_nil _ _)
              omega
          · refine .inr ⟨e, failed, fun invalid => ?_⟩
            rcases fault invalid with ⟨before, last, after, rfl, room', short', none, taken⟩
            rw [length_append, added] at room'
            refine ⟨f :: before, last, after, rfl, ?_, short', none,
              forall_mem_cons.2 ⟨⟨short, known⟩, taken⟩⟩
            rw [length_cons]
            omega
      · refine .inr ⟨.bufferOverflow, ?_, fun other => by cases other⟩
        rw [addCall, addFilter, if_neg (Nat.not_le.2 room), if_pos (Nat.lt_of_not_le short)]
        rfl
    · refine .inr ⟨.arrayOverflow, ?_, fun other => by cases other⟩
      rw [addCall, addFilter, if_pos (Nat.le_of_not_lt room)]
      rfl

/-- The exception for an operator is raised if and only if the first filter that is not taken
has an unknown one. -/
theorem addFilters_invalid_iff (fs : List FilterCall) :
    addFilters fs = .error .invalidParameter ↔ FilterCall.Refused fs := by
  constructor
  · intro failed
    rcases foldlM_addCall_cases clear fs with ⟨taken, fits⟩ | ⟨e, why, fault⟩
    · have room : (clear.myFilters.length + fs.length) ≤ dsMaxFilters := by
        by_cases none : fs = []
        · subst none
          exact Nat.zero_le _
        · exact fits none
      rw [addFilters, foldlM_addCall room taken] at failed
      cases failed
    · rw [addFilters, why] at failed
      rcases fault (Except.error.inj failed) with ⟨before, f, after, rfl, room, rest⟩
      exact ⟨before, f, after, rfl, by simpa [clear] using room, rest⟩
  · rintro ⟨before, f, after, rfl, room, short, none, taken⟩
    have start : clear.myFilters.length + before.length ≤ dsMaxFilters := by
      simpa [clear] using Nat.le_of_lt room
    have count : (before.filterMap FilterCall.record?).length ≤ before.length :=
      List.length_filterMap_le _ _
    rw [addFilters, foldlM_append, foldlM_addCall start taken]
    change ((DataSearcher.addCall _ f).bind fun self => after.foldlM addCall self) = _
    rw [addCall, addFilter, if_neg, if_neg (Nat.not_lt.2 short), none]
    · rfl
    · simp only [clear, nil_append]
      omega

end DataSearcher

/-! ## What a condition says -/

namespace FilterCall

variable {R : Type} {g : Getters R} {f : FilterCall} {record : FilterRec} {r : R}

theorem Proper.known (proper : f.Proper) : (Operator.ofText f.operator).isSome := by
  rw [Proper] at proper
  cases kind : f.value with
  | numeric dataType value =>
    rw [kind] at proper
    exact proper
  | string value =>
    rw [kind] at proper
    rcases proper with text | text <;> rw [text] <;> rfl

theorem record?_eq (proper : f.Proper) :
    ∃ operator, Operator.ofText f.operator = some operator ∧
      f.record? = some ⟨f.name, operator, f.value⟩ := by
  obtain ⟨operator, text⟩ := Option.isSome_iff_exists.1 proper.known
  exact ⟨operator, text, by rw [record?, text]; rfl⟩

theorem checkFilter_of_readable (proper : f.Proper) (given : f.record? = some record)
    (readable : f.Readable g r) :
    DataSearcher.checkFilter g record r = .ok (f.Satisfied g r) := by
  obtain ⟨operator, text, same⟩ := record?_eq proper
  obtain rfl := Option.some.inj (same.symm.trans given)
  rw [DataSearcher.checkFilter, Satisfied]
  rw [Proper] at proper
  rw [Readable] at readable
  cases kind : f.value with
  | numeric dataType value =>
    rw [kind] at readable
    obtain ⟨stored, read⟩ := Option.isSome_iff_exists.1 readable
    simp only [read, text, Option.any_some]
  | string value =>
    rw [kind] at proper readable
    rcases readable with ⟨stored, read, room⟩
    simp only [read, Option.any_some, if_neg (Nat.not_le.2 room)]
    rcases proper with equal | differ
    · rw [equal] at text ⊢
      obtain rfl : Operator.equal = operator := Option.some.inj text
      simp
    · rw [differ] at text ⊢
      obtain rfl : Operator.notEqual = operator := Option.some.inj text
      simp

theorem checkFilter_of_not_readable (given : f.record? = some record)
    (unreadable : ¬ f.Readable g r) : ∃ e, DataSearcher.checkFilter g record r = .error e := by
  obtain ⟨operator, -, rfl⟩ := Option.map_eq_some_iff.1 given
  rw [DataSearcher.checkFilter]
  rw [Readable] at unreadable
  cases kind : f.value with
  | numeric dataType value =>
    rw [kind] at unreadable
    simp only [Option.not_isSome_iff_eq_none.1 unreadable]
    exact ⟨_, rfl⟩
  | string value =>
    rw [kind] at unreadable
    cases read : g.getStringValue r f.name with
    | none => exact ⟨_, rfl⟩
    | some stored =>
      have long : stored.length ≥ conditionBuffer := by
        by_contra room
        exact unreadable ⟨stored, read, Nat.lt_of_not_le room⟩
      exact ⟨_, if_pos long⟩

end FilterCall

namespace DataSearcher

variable {R : Type} {g : Getters R} {r : R}

theorem checkFilter_ne_invalid (record : FilterRec) (r : R) :
    checkFilter g record r ≠ .error .invalidParameter := by
  rw [checkFilter]
  cases record.value with
  | numeric dataType value =>
    dsimp only
    cases g.getNumericValue dataType r record.name with
    | none => exact fun same => by cases same
    | some stored => exact fun same => by cases same
  | string value =>
    cases g.getStringValue r record.name with
    | none => exact fun same => by cases same
    | some stored =>
      dsimp only
      split_ifs <;> exact fun same => by cases same

theorem checkCondition_ne_invalid (filters : List FilterRec) (r : R) :
    checkCondition g filters (some r) ≠ .error .invalidParameter := by
  induction filters with
  | nil => exact fun same => by cases same
  | cons current filters ih =>
    rw [checkCondition]
    cases checked : checkFilter g current r with
    | error e => exact fun same => checkFilter_ne_invalid current r (checked.trans same)
    | ok passed =>
      cases passed with
      | true => exact ih
      | false => exact fun same => by cases same

theorem checkCondition_of_readable {fs : List FilterCall} (proper : ∀ f ∈ fs, f.Proper)
    (readable : FilterCall.AllReadable g fs r) :
    checkCondition g (fs.filterMap FilterCall.record?) (some r) =
      .ok (fs.all fun f => f.Satisfied g r) := by
  induction fs with
  | nil => rfl
  | cons f fs ih =>
    rcases forall_mem_cons.1 proper with ⟨first, proper⟩
    obtain ⟨operator, -, given⟩ := FilterCall.record?_eq first
    rw [filterMap_cons_some given, checkCondition,
      FilterCall.checkFilter_of_readable first given readable.1, all_cons]
    cases passed : f.Satisfied g r with
    | true => exact ih proper (readable.2 passed)
    | false => rfl

theorem checkCondition_of_not_readable {fs : List FilterCall} (proper : ∀ f ∈ fs, f.Proper)
    (unreadable : ¬ FilterCall.AllReadable g fs r) :
    ∃ e, checkCondition g (fs.filterMap FilterCall.record?) (some r) = .error e := by
  induction fs with
  | nil => exact absurd trivial unreadable
  | cons f fs ih =>
    rcases forall_mem_cons.1 proper with ⟨first, proper⟩
    obtain ⟨operator, -, given⟩ := FilterCall.record?_eq first
    rw [filterMap_cons_some given, checkCondition]
    by_cases readable : f.Readable g r
    · rw [FilterCall.checkFilter_of_readable first given readable]
      cases passed : f.Satisfied g r with
      | true =>
        have rest : ¬ FilterCall.AllReadable g fs r := fun all =>
          unreadable ⟨readable, fun _ => all⟩
        exact ih proper rest
      | false =>
        refine absurd ⟨readable, fun satisfied => ?_⟩ unreadable
        rw [passed] at satisfied
        cases satisfied
    · obtain ⟨e, failed⟩ := FilterCall.checkFilter_of_not_readable given readable
      rw [failed]
      exact ⟨e, rfl⟩

end DataSearcher

namespace FilteredRecordSet

variable {R : Type} (g : Getters R)

/-- Where an iteration starts. -/
inductive Start
  | moveFirst | moveBeforeFirst
  deriving DecidableEq, Repr

def start : Start → FilteredRecordSet R → Except SearchStop (Bool × FilteredRecordSet R)
  | .moveFirst => moveFirst g
  | .moveBeforeFirst => moveBeforeFirst

/-- The records that an iteration with some filters visits, wherever the record set was and
whether or not the searcher was called before. -/
def Iterates (fs : List FilterCall) (rs : AbstractRecordSet R) (firstCall : Bool) (from_ : Start)
    (result : Except SearchStop (List (Option R))) : Prop :=
  match DataSearcher.addFilters fs with
  | .error e => result = .error e
  | .ok searcher =>
    CollectsFrom (moveNext g) getRecord (start g from_)
      ⟨rs, { searcher with firstCall := firstCall }⟩ result

/-- The records that satisfy all filters, or the exception for an operator that the type of its
field does not have. -/
def wanted (fs : List FilterCall) (records : List R) : Except SearchStop (List (Option R)) :=
  if ∀ f ∈ fs, f.Proper then
    .ok ((records.filter fun r => fs.all fun f => f.Satisfied g r).map some)
  else .error .invalidParameter

/-! ## The iteration -/

variable {g} {fs : List FilterCall} {rs : AbstractRecordSet R}

theorem collects_sieve (wf : rs.WellFormed) {searcher : DataSearcher} (firstCall : Bool)
    (from_ : Start) :
    CollectsFrom (moveNext g) getRecord (start g from_)
      ⟨rs, { searcher with firstCall := firstCall }⟩
      (sieve (DataSearcher.checkCondition g searcher.myFilters) (rs.records.map some)) := by
  cases from_ with
  | moveFirst =>
    refine @Seeks.collectsFrom _ _ _ _ _ _ _ _ (@seeks R g searcher.myFilters rs.records) _ _ ?_
    exact ⟨_, rfl, Ready.start wf rfl rfl⟩
  | moveBeforeFirst =>
    refine .none rfl (@Seeks.collects _ _ _ _ _ _ _ _
      (@seeks R g searcher.myFilters rs.records) _ ⟨rfl, rs.records, rfl, ?_⟩)
    have same := AbstractRecordSet.same_moveBeforeFirst wf
    have before := AbstractRecordSet.left_moveBeforeFirst wf
    cases firstCall with
    | true => exact ⟨same.1, same.2, rfl⟩
    | false => exact before

theorem Iterates.unique {firstCall : Bool} {from_ : Start}
    {result result' : Except SearchStop (List (Option R))}
    (iterates : Iterates g fs rs firstCall from_ result)
    (iterates' : Iterates g fs rs firstCall from_ result') : result = result' := by
  rw [Iterates] at iterates iterates'
  cases added : DataSearcher.addFilters fs with
  | error e =>
    rw [added] at iterates iterates'
    exact iterates.trans iterates'.symm
  | ok searcher =>
    rw [added] at iterates iterates'
    exact iterates.unique iterates'

/-- **Filtered iteration**: an iteration visits the records that satisfy all filters, or raises
the exception for an operator of a string, if and only if the searcher takes the filters and
can read what it looks at, or refuses the operator when the filter is added. -/
theorem iterates_iff (g : Getters R) (fs : List FilterCall) (rs : AbstractRecordSet R)
    (firstCall : Bool) (wf : rs.WellFormed) :
    (∀ from_, Iterates g fs rs firstCall from_ (wanted g fs rs.records)) ↔
      FilterCall.Served g fs rs.records ∨ FilterCall.Refused fs := by
  constructor
  · intro visits
    have first := visits .moveFirst
    rw [Iterates] at first
    by_cases proper : ∀ f ∈ fs, f.Proper
    · rw [wanted, if_pos proper] at first
      rcases DataSearcher.foldlM_addCall_cases .clear fs with ⟨taken, fits⟩ | ⟨e, failed, -⟩
      · have room : fs.length ≤ dsMaxFilters := by
          by_cases none : fs = []
          · subst none
            exact Nat.zero_le _
          · simpa [DataSearcher.clear] using fits none
        refine .inl ⟨room, fun f member => ⟨(taken f member).1, proper f member⟩, ?_⟩
        by_contra unread
        obtain ⟨r, member, unreadable⟩ : ∃ r ∈ rs.records, ¬ FilterCall.AllReadable g fs r := by
          by_contra all
          exact unread fun r member => by_contra fun not => all ⟨r, member, not⟩
        obtain ⟨e, failed⟩ := DataSearcher.checkCondition_of_not_readable proper unreadable
        obtain ⟨e', sieved⟩ := sieve_eq_error (mem_map_of_mem member) failed
        have added := @DataSearcher.foldlM_addCall .clear fs (by simpa [DataSearcher.clear]) taken
        rw [DataSearcher.addFilters, added] at first
        have same := first.unique (collects_sieve wf firstCall .moveFirst)
        rw [show (DataSearcher.clear.myFilters ++ _) = _ from nil_append _] at same
        rw [sieved] at same
        cases same
      · rw [DataSearcher.addFilters, failed] at first
        cases first
    · rw [wanted, if_neg proper] at first
      cases added : DataSearcher.addFilters fs with
      | error e =>
        rw [added] at first
        obtain rfl := Except.error.inj first
        exact .inr ((DataSearcher.addFilters_invalid_iff fs).1 added)
      | ok searcher =>
        rw [added] at first
        have same := first.unique (collects_sieve wf firstCall .moveFirst)
        obtain ⟨a, member, failed⟩ := exists_of_sieve_eq_error same.symm
        obtain ⟨r, -, rfl⟩ := mem_map.1 member
        exact absurd failed (DataSearcher.checkCondition_ne_invalid _ r)
  · rintro (⟨room, taken, readable⟩ | refused) from_
    · have proper : ∀ f ∈ fs, f.Proper := fun f member => (taken f member).2
      have added := @DataSearcher.foldlM_addCall .clear fs (by simpa [DataSearcher.clear])
        fun f member => ⟨(taken f member).1, (proper f member).known⟩
      rw [Iterates, wanted, if_pos proper, DataSearcher.addFilters, added]
      have collects := @collects_sieve R g rs wf
        { DataSearcher.clear with myFilters := fs.filterMap FilterCall.record? } firstCall from_
      have checked : ∀ a ∈ rs.records.map some,
          DataSearcher.checkCondition g (fs.filterMap FilterCall.record?) a =
            .ok (a.any fun r => fs.all fun f => f.Satisfied g r) := by
        intro a member
        obtain ⟨r, there, rfl⟩ := mem_map.1 member
        exact DataSearcher.checkCondition_of_readable proper (readable r there)
      rw [sieve_eq_filter checked, filter_map] at collects
      exact collects
    · have improper : ¬ ∀ f ∈ fs, f.Proper := by
        rcases refused with ⟨before, f, after, rfl, -, -, unknown, -⟩
        intro proper
        have known := (proper f (by simp)).known
        rw [unknown] at known
        cases known
      rw [Iterates, wanted, if_neg improper, (DataSearcher.addFilters_invalid_iff fs).2 refused]

/-- Records that are numbers and are all called `A`. -/
def numbered : Getters Nat where
  getNumericValue _ r _ := some r
  getStringValue _ _ := some [65]

/-- The records of a query whose id is greater than one. -/
theorem iterates_greater : Iterates numbered [⟨"ID", ">", .numeric .long 1⟩]
    (.query [1, 2, 3] 2) false .moveFirst
    (wanted numbered [⟨"ID", ">", .numeric .long 1⟩] [1, 2, 3]) := by
  refine (iterates_iff numbered _ (.query [1, 2, 3] 2) false trivial).2
    (.inl ⟨by decide, ?_, ?_⟩) .moveFirst
  · intro f member
    rw [mem_singleton.1 member]
    exact ⟨by decide, by decide⟩
  · exact fun r _ => ⟨rfl, fun _ => trivial⟩

/-- A string filter with `<` raises nothing: it lets the other names pass. -/
theorem not_iterates :
    ¬ ∀ (g : Getters Nat) (fs : List FilterCall) (rs : AbstractRecordSet Nat) (firstCall : Bool),
      rs.WellFormed → ∀ from_, Iterates g fs rs firstCall from_ (wanted g fs rs.records) := by
  intro claim
  have visits := claim numbered [⟨"NAME", "<", .string [66]⟩] (.query [1] (-1)) true trivial
    .moveFirst
  have wf : (AbstractRecordSet.query [1] (-1)).WellFormed := trivial
  have collects := @collects_sieve Nat numbered _ wf
    ⟨[⟨"NAME", .less, .string [66]⟩], true⟩ true .moveFirst
  have same := visits.unique collects
  cases same

end FilteredRecordSet

end CimArm
