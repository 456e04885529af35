import CimArm.Cim.ZClose
import CimArm.Dao.DepositDAO
import CimArm.Db.Retention

/-!
# The data access object of closes

`ZCloseDAO` keeps Z closes and cash closes in one table, `zclose`, in the order in
which they were generated.  Everything it looks up it looks up from the last row
backwards; each lookup is `MultiPart.findLast` under a test of its own, and finds
the row that the list of the stored rows has.
-/

namespace CimArm

/-- A row of `zclose`. -/
structure ZCloseRecord : Type where
  number : Nat
  userId : Int
  fromDepositNumber : Nat
  toDepositNumber : Nat
  openTime : Nat
  closeTime : Nat
  rejectedQty : Int
  closeType : CloseType
  fromCloseNumber : Nat
  toCloseNumber : Nat
  cimCashId : Int
  deriving DecidableEq, Repr

def ZCloseRecord.blank : ZCloseRecord := ⟨0, 0, 0, 0, 0, 0, 0, .endOfDay, 0, 0, 0⟩

/-- The row of a close. The user and the cash are set only when there is one. -/
def ZCloseRecord.ofClose (anObject : ZClose) : ZCloseRecord where
  number := toULong anObject.number
  userId := toLong (idOf (·.userId) anObject.user)
  fromDepositNumber := toULong anObject.fromDepositNumber
  toDepositNumber := toULong anObject.toDepositNumber
  openTime := toULong anObject.openTime
  closeTime := toULong anObject.closeTime
  rejectedQty := toShort anObject.rejectedQty
  closeType := anObject.closeType
  fromCloseNumber := toULong anObject.fromCloseNumber
  toCloseNumber := toULong anObject.toCloseNumber
  cimCashId := toShort (idOf (·.cimCashId) anObject.cimCash)

/-- How the table is configured. -/
structure ZCloseTable : Type where
  recordsByFile : Option Nat
  maxFiles : Nat
  two_le : 2 ≤ maxFiles

theorem ZCloseTable.two_le_shipped : 2 ≤ 2 := Nat.le_refl 2

/-- The configuration the program is shipped with. -/
def ZCloseTable.shipped : ZCloseTable := ⟨some 300, 2, two_le_shipped⟩

/-- `zclose`, opened with `CLOSE_TIME` as date and `NUMBER` as id. -/
def ZCloseTable.schema (table : ZCloseTable) : MultiPartSchema ZCloseRecord where
  blank := .blank
  autoIncField := none
  idField := ⟨4, (·.number)⟩
  dateField := some (·.closeTime)
  maxRecordCount := table.recordsByFile
  maxFiles := table.maxFiles
  id_kept _ := .inl rfl
  id_read h := nomatch h
  id_write h := nomatch h
  date_write h := nomatch h

/-- `myZCloseRS` -/
abbrev ZCloseDAO := MultiPart ZCloseRecord

namespace ZCloseDAO

open MultiPart

variable (table : ZCloseTable) (registry : Registry) (self : ZCloseDAO)

def store (anObject : ZClose) : ZCloseDAO :=
  (MultiPart.store table.schema self (.ofClose anObject)).2

/-- The close of a row, without its details. -/
def getZCloseFromRecordSet (aZCloseRS : ZCloseRecord) : ZClose :=
  { ZClose.new with
    number := aZCloseRS.number
    fromDepositNumber := aZCloseRS.fromDepositNumber
    toDepositNumber := aZCloseRS.toDepositNumber
    openTime := aZCloseRS.openTime
    closeTime := aZCloseRS.closeTime
    rejectedQty := aZCloseRS.rejectedQty
    user := if aZCloseRS.userId > 0 then registry.getUserFromCompleteList aZCloseRS.userId
      else none
    closeType := aZCloseRS.closeType
    fromCloseNumber := aZCloseRS.fromCloseNumber
    toCloseNumber := aZCloseRS.toCloseNumber
    cimCash := if aZCloseRS.cimCashId > 0 then registry.getCimCashById aZCloseRS.cimCashId
      else none }

/-! ## The tests of the lookups -/

def isZClose (r : ZCloseRecord) : Bool := r.closeType = .endOfDay

def isCashClose (r : ZCloseRecord) : Bool := r.closeType = .cashClose

/-- A Z close in which deposits were made. -/
def isZCloseWithDeposits (r : ZCloseRecord) : Bool :=
  r.fromDepositNumber > 0 ∧ r.toDepositNumber > 0 ∧ r.closeType = .endOfDay

/-- A close of a cash. -/
def isCloseOfCash (aCimCashId : Int) (r : ZCloseRecord) : Bool :=
  r.cimCashId = aCimCashId ∧ r.closeType = .cashClose

def loadLastWithDeposits : Option ZClose × ZCloseDAO :=
  let (row, self) := self.findLast table.schema (accept isZCloseWithDeposits)
  (row.map (getZCloseFromRecordSet registry), self)

def loadLastCashClose (aCimCashId : Int) : Option ZClose × ZCloseDAO :=
  let (row, self) := self.findLast table.schema (accept (isCloseOfCash aCimCashId))
  (row.map (getZCloseFromRecordSet registry), self)

def getLastZCloseNumber : Nat × ZCloseDAO :=
  let (row, self) := self.findLast table.schema (accept isZClose)
  ((row.map (·.number)).getD 0, self)

def getLastCashCloseNumber : Nat × ZCloseDAO :=
  let (row, self) := self.findLast table.schema (accept isCashClose)
  ((row.map (·.number)).getD 0, self)

def getLastZCloseCloseTime : Nat × ZCloseDAO :=
  let (row, self) := self.findLast table.schema (accept isZClose)
  ((row.map (·.closeTime)).getD 0, self)

end ZCloseDAO

end CimArm
