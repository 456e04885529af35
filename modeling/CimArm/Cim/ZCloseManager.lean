import CimArm.Dao.ZCloseDAO

/-!
# The manager of closes

`ZCloseManager` keeps one open Z close and one open cash close for every cash.  An ended
deposit is added to them (`processDeposit`); a cash close and a Z close are stored and
printed and followed by a new one (`generateCashCloseForDoor`, `generateZClose`); at
the boot the open closes are rebuilt from the stored deposits and closes (`loadCloses`).

Printing, also of a stored close again, the audits, the extractions and the recovery of a
deposit that a power failure interrupted are not modelled.
-/

namespace CimArm

open MultiPart

/-- The configuration of a device. The cashes are registered under identifiers that fit
their fields, each under one of its own. -/
structure CloseSite : Type where
  tables : DepositTables
  closes : ZCloseTable
  registry : Registry
  cimCashs : List CimCash
  distinct : (cimCashs.map (·.cimCashId)).Nodup
  fits : ∀ cash ∈ cimCashs, 0 < cash.cimCashId ∧ cash.cimCashId < 2 ^ 15
  registered : ∀ cash ∈ cimCashs, registry.getCimCashById cash.cimCashId = some cash

structure ZCloseManager : Type where
  lastZCloseTime : Nat
  lastZCloseNumber : Nat
  lastCashCloseNumber : Nat
  currentZClose : ZClose
  currentCashCloses : List ZClose
  deriving DecidableEq, Repr

/-- The managers of deposits and closes with their tables. -/
structure CloseMachine : Type where
  depositDAO : DepositDAO
  zCloseDAO : ZCloseDAO
  lastDepositNumber : Nat
  manager : ZCloseManager

/-- What a detail of an ended deposit adds to the Z close. -/
def ZCall.ofDeposit (aDeposit : Deposit) (depositDetail : DepositDetail) : ZCall where
  user := aDeposit.user
  door := aDeposit.door
  cimCash := aDeposit.cimCash
  cashReference := aDeposit.cashReference
  acceptorSettings := depositDetail.acceptorSettings
  depositValueType := depositDetail.depositValueType
  currency := depositDetail.currency
  qty := depositDetail.qty
  amount := depositDetail.amount

/-- What a detail of an ended deposit adds to the close of its cash. -/
def CashCall.ofDeposit (aDeposit : Deposit) (depositDetail : DepositDetail) : CashCall where
  cimCash := aDeposit.cimCash
  acceptorSettings := depositDetail.acceptorSettings
  depositValueType := .manualCash
  currency := depositDetail.currency
  qty := depositDetail.qty
  amount := depositDetail.getTotalAmount

namespace ZCloseManager

/-! ## Ended deposits -/

/-- Take the number of a deposit into the range of a close. -/
def takeNumber (number : Nat) (close : ZClose) : ZClose :=
  { close with
    fromDepositNumber := if close.fromDepositNumber = 0 then number else close.fromDepositNumber
    toDepositNumber := number }

/-- Change the open close of a cash, the first one that is of it. -/
def updateCashClose (aCimCash : Option CimCash) (change : ZClose → ZClose) :
    List ZClose → List ZClose
  | [] => []
  | close :: closes =>
    if close.cimCash = aCimCash then change close :: closes
    else close :: updateCashClose aCimCash change closes

def processDetail (aDeposit : Deposit) (self : ZCloseManager) (depositDetail : DepositDetail) :
    ZCloseManager :=
  { self with
    currentZClose := self.currentZClose.addZCloseDetail (.ofDeposit aDeposit depositDetail)
    currentCashCloses := updateCashClose aDeposit.cimCash
      (·.addCashCloseDetail (.ofDeposit aDeposit depositDetail)) self.currentCashCloses }

/-- Add an ended deposit. The range of every cash close goes on, whatever its cash. -/
def processDeposit (self : ZCloseManager) (aDeposit : Deposit) : ZCloseManager :=
  let self := { self with
    currentZClose := takeNumber aDeposit.number
      (self.currentZClose.addRejectedQty aDeposit.rejectedQty)
    currentCashCloses := self.currentCashCloses.map (takeNumber aDeposit.number) }
  aDeposit.depositDetails.foldl (processDetail aDeposit) self

end ZCloseManager

namespace CloseMachine

open ZCloseManager

variable (site : CloseSite) (self : CloseMachine)

/-- `DepositManager.endDeposit`: a deposit that has a value gets its number, is stored and
is added to the closes. -/
def endDeposit (aDeposit : Deposit) (nextDepositNumber closeTime : Nat) :
    Option Deposit × CloseMachine :=
  if aDeposit.getQty > 0 then
    let lastDepositNumber := if nextDepositNumber > self.lastDepositNumber
      then nextDepositNumber - 1 else self.lastDepositNumber
    let aDeposit := { aDeposit with
      number := toULong (lastDepositNumber + 1), closeTime := closeTime }
    (some aDeposit, { self with
      depositDAO := self.depositDAO.store site.tables aDeposit
      lastDepositNumber := aDeposit.number
      manager := self.manager.processDeposit aDeposit })
  else (none, self)

/-! ## Generating closes -/

/-- The close that follows a cash close. -/
def nextCashClose (aCashClose : ZClose) (now : Nat) : ZClose :=
  { ZClose.new with
    fromDepositNumber := if aCashClose.toDepositNumber = 0 then aCashClose.fromDepositNumber
      else toULong (aCashClose.toDepositNumber + 1)
    cimCash := aCashClose.cimCash
    closeType := .cashClose
    openTime := if aCashClose.closeTime = 0 then now else aCashClose.closeTime }

/-- Number, store and print a cash close. -/
def generateCashClose (aUser : Option User) (aCloseTime : Nat) (aCashClose : ZClose) :
    ZClose × CloseMachine :=
  let zClose := self.manager.currentZClose
  let number := toULong (self.manager.lastCashCloseNumber + 1)
  let aCashClose := { aCashClose with
    closeTime := aCloseTime
    number := number
    user := aUser
    parentNumber := if zClose.closeTime > 0 then zClose.number else aCashClose.parentNumber
    parentCloseTime := zClose.closeTime }
  (aCashClose, { self with
    zCloseDAO := self.zCloseDAO.store site.closes aCashClose
    manager := { self.manager with lastCashCloseNumber := number } })

/-- The loop that generates the wanted ones of the open cash closes and puts a new one in
the place of each. The results are the closes generated and those open afterwards. -/
def generateCashCloses (wanted : ZClose → Bool) (aUser : Option User) (aCloseTime now : Nat) :
    List ZClose → CloseMachine → List ZClose × List ZClose × CloseMachine
  | [], self => ([], [], self)
  | close :: closes, self =>
    if wanted close then
      let (closed, self) := self.generateCashClose site aUser aCloseTime close
      let (printed, current, self) :=
        generateCashCloses wanted aUser aCloseTime now closes self
      (closed :: printed, nextCashClose closed now :: current, self)
    else
      let (printed, current, self) :=
        generateCashCloses wanted aUser aCloseTime now closes self
      (printed, close :: current, self)

/-- Generate the wanted cash closes. -/
def closeCashs (wanted : ZClose → Bool) (aUser : Option User) (aCloseTime now : Nat) :
    List ZClose × CloseMachine :=
  let (printed, current, self) := generateCashCloses site wanted aUser aCloseTime now
    self.manager.currentCashCloses self
  (printed, { self with manager := { self.manager with currentCashCloses := current } })

/-- A close of a cash behind a door. -/
def behindDoor (aDoor : Option Door) (close : ZClose) : Bool :=
  (close.cimCash.bind (·.door)) = aDoor

def generateCashClosesForAllCashs (aCloseTime now : Nat) : List ZClose × CloseMachine :=
  self.closeCashs site (fun _ => true) self.manager.currentZClose.user aCloseTime now

def generateCashCloseForDoor (aDoor : Option Door) (aUser : Option User) (closeTime now : Nat) :
    List ZClose × CloseMachine :=
  self.closeCashs site (behindDoor aDoor) aUser closeTime now

/-- Generate the cash closes of all cashes and the Z close, and open the next Z close. -/
def generateZClose (user : Option User) (closeTime now nextZNumber : Nat) :
    List ZClose × CloseMachine :=
  let self := { self with manager := { self.manager with
    currentZClose := { self.manager.currentZClose with user := user, closeTime := closeTime }
    lastZCloseTime := closeTime } }
  let (printed, self) := self.generateCashClosesForAllCashs site closeTime now
  let toCloseNumber := self.manager.lastCashCloseNumber
  let zClose := { self.manager.currentZClose with toCloseNumber := toCloseNumber }
  let lastZCloseNumber := if nextZNumber > zClose.number then nextZNumber - 1 else zClose.number
  (printed ++ [zClose], { self with
    zCloseDAO := self.zCloseDAO.store site.closes zClose
    manager := { self.manager with
      lastZCloseNumber := lastZCloseNumber
      currentZClose := { ZClose.new with
        number := toULong (lastZCloseNumber + 1)
        openTime := closeTime
        fromCloseNumber := toULong (toCloseNumber + 1) } } })

/-! ## Loading closes -/

/-- The Z close that goes on after the last stored one, still without deposits. -/
def loadCurrentZClose (lastZCloseNumber lastZCloseCloseTime : Nat) (lastZClose : Option ZClose) :
    ZClose :=
  { ZClose.new with
    number := toULong (lastZCloseNumber + 1)
    openTime := lastZCloseCloseTime
    fromCloseNumber := match lastZClose with
      | some lastZClose => toULong (lastZClose.toCloseNumber + 1)
      | none => 1
    fromDepositNumber := match lastZClose with
      | some lastZClose =>
        if lastZClose.toDepositNumber > 0 then toULong (lastZClose.toDepositNumber + 1) else 1
      | none => 1 }

/-- The cash closes that go on after the last stored ones. One variable holds the number
they begin with; for a cash without a stored close it still has the value that the
cash before it left. -/
def loadCurrentCashCloses (now : Nat) : List CimCash → Nat → ZCloseDAO → List ZClose × ZCloseDAO
  | [], _, zCloseDAO => ([], zCloseDAO)
  | cimCash :: cimCashs, fromDepositNumber, zCloseDAO =>
    let (lastCashClose, zCloseDAO) :=
      zCloseDAO.loadLastCashClose site.closes site.registry cimCash.cimCashId
    let fromDepositNumber := match lastCashClose with
      | some lastCashClose =>
        if lastCashClose.toDepositNumber ≠ 0 then toULong (lastCashClose.toDepositNumber + 1)
        else lastCashClose.fromDepositNumber
      | none => fromDepositNumber
    let cashClose := { ZClose.new with
      openTime := match lastCashClose with
        | some lastCashClose => lastCashClose.closeTime
        | none => now
      fromDepositNumber := fromDepositNumber
      cimCash := some cimCash
      closeType := .cashClose }
    let (closes, zCloseDAO) := loadCurrentCashCloses now cimCashs fromDepositNumber zCloseDAO
    (cashClose :: closes, zCloseDAO)

/-- The deposit number where the replay begins to look. -/
def firstDepositNumber (closes : List ZClose) : Nat :=
  closes.foldl (fun number close =>
    if close.fromDepositNumber < number then close.fromDepositNumber else number) 1

/-- A record set of its own on the deposits. -/
def getNewDepositRecordSet : MultiPart DepositRecord :=
  MultiPart.open site.tables.headers self.depositDAO.deposits.parts
    self.depositDAO.deposits.indexTable

/-- A record set of its own on the deposit details. -/
def getNewDepositDetailRecordSet : MultiPart DepositDetailRecord :=
  MultiPart.open site.tables.details self.depositDAO.details.parts
    self.depositDAO.details.indexTable

/-- `updateDepositData` and `updateDepositDetailsData` for each deposit row. -/
def replayAll (registry : Registry) : Walk DepositRecord DepositDetailRecord (List ZClose) where
  stop _ := false
  wanted _ := true
  onHeader closes r := closes.map (·.updateDepData r)
  onLine r closes line := closes.map fun close => close.updateDepDetData registry r line

/-- Run a loop over the deposits from the current one on, and their details. -/
def walkDeposits {σ : Type} (w : Walk DepositRecord DepositDetailRecord σ) (state : σ)
    (depositRS : MultiPart DepositRecord) : σ :=
  walk site.tables.headers site.tables.details w (depositRS.stored.length + 1) state depositRS
    ((self.getNewDepositDetailRecordSet site).moveFirst site.tables.details).2

/-- The closes after a replay become the open ones. -/
def keepCurrent (manager : ZCloseManager) (close : ZClose) : ZCloseManager :=
  match close.closeType with
  | .endOfDay => { manager with currentZClose := close }
  | .cashClose => { manager with currentCashCloses := manager.currentCashCloses ++ [close] }

def loadCloses (nextZNumber now : Nat) : CloseMachine :=
  let (lastZCloseCloseTime, zCloseDAO) := self.zCloseDAO.getLastZCloseCloseTime site.closes
  let (lastZClose, zCloseDAO) := zCloseDAO.loadLastWithDeposits site.closes site.registry
  let lastZCloseNumber := if nextZNumber > self.manager.lastZCloseNumber then nextZNumber - 1
    else self.manager.lastZCloseNumber
  let zClose := loadCurrentZClose lastZCloseNumber lastZCloseCloseTime lastZClose
  let (cashCloses, zCloseDAO) := loadCurrentCashCloses site now site.cimCashs 1 zCloseDAO
  let closes := cashCloses ++ [zClose]
  let (hasDeposit, depositRS) := (self.getNewDepositRecordSet site).findById site.tables.headers
    site.tables.headers.idField (firstDepositNumber closes)
  let depositRS := if hasDeposit then depositRS else (depositRS.moveFirst site.tables.headers).2
  let closes := self.walkDeposits site (replayAll site.registry) closes depositRS
  { self with
    zCloseDAO := zCloseDAO
    manager := closes.foldl keepCurrent { self.manager with
      lastZCloseTime := lastZCloseCloseTime
      lastZCloseNumber := lastZCloseNumber
      currentZClose := zClose
      currentCashCloses := [] } }

/-- The boot: the tables are opened, the last numbers are read and the closes loaded. -/
def boot (nextDepositNumber nextZNumber now : Nat) : CloseMachine :=
  let depositDAO := self.depositDAO.reopen site.tables
  let zCloseDAO := self.zCloseDAO.reopen site.closes.schema
  let (found, deposits) := depositDAO.deposits.moveLast site.tables.headers
  let lastDepositNumber := if found then deposits.data.buffer.number else 0
  let (lastZCloseNumber, zCloseDAO) := ZCloseDAO.getLastZCloseNumber site.closes zCloseDAO
  let (lastCashCloseNumber, zCloseDAO) := ZCloseDAO.getLastCashCloseNumber site.closes zCloseDAO
  let self : CloseMachine :=
    { depositDAO := { depositDAO with deposits := deposits }
      zCloseDAO := zCloseDAO
      lastDepositNumber := if nextDepositNumber > lastDepositNumber then nextDepositNumber - 1
        else lastDepositNumber
      manager := ⟨0, lastZCloseNumber, lastCashCloseNumber, .new, []⟩ }
  self.loadCloses site nextZNumber now

/-- The tables of an empty database, before the boot. -/
def created : CloseMachine where
  depositDAO := .created site.tables
  zCloseDAO := .created site.closes.schema
  lastDepositNumber := 0
  manager := ⟨0, 0, 0, .new, []⟩

end CloseMachine

end CimArm
