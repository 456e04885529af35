import CimArm.Device.JcmBillAcceptorMgr
import CimArm.System.StateMachine
import Mathlib.Data.Int.ModEq

/-!
# The driver of an MEI validator

The driver hands the state that a status frame reports to its state machine, whose actions
note bills in escrow and bills stacked in the status file and tell the application of the
latter.

Acknowledge bits are left to the model of the poll, and so is everything that the driver
tells the application apart from accepted bills.  An answer that an action or a guard of
the machine reads is handled by a step of its own, after the action.

* `execute_powerUp`, `execute_notify`: what the report of a stacked bill does.
* `execute_books`: what any other event does to the file and the bills told.
-/

namespace CimArm.MeiStateMachine

open Engine Jcm List

/-! ## The driver -/

/-- An answer of the validator: its type, its data and their length, and the amount and
currency of its bill record where the record has a country. -/
structure Answer : Type where
  msjTypeAnsw : UInt8
  dataEvPtr : List UInt8
  dataLenEvt : Int
  assignment : Option (Int × Int)

namespace Answer

def stat (self : Answer) (at_ : Nat) : UInt8 := self.dataEvPtr.getD at_ 0

/-- The state a status frame reports.  A stacked bill without its record is ignored. -/
def newState (self : Answer) : Code :=
  if self.stat 0 &&& 0x10 ≠ 0 ∧ self.dataLenEvt > 8 then .ID003_STACKED
  else if self.stat 0 &&& 0x04 ≠ 0 then .ID003_ESCROW
  else if self.stat 0 &&& 0x02 ≠ 0 then .ID003_ACCEPTING
  else if self.stat 0 &&& 0x08 ≠ 0 then .ID003_STACKING
  else if self.stat 0 &&& 0x20 ≠ 0 then .ID003_RETURNING
  else if self.stat 0 &&& 0x40 ≠ 0 then .ID003_RETURNED
  else if self.stat 0 &&& 0x01 ≠ 0 then .ID003_IDLING
  else .ID003_FAILURE

def errorCause (self : Answer) : Code :=
  if self.stat 1 &&& 0x01 ≠ 0 then .ID003_CHEATED
  else if self.stat 1 &&& 0x02 ≠ 0 then .ID003_REJECTING
  else if self.stat 1 &&& 0x04 ≠ 0 then .ID003_JAM_IN_ACCEPTOR
  else if self.stat 1 &&& 0x08 ≠ 0 then .ID003_STACKER_FULL
  else if self.stat 1 &&& 0x10 = 0 then .ID003_STACKER_OPEN
  else if self.stat 1 &&& 0x20 ≠ 0 then .ID003_PAUSE
  else if self.stat 2 &&& 0x04 ≠ 0 then .ID003_FAILURE
  else .zero

def processCurrencyAssignmentMei (self : Answer) : Int × Int :=
  if self.dataLenEvt > 8 then self.assignment.getD (0, 0) else (0, 0)

end Answer

structure Denomination : Type where
  amount : Int
  currencyId : Int
  disabled : Bool
deriving DecidableEq

/-- What the driver asks of the validator. -/
inductive Sent
  | stackCmd | returnCmd | requestCurrency | requestVersion | downloadStart | transfer
deriving DecidableEq, Repr

/-- The fields of the validator's record that the machine reads or writes, with the file
behind `fpValStat`, the answer being handled and whether a frame of a firmware transfer is
answered.  `billAccepted` are the bills told to the application and not yet taken up. -/
structure JcmBillAcceptData : Type where
  status : JcmStatus
  canChangeStatus : Bool
  actualState : Code
  errorCause : Code
  onPowerUp : Bool
  commErrQty : UInt8
  billDepositQty : Int
  fileInfoRequested : Bool
  statusFiledReseted : Bool
  notifyInitApp : Bool
  downloadMode : Bool
  billTableLoaded : Bool
  /-- The length of the version's text. -/
  jcmVersion : Int
  convertionTable : List Denomination
  answer : Answer
  transferAnswered : Bool
  fpValStat : TempValInfo
  sent : List Sent
  billAccepted : List Credit

namespace JcmBillAcceptData

def setValStatus (self : JcmBillAcceptData) (newStatus : Code) (billQty amount currencyId : Int) :
    JcmBillAcceptData :=
  { self with fpValStat := ⟨newStatus, billQty, amount, currencyId⟩ }

def send (self : JcmBillAcceptData) (cmd : Sent) : JcmBillAcceptData :=
  { self with sent := self.sent ++ [cmd] }

/-- `billAcceptNotificationFcn`. -/
def notify (self : JcmBillAcceptData) (amountChar currencyId : Int) : JcmBillAcceptData :=
  { self with billAccepted := self.billAccepted ++ [(amountChar, currencyId)] }

def cleanLastBillFileStatus (self : JcmBillAcceptData) : JcmBillAcceptData :=
  if self.fpValStat.status = .ID003_ESCROW then
    self.setValStatus .zero self.billDepositQty 0 0
  else self

def resetFileStatusMei (self : JcmBillAcceptData) : JcmBillAcceptData :=
  { { self with billDepositQty := 0 }.setValStatus .zero 0 0 0 with statusFiledReseted := true }

/-- A validator in this protocol forgets its bills when it is enabled. -/
def billAcceptorSetStatus (newStatus : JcmStatus) (self : JcmBillAcceptData) :
    JcmBillAcceptData :=
  if self.status ≠ newStatus then
    let self := { self with status := newStatus }
    if newStatus = .enable ∨ newStatus = .validateOnly then self.resetFileStatusMei else self
  else self

/-- The amount read from the file is multiplied in a `long`, of 32 bits. -/
def notifyBillAcceptedMei (self : JcmBillAcceptData) : JcmBillAcceptData :=
  let (amountAux, curIdAux) := self.answer.processCurrencyAssignmentMei
  let amountChar := amountAux * MultipApp
  if amountChar > 0 then
    let self := { self with billDepositQty := self.billDepositQty + 1 }
    (self.setValStatus .ID003_STACKED self.billDepositQty amountAux curIdAux).notify
      amountChar curIdAux
  else
    let ⟨valSt, _, amountAux, curIdAux⟩ := self.fpValStat
    let amountChar := (amountAux * MultipApp).bmod 4294967296
    if valSt = .ID003_ESCROW then
      if amountAux > 0 then
        let self := { self with billDepositQty := self.billDepositQty + 1 }
        (self.setValStatus .ID003_STACKED self.billDepositQty amountAux curIdAux).notify
          amountChar curIdAux
      else self
    else self

def powerUpBillAcceptedMei (self : JcmBillAcceptData) : JcmBillAcceptData :=
  let ⟨valSt, billQty, amountAux, curIdAux⟩ := self.fpValStat
  if valSt = .ID003_ESCROW then
    self.setValStatus .ID003_STACKED (billQty + 1) amountAux curIdAux
  else self

def isBillDisabled (self : JcmBillAcceptData) (amount currencyId : Int) : Bool :=
  match self.convertionTable.find? fun d => d.amount = amount ∧ d.currencyId = currencyId with
  | some d => d.disabled
  | none => false

def requestStackMei (self : JcmBillAcceptData) : JcmBillAcceptData :=
  let (amountAux, curIdAux) := self.answer.processCurrencyAssignmentMei
  if amountAux > 0 then
    if self.status = .enable ∧ self.isBillDisabled amountAux curIdAux = false then
      (self.setValStatus .ID003_ESCROW self.billDepositQty amountAux curIdAux).send .stackCmd
    else
      let self :=
        if self.status = .validateOnly then self.notify (amountAux * MultipApp) curIdAux else self
      self.send .returnCmd
  else self.send .returnCmd

def returnBillMei (self : JcmBillAcceptData) : JcmBillAcceptData := self.send .returnCmd

def processMeiFirmwareVersion (self : JcmBillAcceptData) : JcmBillAcceptData :=
  { self with jcmVersion := if self.jcmVersion = 0 then self.answer.dataLenEvt else 19 }

def addCurrencyToList (self : JcmBillAcceptData) (amount currencyId : Int) : JcmBillAcceptData :=
  if self.convertionTable.any fun d => d.amount = amount ∧ d.currencyId = currencyId then self
  else { self with convertionTable := self.convertionTable ++ [⟨amount, currencyId, false⟩] }

def requestNextCurrencyItemMei (self : JcmBillAcceptData) : JcmBillAcceptData :=
  let (amountAux, curIdAux) := self.answer.processCurrencyAssignmentMei
  if amountAux > 0 then (self.addCurrencyToList amountAux curIdAux).send .requestCurrency
  else { self with billTableLoaded := true }

def notifyAppInitalizationFinished (self : JcmBillAcceptData) : JcmBillAcceptData :=
  { self with notifyInitApp := true }

def notifyAppInitalizationFinishedWithError (self : JcmBillAcceptData) : JcmBillAcceptData :=
  { self with notifyInitApp := true }

def sendDownloadStartMei (self : JcmBillAcceptData) : JcmBillAcceptData := self.send .downloadStart

/-- Send a frame of the transfer. -/
def writeReadDownload (self : JcmBillAcceptData) : JcmBillAcceptData :=
  { self.send .transfer with
    commErrQty := if self.transferAnswered then 0 else self.commErrQty + 1 }

/-! ## Guards -/

/-- Without the table of denominations or the version, ask for it. -/
def initDataMissingMei (self : JcmBillAcceptData) : Bool × JcmBillAcceptData :=
  if !self.billTableLoaded then (true, { self with convertionTable := [] }.send .requestCurrency)
  else if self.jcmVersion = 0 then (true, self.send .requestVersion)
  else if self.jcmVersion ≤ 9 then (true, self.send .requestVersion)
  else (false, self)

def appRequestedFileInfo (self : JcmBillAcceptData) : Bool := self.fileInfoRequested

def shouldResetStatusFile (self : JcmBillAcceptData) : Bool :=
  self.fileInfoRequested && !self.statusFiledReseted

def errorDetectedMei (self : JcmBillAcceptData) : Bool := self.errorCause ≠ .zero

def endErrorDetectedMei (self : JcmBillAcceptData) : Bool := self.errorCause = .zero

def meiErrorComunication (self : JcmBillAcceptData) : Bool := self.errorCause = .ID003_COMM_ERROR

def inDownloadModeMei (self : JcmBillAcceptData) : Bool := self.downloadMode

def notInDownloadModeMei (self : JcmBillAcceptData) : Bool := !self.downloadMode

def isOnPowerUpStatusMei (self : JcmBillAcceptData) : Bool := self.onPowerUp

def transferFailed (self : JcmBillAcceptData) : Bool :=
  self.commErrQty ≠ 0 ∧ self.commErrQty < 10

def isJCMDisable (self : JcmBillAcceptData) : Bool := self.status = .disable

def isNotJCMDisable (self : JcmBillAcceptData) : Bool := self.status ≠ .disable

/-! ## Entering a state -/

def loadFistStateMei (self : JcmBillAcceptData) : JcmBillAcceptData :=
  { self with
    fileInfoRequested := false, statusFiledReseted := false, notifyInitApp := false
    downloadMode := false, onPowerUp := false }

def loadInitializingMei (self : JcmBillAcceptData) : JcmBillAcceptData :=
  { self with downloadMode := false }

def loadDisableMei (self : JcmBillAcceptData) : JcmBillAcceptData :=
  { self with canChangeStatus := true }

def loadEnableMei (self : JcmBillAcceptData) : JcmBillAcceptData :=
  { self with canChangeStatus := true, statusFiledReseted := false }

def loadReceivingBillMei (self : JcmBillAcceptData) : JcmBillAcceptData :=
  { self with canChangeStatus := false }

/-- An error takes back the note of a bill in escrow, unless it is in the communication. -/
def loadErrorStateMei (self : JcmBillAcceptData) : JcmBillAcceptData :=
  let self := { self with canChangeStatus := false }
  let self := if self.errorCause ≠ .ID003_COMM_ERROR then self.cleanLastBillFileStatus else self
  if self.errorCause = .ID003_CHEATED then self.billAcceptorSetStatus .disable else self

def loadStartFirmUpdateMei (self : JcmBillAcceptData) : JcmBillAcceptData :=
  { self with status := .disable, jcmVersion := 0, billTableLoaded := false }

def loadFirmUpdateMei (self : JcmBillAcceptData) : JcmBillAcceptData :=
  { self with jcmVersion := 0, billTableLoaded := false }

end JcmBillAcceptData

open JcmBillAcceptData

/-! ## The state machine -/

inductive MeiState
  | noComm | first | initializing | disabled | enabled | receivingBill | error
  | startFirmwareUpd | updateFirmware
deriving DecidableEq, Repr

abbrev Machine := StateMachine MeiState JcmBillAcceptData

abbrev MeiTransition := Transition Code MeiState JcmBillAcceptData

/-- A line of a table: event, guard, action and next state, `none` for `SM_ANY`. -/
def row (event : Option Code) (guardCondition : JcmBillAcceptData → Bool)
    (action : JcmBillAcceptData → JcmBillAcceptData) (nextState : MeiState) : MeiTransition :=
  ⟨event, test guardCondition, onContext action, nextState⟩

def meiFirstStateTransitions : List MeiTransition :=
  [row (some .ID003_STACKED) (fun _ => true) powerUpBillAcceptedMei .first,
   row (some .ID003_ESCROW) (fun _ => true) returnBillMei .first,
   row (some .ID003_RETURNING) (fun _ => true) id .first,
   row (some .ID003_RETURNED) (fun _ => true) cleanLastBillFileStatus .first,
   row none meiErrorComunication notifyAppInitalizationFinishedWithError .first,
   row (some .ID003_UPDATE_FIRM) (fun _ => true) id .startFirmwareUpd,
   row none inDownloadModeMei notifyAppInitalizationFinishedWithError .first,
   row none isOnPowerUpStatusMei id .first,
   row none (fun _ => true) notifyAppInitalizationFinished .initializing]

def meiInitStateTransitions : List MeiTransition :=
  [row (some .ID003_UPDATE_FIRM) (fun _ => true) id .startFirmwareUpd,
   row (some .ID003_STACKED) appRequestedFileInfo notifyBillAcceptedMei .initializing,
   row (some .ID003_STACKED) (fun _ => true) powerUpBillAcceptedMei .initializing,
   row (some .ID003_RETURNED) (fun _ => true) cleanLastBillFileStatus .initializing,
   row none errorDetectedMei id .error,
   row (some .EVT_CURRENCY) (fun _ => true) requestNextCurrencyItemMei .initializing,
   row (some .EVT_VERSION) (fun _ => true) processMeiFirmwareVersion .initializing,
   ⟨none, initDataMissingMei, id, .initializing⟩,
   row (some .ID003_ACCEPTING) (fun _ => true) id .receivingBill,
   row (some .ID003_ESCROW) (fun _ => true) id .receivingBill,
   row none isNotJCMDisable id .enabled,
   row none isJCMDisable id .disabled,
   row none (fun _ => true) id .initializing]

def meiDisabledStateTransitions : List MeiTransition :=
  [row (some .ID003_UPDATE_FIRM) (fun _ => true) id .startFirmwareUpd,
   row (some .ID003_STACKED) (fun _ => true) notifyBillAcceptedMei .disabled,
   row (some .ID003_RETURNED) (fun _ => true) cleanLastBillFileStatus .disabled,
   row none shouldResetStatusFile resetFileStatusMei .disabled,
   row none errorDetectedMei id .error,
   row none isNotJCMDisable id .enabled,
   row (some .ID003_ESCROW) (fun _ => true) returnBillMei .disabled,
   row none (fun _ => true) id .disabled]

def meiEnabledStateTransitions : List MeiTransition :=
  [row (some .ID003_UPDATE_FIRM) (fun _ => true) id .startFirmwareUpd,
   row (some .ID003_STACKED) (fun _ => true) notifyBillAcceptedMei .enabled,
   row (some .ID003_RETURNED) (fun _ => true) cleanLastBillFileStatus .enabled,
   row none errorDetectedMei id .error,
   row none isJCMDisable id .disabled,
   row (some .ID003_ACCEPTING) (fun _ => true) id .receivingBill,
   row (some .ID003_ESCROW) (fun _ => true) id .receivingBill,
   row none (fun _ => true) id .enabled]

def meiReceivingBillStateTransitions : List MeiTransition :=
  [row (some .ID003_STACKED) (fun _ => true) notifyBillAcceptedMei .receivingBill,
   row (some .ID003_RETURNED) (fun _ => true) cleanLastBillFileStatus .receivingBill,
   row none errorDetectedMei id .error,
   row none isJCMDisable id .disabled,
   row (some .ID003_ESCROW) (fun _ => true) requestStackMei .receivingBill,
   row (some .ID003_IDLING) (fun _ => true) id .enabled,
   row none (fun _ => true) id .receivingBill]

def meiErrorStateTransitions : List MeiTransition :=
  [row (some .ID003_STACKED) (fun _ => true) notifyBillAcceptedMei .error,
   row (some .ID003_RETURNED) (fun _ => true) cleanLastBillFileStatus .error,
   row none endErrorDetectedMei id .initializing,
   row (some .ID003_UPDATE_FIRM) (fun _ => true) id .startFirmwareUpd,
   row none (fun _ => true) id .error]

def meiStartFirmUpdateTransitions : List MeiTransition :=
  [row none notInDownloadModeMei sendDownloadStartMei .startFirmwareUpd,
   row none (fun _ => true) id .updateFirmware]

/-- The same frame or the next one goes out, which is one here. -/
def meiUpdateFirmwareTransitions : List MeiTransition :=
  [row (some .zero) (fun _ => true) id .initializing,
   row none transferFailed writeReadDownload .updateFirmware,
   row (some .transfer) (fun _ => true) writeReadDownload .updateFirmware,
   row none (fun _ => true) id .initializing]

def meiStates : MeiState → State Code MeiState JcmBillAcceptData
  | .noComm => ⟨id, id, [row none (fun _ => true) id .noComm]⟩
  | .first => ⟨onContext loadFistStateMei, id, meiFirstStateTransitions⟩
  | .initializing => ⟨onContext loadInitializingMei, id, meiInitStateTransitions⟩
  | .disabled => ⟨onContext loadDisableMei, id, meiDisabledStateTransitions⟩
  | .enabled => ⟨onContext loadEnableMei, id, meiEnabledStateTransitions⟩
  | .receivingBill => ⟨onContext loadReceivingBillMei, id, meiReceivingBillStateTransitions⟩
  | .error => ⟨onContext loadErrorStateMei, id, meiErrorStateTransitions⟩
  | .startFirmwareUpd => ⟨onContext loadStartFirmUpdateMei, id, meiStartFirmUpdateTransitions⟩
  | .updateFirmware => ⟨onContext loadFirmUpdateMei, id, meiUpdateFirmwareTransitions⟩

/-! ## Polls -/

/-- What a request to the validator is for. -/
inductive Cmd
  | EVT_POLLSTATUS | EVT_PROCESSBILL | EVT_CURRENCY | EVT_VERSION | download
deriving DecidableEq, Repr

/-- The event of an answer that is not a status frame. -/
def Cmd.event? : Cmd → Option Code
  | .EVT_POLLSTATUS => none
  | .EVT_PROCESSBILL => none
  | .EVT_CURRENCY => some .EVT_CURRENCY
  | .EVT_VERSION => some .EVT_VERSION
  | .download => some .transfer

/-- What a request reads: an answer with the acknowledge bit of the request or the other
one, or nothing. -/
inductive Read
  | nothing
  | frame (ack : Bool) (answer : Answer)

/-- Take an answer in, before it is processed. -/
def takeAnswer (cmd : Cmd) (answer : Answer) (self : JcmBillAcceptData) : JcmBillAcceptData :=
  let self := { self with answer, commErrQty := 0 }
  if answer.msjTypeAnsw = 0x50 then
    if cmd = .download then { self with downloadMode := answer.stat 3 &&& 0x02 ≠ 0 }
    else { self with downloadMode := true }
  else self

def takeStatus (answer : Answer) (self : JcmBillAcceptData) : JcmBillAcceptData :=
  { self with
    errorCause := answer.errorCause
    onPowerUp := answer.stat 2 &&& 0x01 ≠ 0
    actualState := answer.newState }

/-- What an answer or its absence makes the machine execute, and the machine it finds. -/
def readEvent (cmd : Cmd) (read : Read) (sm : Machine) : Machine × Option Code :=
  match read with
  | .frame true answer =>
    let sm := onContext (takeAnswer cmd answer) sm
    match cmd.event? with
    | some event => (sm, some event)
    | none =>
      let again := sm.context.actualState = answer.newState ∧ answer.newState = .ID003_ESCROW ∧
        cmd = .EVT_PROCESSBILL
      (onContext (takeStatus answer) sm, if again then none else some answer.newState)
  | .frame false answer =>
    let sm := onContext ({ · with answer }) sm
    if answer.msjTypeAnsw = 0x50 then
      (onContext ({ · with downloadMode := true }) sm, some .ID003_COMM_ERROR)
    else (sm, none)
  | .nothing =>
    let sm := onContext (fun self => { self with commErrQty := self.commErrQty + 1 }) sm
    if sm.context.commErrQty > 3 then
      (onContext ({ · with errorCause := .ID003_COMM_ERROR }) sm, some .ID003_COMM_ERROR)
    else (sm, none)

def meiAcceptWriteRead (cmd : Cmd) (read : Read) (sm : Machine) : Machine :=
  match readEvent cmd read sm with
  | (sm, some event) => executeStateMachine meiStates sm event
  | (sm, none) => sm

/-! ## What an event is for -/

/-- What a machine does with the report of a stacked bill. -/
inductive Handling
  | ignored | powerUpBillAccepted | notifyBillAccepted
deriving DecidableEq

def handling (sm : Machine) : Handling :=
  match sm.currentState with
  | .first => .powerUpBillAccepted
  | .initializing =>
    if sm.context.fileInfoRequested then .notifyBillAccepted else .powerUpBillAccepted
  | .disabled | .enabled | .receivingBill | .error => .notifyBillAccepted
  | .noComm | .startFirmwareUpd | .updateFirmware => .ignored

/-- An error other than of the communication wipes the note of an escrow. -/
def cleansOnError (sm : Machine) : Prop :=
  sm.currentState ∈ [.initializing, .disabled, .enabled, .receivingBill] ∧
    sm.context.errorCause ≠ .zero ∧ sm.context.errorCause ≠ .ID003_COMM_ERROR

def resetsFile (sm : Machine) : Prop :=
  sm.currentState = .disabled ∧ sm.context.shouldResetStatusFile = true

def notesEscrow (self : JcmBillAcceptData) : Prop :=
  self.status = .enable ∧
    self.isBillDisabled self.answer.processCurrencyAssignmentMei.1
      self.answer.processCurrencyAssignmentMei.2 = false

instance (sm : Machine) : Decidable (cleansOnError sm) := inferInstanceAs (Decidable (_ ∧ _))

instance (sm : Machine) : Decidable (resetsFile sm) := inferInstanceAs (Decidable (_ ∧ _))

instance (self : JcmBillAcceptData) : Decidable (notesEscrow self) :=
  inferInstanceAs (Decidable (_ ∧ _))

/-! ## The books -/

/-- What the driver keeps of the bills. -/
structure Books : Type where
  file : TempValInfo
  billDepositQty : Int
  fileInfoRequested : Bool
  billAccepted : List Credit

def books (self : JcmBillAcceptData) : Books :=
  ⟨self.fpValStat, self.billDepositQty, self.fileInfoRequested, self.billAccepted⟩

namespace Books

/-- An escrow is wiped. -/
def clean (self : Books) : Books :=
  if self.file.status = .ID003_ESCROW then { self with file := ⟨.zero, self.billDepositQty, 0, 0⟩ }
  else self

def reset (self : Books) : Books := { self with file := .zero, billDepositQty := 0 }

/-- A bill is noted before it is stacked. -/
def escrow (self : Books) (amount currencyId : Int) : Books :=
  { self with file := ⟨.ID003_ESCROW, self.billDepositQty, amount, currencyId⟩ }

/-- The application is told of a stacked bill. -/
def accept (self : Books) (amount currencyId : Int) : Books :=
  { self with
    file := ⟨.ID003_STACKED, self.billDepositQty + 1, amount, currencyId⟩
    billDepositQty := self.billDepositQty + 1
    billAccepted := self.billAccepted ++ [credit amount currencyId] }

/-- The note of an escrow becomes that of a stacked bill. -/
def powerUp (self : Books) : Books :=
  { self with file := { self.file with
      status := .ID003_STACKED, billStackedQty := self.file.billStackedQty + 1 } }

end Books

section Actions

variable (c : JcmBillAcceptData)

theorem books_clean : books c.cleanLastBillFileStatus = (books c).clean := by
  unfold cleanLastBillFileStatus Books.clean
  by_cases status : c.fpValStat.status = .ID003_ESCROW
  · rw [if_pos status, if_pos (show (books c).file.status = _ from status)]
    rfl
  · rw [if_neg status, if_neg (show ¬ (books c).file.status = _ from status)]

theorem books_reset : books c.resetFileStatusMei = (books c).reset := rfl

theorem books_setStatus (newStatus : JcmStatus) :
    books (c.billAcceptorSetStatus newStatus) =
      if c.status ≠ newStatus ∧ (newStatus = .enable ∨ newStatus = .validateOnly) then
        (books c).reset
      else books c := by
  unfold billAcceptorSetStatus
  by_cases same : c.status = newStatus
  · simp [same]
  · by_cases enables : newStatus = .enable ∨ newStatus = .validateOnly
    · simp only [ne_eq, same, not_false_eq_true, if_true, enables, and_self]
      rfl
    · simp only [ne_eq, same, not_false_eq_true, if_true, enables, and_false, if_false]
      rfl

theorem books_loadErrorState :
    books c.loadErrorStateMei =
      if c.errorCause ≠ .ID003_COMM_ERROR then (books c).clean else books c := by
  have disable (c : JcmBillAcceptData) : books (c.billAcceptorSetStatus .disable) = books c := by
    simp [books_setStatus]
  have cheated (c : JcmBillAcceptData) :
      books (if c.errorCause = .ID003_CHEATED then c.billAcceptorSetStatus .disable else c) =
        books c := by
    split
    · exact disable c
    · rfl
  unfold loadErrorStateMei
  dsimp only
  rw [cheated]
  split
  · exact books_clean _
  · rfl

theorem books_requestNextCurrencyItem : books c.requestNextCurrencyItemMei = books c := by
  unfold requestNextCurrencyItemMei addCurrencyToList
  dsimp only
  split
  · split <;> rfl
  · rfl

theorem books_initDataMissing : books c.initDataMissingMei.2 = books c := by
  unfold initDataMissingMei
  repeat' split
  all_goals rfl

theorem books_requestStack (mode : 0 < c.answer.processCurrencyAssignmentMei.1 →
    c.status ≠ .validateOnly) :
    books c.requestStackMei =
      if 0 < c.answer.processCurrencyAssignmentMei.1 ∧ notesEscrow c then
        (books c).escrow c.answer.processCurrencyAssignmentMei.1
          c.answer.processCurrencyAssignmentMei.2
      else books c := by
  unfold requestStackMei
  dsimp only [gt_iff_lt]
  by_cases amount : 0 < c.answer.processCurrencyAssignmentMei.1
  · by_cases notes : notesEscrow c
    · rw [if_pos amount, if_pos (And.intro notes.1 notes.2), if_pos ⟨amount, notes⟩]
      rfl
    · rw [if_pos amount, if_neg (fun both => notes ⟨both.1, both.2⟩), if_neg (mode amount),
        if_neg (notes ·.2)]
      rfl
  · rw [if_neg amount, if_neg (amount ·.1)]
    rfl

theorem multipApp_pos {amount : Int} : 0 < amount * MultipApp ↔ 0 < amount := by
  unfold MultipApp
  omega

theorem books_notifyBillAccepted {amount currencyId : Int}
    (reported : if 0 < c.answer.processCurrencyAssignmentMei.1 then
        c.answer.processCurrencyAssignmentMei = (amount, currencyId)
      else amount * MultipApp < 2147483648)
    (noted : c.fpValStat.status = .ID003_ESCROW ∧ c.fpValStat.amount = amount ∧
      c.fpValStat.currencyId = currencyId) (pos : 0 < amount) :
    books c.notifyBillAcceptedMei = (books c).accept amount currencyId := by
  obtain ⟨status, rfl, rfl⟩ := noted
  unfold notifyBillAcceptedMei
  dsimp only [gt_iff_lt]
  simp only [multipApp_pos]
  split at reported
  next frame =>
    rw [if_pos frame, reported]
    rfl
  next frame =>
    have fits : (c.fpValStat.amount * MultipApp).bmod 4294967296 =
        c.fpValStat.amount * MultipApp := by
      have pos' := multipApp_pos.2 pos
      rw [Int.bmod_eq_of_le] <;> omega
    rw [if_neg frame, if_pos status, if_pos pos, fits]
    rfl

theorem books_notifyBillAccepted_none (status : c.fpValStat.status ≠ .ID003_ESCROW)
    (frame : c.answer.processCurrencyAssignmentMei.1 ≤ 0) :
    books c.notifyBillAcceptedMei = books c := by
  unfold notifyBillAcceptedMei
  dsimp only [gt_iff_lt]
  simp only [multipApp_pos]
  rw [if_neg (by omega), if_neg status]

theorem books_powerUp : books c.powerUpBillAcceptedMei =
    if c.fpValStat.status = .ID003_ESCROW then (books c).powerUp else books c := by
  unfold powerUpBillAcceptedMei
  dsimp only
  split <;> rfl

end Actions

/-! ## What an event does to the books -/

section Events

variable {sm : Machine} {event : Code}

variable {name next : MeiState} {guardCondition : JcmBillAcceptData → Bool}
  {action : JcmBillAcceptData → JcmBillAcceptData}

theorem books_entry (not_first : name ≠ .first) (not_error : name ≠ .error) (m : Machine) :
    books ((meiStates name).entry m).context = books m.context := by
  cases name with
  | first => exact absurd rfl not_first
  | error => exact absurd rfl not_error
  | noComm => rfl
  | initializing => rfl
  | disabled => rfl
  | enabled => rfl
  | receivingBill => rfl
  | startFirmwareUpd => rfl
  | updateFirmware => rfl

theorem exit_eq (name : MeiState) (m : Machine) : (meiStates name).exit m = m := by
  cases name <;> rfl

theorem takeTransition_row {event : Option Code} (c : JcmBillAcceptData) :
    takeTransition meiStates name (row event guardCondition action next) c =
      if next ≠ name then (meiStates next).entry ⟨next, action c⟩ else ⟨next, action c⟩ := by
  unfold takeTransition
  simp only [exit_eq, ite_self]
  rfl

theorem books_error (name_ne : name ≠ .error) (c : JcmBillAcceptData) :
    books (takeTransition meiStates name (row none errorDetectedMei id .error) c).context =
      if c.errorCause ≠ .ID003_COMM_ERROR then (books c).clean else books c := by
  rw [takeTransition_row, if_pos name_ne.symm]
  exact books_loadErrorState c

/-- A transition that leaves the books alone. -/
structure Quiet (name : MeiState) (t : MeiTransition) : Prop where
  guardCondition : ∀ c, books (t.guardCondition c).2 = books c
  taken : ∀ c, books (takeTransition meiStates name t c).context = books c

theorem quiet_row {event : Option Code} (same : ∀ c, books (action c) = books c)
    (next_ne : next = name ∨ next ≠ .first ∧ next ≠ .error) :
    Quiet name (row event guardCondition action next) := by
  refine ⟨fun _ => rfl, fun c => ?_⟩
  by_cases moved : next = name
  · rw [takeTransition_row, if_neg (not_not_intro moved)]
    exact same c
  · have new := next_ne.resolve_left moved
    rw [takeTransition_row, if_pos moved, books_entry new.1 new.2]
    exact same c

theorem fits_event {e : Code} (fits : (row (some e) guardCondition action next).Fits event) :
    event = e := by
  rcases fits with same | any
  · exact (Option.some.inj same).symm
  · cases any

theorem execute_quiet
    (quiet : ∀ t ∈ (meiStates sm.currentState).transitions, t.Fits event →
      Quiet sm.currentState t) :
    books (executeStateMachine meiStates sm event).context = books sm.context := by
  refine executeStateMachine_rule (P := fun c => books c = books sm.context)
    (R := fun m => books m.context = books sm.context) ?_ ?_ (fun _ same => same) rfl
  · intro t mem fits c same
    exact ((quiet t mem fits).guardCondition c).trans same
  · intro t mem fits c same _
    exact ((quiet t mem fits).taken _).trans (((quiet t mem fits).guardCondition c).trans same)

theorem execute_ignored (ignored : handling sm = .ignored) :
    books (executeStateMachine meiStates sm event).context = books sm.context := by
  refine execute_quiet ?_
  rcases sm with ⟨name, c⟩
  cases name with
  | noComm =>
    simp only [meiStates, forall_mem_cons]
    exact ⟨fun _ => quiet_row (fun _ => rfl) (by decide), forall_mem_nil _⟩
  | startFirmwareUpd =>
    simp only [meiStates, meiStartFirmUpdateTransitions, forall_mem_cons]
    exact ⟨fun _ => quiet_row (fun _ => rfl) (by decide),
      fun _ => quiet_row (fun _ => rfl) (by decide), forall_mem_nil _⟩
  | updateFirmware =>
    simp only [meiStates, meiUpdateFirmwareTransitions, forall_mem_cons]
    exact ⟨fun _ => quiet_row (fun _ => rfl) (by decide),
      fun _ => quiet_row (fun _ => rfl) (by decide),
      fun _ => quiet_row (fun _ => rfl) (by decide),
      fun _ => quiet_row (fun _ => rfl) (by decide), forall_mem_nil _⟩
  | initializing =>
    dsimp only [handling] at ignored
    split at ignored <;> cases ignored
  | first => cases ignored
  | disabled => cases ignored
  | enabled => cases ignored
  | receivingBill => cases ignored
  | error => cases ignored

theorem execute_powerUp (handled : handling sm = .powerUpBillAccepted) :
    (executeStateMachine meiStates sm .ID003_STACKED).context =
      sm.context.powerUpBillAcceptedMei := by
  rcases sm with ⟨name, c⟩
  cases name with
  | first => rfl
  | initializing =>
    have requested : c.fileInfoRequested = false := by
      dsimp only [handling] at handled
      split at handled
      · cases handled
      · simp_all
    unfold executeStateMachine
    simp [meiStates, meiInitStateTransitions, findTransition, row, Transition.Fits, test,
      appRequestedFileInfo, requested]
    rfl
  | noComm => cases handled
  | startFirmwareUpd => cases handled
  | updateFirmware => cases handled
  | disabled => cases handled
  | enabled => cases handled
  | receivingBill => cases handled
  | error => cases handled

theorem execute_notify (handled : handling sm = .notifyBillAccepted) :
    (executeStateMachine meiStates sm .ID003_STACKED).context =
      sm.context.notifyBillAcceptedMei := by
  rcases sm with ⟨name, c⟩
  cases name with
  | initializing =>
    have requested : c.fileInfoRequested = true := by
      dsimp only [handling] at handled
      split at handled
      · assumption
      · cases handled
    unfold executeStateMachine
    simp [meiStates, meiInitStateTransitions, findTransition, row, Transition.Fits, test,
      appRequestedFileInfo, requested]
    rfl
  | disabled => rfl
  | enabled => rfl
  | receivingBill => rfl
  | error => rfl
  | noComm => cases handled
  | first => cases handled
  | startFirmwareUpd => cases handled
  | updateFirmware => cases handled

theorem execute_returned :
    books (executeStateMachine meiStates sm .ID003_RETURNED).context = books sm.context ∨
      books (executeStateMachine meiStates sm .ID003_RETURNED).context =
        (books sm.context).clean := by
  by_cases ignored : handling sm = .ignored
  · exact Or.inl (execute_ignored ignored)
  · refine Or.inr ?_
    rw [← books_clean]
    rcases sm with ⟨name, c⟩
    cases name with
    | first => rfl
    | initializing => rfl
    | disabled => rfl
    | enabled => rfl
    | receivingBill => rfl
    | error => rfl
    | noComm => exact absurd rfl ignored
    | startFirmwareUpd => exact absurd rfl ignored
    | updateFirmware => exact absurd rfl ignored

/-- What any other event does to the books. -/
def BooksAfter (sm : Machine) (event : Code) (b : Books) : Prop :=
  b = books sm.context ∨
  (cleansOnError sm ∧ b = (books sm.context).clean) ∨
  (resetsFile sm ∧ b = (books sm.context).reset) ∨
  (sm.currentState = .receivingBill ∧ event = .ID003_ESCROW ∧
    b = books sm.context.requestStackMei)

theorem BooksAfter.of_error {c c' : JcmBillAcceptData}
    (mem : name ∈ [.initializing, .disabled, .enabled, .receivingBill]) (same : books c' = books c)
    (cause : c'.errorCause = c.errorCause) (holds : c'.errorDetectedMei = true) :
    BooksAfter ⟨name, c⟩ event
      (books (takeTransition meiStates name (row none errorDetectedMei id .error) c').context) := by
  have name_ne : name ≠ .error := by
    rintro rfl
    simp at mem
  rw [books_error name_ne, same, cause]
  split
  next comm =>
    have detected : c.errorCause ≠ .zero := by
      rw [← cause]
      simpa [errorDetectedMei] using holds
    exact Or.inr (Or.inl ⟨⟨mem, detected, comm⟩, rfl⟩)
  next => exact Or.inl rfl

section Tables

variable {c : JcmBillAcceptData} (stacked : event ≠ .ID003_STACKED)
  (returned : event ≠ .ID003_RETURNED)
include stacked returned

theorem first_quiet : ∀ t ∈ meiFirstStateTransitions, t.Fits event → Quiet .first t := by
  simp only [meiFirstStateTransitions, forall_mem_cons]
  exact ⟨fun fits => absurd (fits_event fits) stacked,
    fun _ => quiet_row (fun _ => rfl) (by decide),
    fun _ => quiet_row (fun _ => rfl) (by decide),
    fun fits => absurd (fits_event fits) returned,
    fun _ => quiet_row (fun _ => rfl) (by decide),
    fun _ => quiet_row (fun _ => rfl) (by decide),
    fun _ => quiet_row (fun _ => rfl) (by decide),
    fun _ => quiet_row (fun _ => rfl) (by decide),
    fun _ => quiet_row (fun _ => rfl) (by decide), forall_mem_nil _⟩

theorem error_quiet : ∀ t ∈ meiErrorStateTransitions, t.Fits event → Quiet .error t := by
  simp only [meiErrorStateTransitions, forall_mem_cons]
  exact ⟨fun fits => absurd (fits_event fits) stacked,
    fun fits => absurd (fits_event fits) returned,
    fun _ => quiet_row (fun _ => rfl) (by decide),
    fun _ => quiet_row (fun _ => rfl) (by decide),
    fun _ => quiet_row (fun _ => rfl) (by decide), forall_mem_nil _⟩

theorem initializing_quiet : ∀ t ∈ meiInitStateTransitions, t.Fits event →
    Quiet .initializing t ∨ t = row none errorDetectedMei id .error := by
  simp only [meiInitStateTransitions, forall_mem_cons]
  refine ⟨fun _ => Or.inl (quiet_row (fun _ => rfl) (by decide)),
    fun fits => absurd (fits_event fits) stacked,
    fun fits => absurd (fits_event fits) stacked,
    fun fits => absurd (fits_event fits) returned,
    fun _ => Or.inr trivial,
    fun _ => Or.inl (quiet_row books_requestNextCurrencyItem (by decide)),
    fun _ => Or.inl (quiet_row (fun _ => rfl) (by decide)),
    fun _ => Or.inl ⟨books_initDataMissing, fun _ => rfl⟩,
    fun _ => Or.inl (quiet_row (fun _ => rfl) (by decide)),
    fun _ => Or.inl (quiet_row (fun _ => rfl) (by decide)),
    fun _ => Or.inl (quiet_row (fun _ => rfl) (by decide)),
    fun _ => Or.inl (quiet_row (fun _ => rfl) (by decide)),
    fun _ => Or.inl (quiet_row (fun _ => rfl) (by decide)), forall_mem_nil _⟩

theorem disabled_quiet : ∀ t ∈ meiDisabledStateTransitions, t.Fits event →
    Quiet .disabled t ∨ t = row none errorDetectedMei id .error ∨
      t = row none shouldResetStatusFile resetFileStatusMei .disabled := by
  simp only [meiDisabledStateTransitions, forall_mem_cons]
  exact ⟨fun _ => Or.inl (quiet_row (fun _ => rfl) (by decide)),
    fun fits => absurd (fits_event fits) stacked,
    fun fits => absurd (fits_event fits) returned,
    fun _ => Or.inr (Or.inr trivial),
    fun _ => Or.inr (Or.inl trivial),
    fun _ => Or.inl (quiet_row (fun _ => rfl) (by decide)),
    fun _ => Or.inl (quiet_row (fun _ => rfl) (by decide)),
    fun _ => Or.inl (quiet_row (fun _ => rfl) (by decide)), forall_mem_nil _⟩

theorem enabled_quiet : ∀ t ∈ meiEnabledStateTransitions, t.Fits event →
    Quiet .enabled t ∨ t = row none errorDetectedMei id .error := by
  simp only [meiEnabledStateTransitions, forall_mem_cons]
  exact ⟨fun _ => Or.inl (quiet_row (fun _ => rfl) (by decide)),
    fun fits => absurd (fits_event fits) stacked,
    fun fits => absurd (fits_event fits) returned,
    fun _ => Or.inr trivial,
    fun _ => Or.inl (quiet_row (fun _ => rfl) (by decide)),
    fun _ => Or.inl (quiet_row (fun _ => rfl) (by decide)),
    fun _ => Or.inl (quiet_row (fun _ => rfl) (by decide)),
    fun _ => Or.inl (quiet_row (fun _ => rfl) (by decide)), forall_mem_nil _⟩

theorem receivingBill_quiet : ∀ t ∈ meiReceivingBillStateTransitions, t.Fits event →
    Quiet .receivingBill t ∨ t = row none errorDetectedMei id .error ∨
      event = .ID003_ESCROW ∧
        t = row (some .ID003_ESCROW) (fun _ => true) requestStackMei .receivingBill := by
  simp only [meiReceivingBillStateTransitions, forall_mem_cons]
  exact ⟨fun fits => absurd (fits_event fits) stacked,
    fun fits => absurd (fits_event fits) returned,
    fun _ => Or.inr (Or.inl trivial),
    fun _ => Or.inl (quiet_row (fun _ => rfl) (by decide)),
    fun fits => Or.inr (Or.inr ⟨fits_event fits, trivial⟩),
    fun _ => Or.inl (quiet_row (fun _ => rfl) (by decide)),
    fun _ => Or.inl (quiet_row (fun _ => rfl) (by decide)), forall_mem_nil _⟩

end Tables

theorem guardCondition_pure {name : MeiState} (not_init : name ≠ .initializing) :
    ∀ t ∈ (meiStates name).transitions, ∀ c, (t.guardCondition c).2 = c := by
  cases name with
  | initializing => exact absurd rfl not_init
  | noComm => simp [meiStates, row, test]
  | first => simp [meiStates, meiFirstStateTransitions, row, test]
  | disabled => simp [meiStates, meiDisabledStateTransitions, row, test]
  | enabled => simp [meiStates, meiEnabledStateTransitions, row, test]
  | receivingBill => simp [meiStates, meiReceivingBillStateTransitions, row, test]
  | error => simp [meiStates, meiErrorStateTransitions, row, test]
  | startFirmwareUpd => simp [meiStates, meiStartFirmUpdateTransitions, row, test]
  | updateFirmware => simp [meiStates, meiUpdateFirmwareTransitions, row, test]

theorem initializing_guardCondition : ∀ t ∈ meiInitStateTransitions, ∀ c,
    books (t.guardCondition c).2 = books c ∧ (t.guardCondition c).2.errorCause = c.errorCause := by
  have missing (c : JcmBillAcceptData) : books c.initDataMissingMei.2 = books c ∧
      c.initDataMissingMei.2.errorCause = c.errorCause := by
    refine ⟨books_initDataMissing c, ?_⟩
    unfold initDataMissingMei
    repeat' split
    all_goals rfl
  intro t mem c
  simp only [meiInitStateTransitions, mem_cons, not_mem_nil, or_false] at mem
  rcases mem with rfl | rfl | rfl | rfl | rfl | rfl | rfl | rfl | rfl | rfl | rfl | rfl | rfl
  case inr.inr.inr.inr.inr.inr.inr.inl => exact missing c
  all_goals exact ⟨rfl, rfl⟩

/-- Where the guards change nothing, a transition is taken in the context the event
finds. -/
theorem execute_pure {name : MeiState} {c : JcmBillAcceptData} (not_init : name ≠ .initializing)
    {R : Machine → Prop}
    (taken : ∀ t ∈ (meiStates name).transitions, t.Fits event → (t.guardCondition c).1 = true →
      R (takeTransition meiStates name t c))
    (none : R ⟨name, c⟩) : R (executeStateMachine meiStates ⟨name, c⟩ event) := by
  have pure := guardCondition_pure not_init
  refine executeStateMachine_rule (P := fun c' => c' = c) ?_ ?_ ?_ rfl
  · rintro t mem - c' rfl
    exact pure t mem c'
  · rintro t mem fits c' rfl holds
    rw [pure t mem c']
    exact taken t mem fits holds
  · rintro c' rfl
    exact none

theorem execute_books (stacked : event ≠ .ID003_STACKED) (returned : event ≠ .ID003_RETURNED) :
    BooksAfter sm event (books (executeStateMachine meiStates sm event).context) := by
  rcases sm with ⟨name, c⟩
  cases name with
  | noComm => exact Or.inl (execute_ignored rfl)
  | startFirmwareUpd => exact Or.inl (execute_ignored rfl)
  | updateFirmware => exact Or.inl (execute_ignored rfl)
  | first => exact Or.inl (execute_quiet (first_quiet stacked returned))
  | error => exact Or.inl (execute_quiet (error_quiet stacked returned))
  | initializing =>
    refine executeStateMachine_rule
      (P := fun c' => books c' = books c ∧ c'.errorCause = c.errorCause)
      (R := fun m => BooksAfter ⟨.initializing, c⟩ event (books m.context)) ?_ ?_
      (fun c' same => Or.inl same.1) ⟨rfl, rfl⟩
    · intro t mem _ c' same
      have kept := initializing_guardCondition t mem c'
      exact ⟨kept.1.trans same.1, kept.2.trans same.2⟩
    · intro t mem fits c' same holds
      rcases initializing_quiet stacked returned t mem fits with quiet | rfl
      · exact Or.inl ((quiet.taken _).trans ((quiet.guardCondition c').trans same.1))
      · exact .of_error (by decide) same.1 same.2 holds
  | disabled =>
    refine execute_pure (by decide)
      (R := fun m => BooksAfter ⟨.disabled, c⟩ event (books m.context)) ?_ (Or.inl rfl)
    intro t mem fits holds
    rcases disabled_quiet stacked returned t mem fits with quiet | rfl | rfl
    · exact Or.inl (quiet.taken c)
    · exact .of_error (by decide) rfl rfl holds
    · refine Or.inr (Or.inr (Or.inl ⟨⟨rfl, holds⟩, ?_⟩))
      rw [takeTransition_row, if_neg (not_not_intro rfl), ← books_reset]
  | enabled =>
    refine execute_pure (by decide)
      (R := fun m => BooksAfter ⟨.enabled, c⟩ event (books m.context)) ?_ (Or.inl rfl)
    intro t mem fits holds
    rcases enabled_quiet stacked returned t mem fits with quiet | rfl
    · exact Or.inl (quiet.taken c)
    · exact .of_error (by decide) rfl rfl holds
  | receivingBill =>
    refine execute_pure (by decide)
      (R := fun m => BooksAfter ⟨.receivingBill, c⟩ event (books m.context)) ?_ (Or.inl rfl)
    intro t mem fits holds
    rcases receivingBill_quiet stacked returned t mem fits with quiet | rfl | ⟨escrow, rfl⟩
    · exact Or.inl (quiet.taken c)
    · exact .of_error (by decide) rfl rfl holds
    · refine Or.inr (Or.inr (Or.inr ⟨rfl, escrow, ?_⟩))
      rw [takeTransition_row, if_neg (not_not_intro rfl)]

end Events

end CimArm.MeiStateMachine
