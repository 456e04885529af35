import CimArm.Device.JcmBillAcceptorMgr
import CimArm.Lib.Trace
import CimArm.System.StateMachine
import Mathlib.Data.List.Range

/-!
# Polling an RDM validator

Every message of the device carries a block number that runs from `0x30` to `0x39` and
round again.  The driver expects a number: a message that carries it is new, one that
carries the number before is a repetition, and any other makes the driver go on from the
number received.  The device repeats a message until an acknowledgement arrives.  A result
of a deposit count is handed to the state machine before it is acknowledged, all other
messages after.

The frames are those of `Rdm.deviceFrame`; here only their contents matter, from the block
number on.

* `run_processedOnce`: every run processes the results once each and in order, as long as
  no result comes in before the state machine has left its first state or under the number
  before the one expected.
-/

namespace CimArm.RdmPoll

open Engine Jcm List

/-! ## The driver -/

def RDM_RESET_CMD : UInt8 := 0x30
def RDM_INIT_CMD : UInt8 := 0x31
def RDM_DEPOSIT_COUNT_RESULT_CMD : UInt8 := 0x42
def RDM_REQ_LAST_DEPOSIT_CMD : UInt8 := 0x45
def RDM_REQ_CURRENCY_TABLE_CMD : UInt8 := 0x51

def RDM_POWERON : UInt8 := 0x00
def RDM_IDLING : UInt8 := 0x01
def RDM_WAIT_FOR_BANKNOTE_REMOVED_AFTER_INIT : UInt8 := 0x03
def RDM_WAIT_FOR_BANKNOTE_REMOVED_INLET_SLOT : UInt8 := 0x06
def RDM_WAIT_FOR_BANKNOTE_REMOVED_AFTER_DEPOSIT : UInt8 := 0x07
def RDM_RESET : UInt8 := 0x11
def RDM_ERROR : UInt8 := 0x1F

def ID003_JAM_IN_ACCEPTOR : UInt32 := 0x45
def ID003_COMM_ERROR : UInt8 := 0x4A

/-- The number that follows a block number. -/
def getNextBlockNo (blockN : UInt8) : UInt8 :=
  if blockN = 0x39 then 0x30 else blockN + 1

/-- What the driver sends after a frame. -/
inductive Sent
  | ack | nak | reset | initialization | requestCurrency | startDepositing
deriving DecidableEq, Repr

/-- The fields of the validator's record that a poll reads or writes, and what the poll
puts out: control signals and commands, and the frames handed to `notifyBillsAccepted`. -/
structure JcmBillAcceptData : Type where
  recBlockNo : UInt8
  sndBlockNo : UInt8
  commErrQty : UInt8
  errorCause : UInt32
  actualState : UInt8
  sst : List UInt8
  billTableLoaded : Bool
  resetSentQty : UInt8
  status : JcmStatus
  dataEvPtr : Option (List UInt8)
  sent : List Sent
  processed : List (List UInt8)

namespace JcmBillAcceptData

/-- A byte of the frame that `dataEvPtr` points to. -/
def event (self : JcmBillAcceptData) (at_ : Nat) : UInt8 :=
  (self.dataEvPtr.getD []).getD at_ 0

def statusByte (self : JcmBillAcceptData) (at_ : Nat) : UInt8 := self.sst.getD at_ 0

/-- Send a command and read the device's control signal. -/
def rdmSendFrameProcess (ctrlSignal : Option (List UInt8)) (cmd : Sent)
    (self : JcmBillAcceptData) : JcmBillAcceptData :=
  { self with sent := self.sent ++ [cmd], dataEvPtr := ctrlSignal }

/-- Send a command under the next block number. -/
def sendNext (ctrlSignal : Option (List UInt8)) (cmd : Sent) (self : JcmBillAcceptData) :
    JcmBillAcceptData :=
  { self with sndBlockNo := getNextBlockNo self.sndBlockNo }.rdmSendFrameProcess ctrlSignal cmd

def sendStartDepositingRdm (ctrlSignal : Option (List UInt8)) :=
  sendNext ctrlSignal .startDepositing

def sendInitializationCmd (ctrlSignal : Option (List UInt8)) :=
  sendNext ctrlSignal .initialization

def requestCurrencyRDM (ctrlSignal : Option (List UInt8)) :=
  sendNext ctrlSignal .requestCurrency

/-- A reset starts the block numbers afresh, on both sides if it arrives. -/
def sendResetRdm (ctrlSignal : Option (List UInt8)) (self : JcmBillAcceptData) :
    JcmBillAcceptData :=
  { self with recBlockNo := 0x30, sndBlockNo := 0x30 }.rdmSendFrameProcess ctrlSignal .reset

/-- The table is loaded when the result is zero, of which one byte is looked at. -/
def processCurrencyTable (self : JcmBillAcceptData) : JcmBillAcceptData :=
  { self with billTableLoaded := self.billTableLoaded || self.event 9 = 0 }

def notifyBillsAccepted (self : JcmBillAcceptData) : JcmBillAcceptData :=
  { self with processed := self.processed ++ [self.dataEvPtr.getD []] }

def doProcessStatusRdm (self : JcmBillAcceptData) (statusNew : List UInt8) :
    JcmBillAcceptData :=
  let state := statusNew.getD 1 0
  { self with
    sst := statusNew.take 7
    errorCause :=
      if state = RDM_WAIT_FOR_BANKNOTE_REMOVED_AFTER_INIT ∨
          state = RDM_WAIT_FOR_BANKNOTE_REMOVED_INLET_SLOT ∨
          state = RDM_WAIT_FOR_BANKNOTE_REMOVED_AFTER_DEPOSIT then 0xB4
      else if state = RDM_ERROR then ID003_JAM_IN_ACCEPTOR
      else 0
    actualState := state }

/-! ## Guards -/

def isPreparedforDepositing (self : JcmBillAcceptData) : Bool :=
  self.actualState = RDM_IDLING ∧
    (self.statusByte 3 &&& 0x04 ≠ 0 ∨ self.statusByte 6 &&& 0x04 ≠ 0) ∧
    self.statusByte 0 &&& 0x02 = 0

def verifyCmdExecResult (self : JcmBillAcceptData) : Bool :=
  self.event 9 = 0 ∧ self.event 10 = 0

def isOnCommunicationError (self : JcmBillAcceptData) : Bool :=
  self.errorCause = ID003_COMM_ERROR.toUInt32

def errorDetectedRdm (self : JcmBillAcceptData) : Bool := self.errorCause ≠ 0

def endErrorDetectedRdm (self : JcmBillAcceptData) : Bool := self.errorCause = 0

def isOnResetStatusRdm (self : JcmBillAcceptData) : Bool :=
  (self.actualState = RDM_RESET ∨ self.statusByte 0 &&& 0x01 ≠ 0) ∧
    self.statusByte 2 &&& 0xFD = 0 ∧ self.statusByte 3 &&& 0xDF = 0 ∧
    self.statusByte 4 = 0 ∧ self.statusByte 5 = 0 ∧ self.statusByte 6 &&& 0x01 = 0

def isOnPowerUpStatusRdm (self : JcmBillAcceptData) : Bool := self.actualState = RDM_POWERON

def isRDMStatusBusy (self : JcmBillAcceptData) : Bool := self.statusByte 0 &&& 0x02 ≠ 0

def currencyTableNotLoaded (self : JcmBillAcceptData) : Bool := !self.billTableLoaded

/-- The guard counts the resets it allows. -/
def errorNeedsReset (self : JcmBillAcceptData) : Bool × JcmBillAcceptData :=
  if self.errorCause ≠ ID003_COMM_ERROR.toUInt32 ∧ self.resetSentQty < 20 then
    (true, { self with resetSentQty := self.resetSentQty + 1 })
  else (false, self)

def isJCMDisable (self : JcmBillAcceptData) : Bool := self.status = .disable

def isNotJCMDisable (self : JcmBillAcceptData) : Bool := self.status ≠ .disable

end JcmBillAcceptData

open JcmBillAcceptData

/-! ## The state machine -/

inductive RdmState
  | first | initializing | disabled | enabled | receivingBill | error
deriving DecidableEq, Repr

abbrev Machine := StateMachine RdmState JcmBillAcceptData

abbrev RdmTransition := Transition UInt8 RdmState JcmBillAcceptData

/-- A line of a table: event, guard, action and next state, `none` for `SM_ANY`. -/
def row (event : Option UInt8) (guardCondition : JcmBillAcceptData → Bool)
    (action : JcmBillAcceptData → JcmBillAcceptData) (nextState : RdmState) : RdmTransition :=
  ⟨event, test guardCondition, onContext action, nextState⟩

variable (ctrlSignal : Option (List UInt8))

def rdmFirstStateTransitions : List RdmTransition :=
  [row none (fun _ => true) id .initializing]

/-- `verifyNotifyBillsAccepted`, on the answer to a request the driver never sends, tells
the application of no bills. -/
def rdmInitStateTransitions : List RdmTransition :=
  [row (some RDM_DEPOSIT_COUNT_RESULT_CMD) (fun _ => true) notifyBillsAccepted .initializing,
   row (some RDM_REQ_LAST_DEPOSIT_CMD) (fun _ => true) id .initializing,
   row none errorDetectedRdm id .error,
   row none isRDMStatusBusy id .initializing,
   row (some RDM_RESET_CMD) verifyCmdExecResult id .initializing,
   row (some RDM_INIT_CMD) verifyCmdExecResult (requestCurrencyRDM ctrlSignal) .initializing,
   row (some RDM_REQ_CURRENCY_TABLE_CMD) verifyCmdExecResult processCurrencyTable .initializing,
   row none isOnPowerUpStatusRdm (sendResetRdm ctrlSignal) .initializing,
   row none isOnResetStatusRdm (sendInitializationCmd ctrlSignal) .initializing,
   row none currencyTableNotLoaded (requestCurrencyRDM ctrlSignal) .initializing,
   row none (fun _ => true) id .disabled,
   row none (fun _ => true) id .initializing]

def rdmDisabledStateTransitions : List RdmTransition :=
  [row (some RDM_DEPOSIT_COUNT_RESULT_CMD) (fun _ => true) notifyBillsAccepted .disabled,
   row none isRDMStatusBusy id .disabled,
   row none errorDetectedRdm id .error,
   row none isOnPowerUpStatusRdm (sendResetRdm ctrlSignal) .initializing,
   row none isOnResetStatusRdm (sendInitializationCmd ctrlSignal) .initializing,
   row none isNotJCMDisable id .enabled,
   row none (fun _ => true) id .disabled]

def rdmEnabledStateTransitions : List RdmTransition :=
  [row (some RDM_DEPOSIT_COUNT_RESULT_CMD) (fun _ => true) notifyBillsAccepted .enabled,
   row none isJCMDisable id .disabled,
   row none isRDMStatusBusy id .enabled,
   row none isPreparedforDepositing (sendStartDepositingRdm ctrlSignal) .enabled,
   row none errorDetectedRdm id .error,
   row none isOnPowerUpStatusRdm (sendResetRdm ctrlSignal) .initializing,
   row none isOnResetStatusRdm (sendInitializationCmd ctrlSignal) .initializing,
   row none (fun _ => true) id .enabled]

def rdmReceivingBillStateTransitions : List RdmTransition :=
  [row none errorDetectedRdm id .error,
   row none isJCMDisable id .disabled,
   row none (fun _ => true) id .receivingBill]

def rdmErrorStateTransitions : List RdmTransition :=
  [row (some RDM_DEPOSIT_COUNT_RESULT_CMD) (fun _ => true) notifyBillsAccepted .disabled,
   row none endErrorDetectedRdm id .initializing,
   row none isOnCommunicationError id .error,
   row none isRDMStatusBusy id .error,
   row (some RDM_RESET_CMD) verifyCmdExecResult id .error,
   row (some RDM_INIT_CMD) verifyCmdExecResult (requestCurrencyRDM ctrlSignal) .initializing,
   row none isOnPowerUpStatusRdm (sendResetRdm ctrlSignal) .error,
   row none isOnResetStatusRdm (sendInitializationCmd ctrlSignal) .error,
   ⟨none, errorNeedsReset, onContext (sendResetRdm ctrlSignal), .error⟩,
   row none (fun _ => true) id .error]

def loadFirstStateRdm (self : JcmBillAcceptData) : JcmBillAcceptData :=
  { self with
    actualState := 255, billTableLoaded := false, recBlockNo := 0x30, sndBlockNo := 0x30 }

def loadErrorStateRdm (self : JcmBillAcceptData) : JcmBillAcceptData :=
  { self with resetSentQty := 0 }

def rdmStates : RdmState → State UInt8 RdmState JcmBillAcceptData
  | .first => ⟨onContext loadFirstStateRdm, id, rdmFirstStateTransitions⟩
  | .initializing => ⟨id, id, rdmInitStateTransitions ctrlSignal⟩
  | .disabled => ⟨id, id, rdmDisabledStateTransitions ctrlSignal⟩
  | .enabled => ⟨id, id, rdmEnabledStateTransitions ctrlSignal⟩
  | .receivingBill => ⟨id, id, rdmReceivingBillStateTransitions⟩
  | .error => ⟨onContext loadErrorStateRdm, id, rdmErrorStateTransitions ctrlSignal⟩

/-! ## Polls -/

def write (signal : Sent) (self : JcmBillAcceptData) : JcmBillAcceptData :=
  { self with sent := self.sent ++ [signal] }

/-- The body of the loop of `pollRDM`: `dataEvPtr` is what `rdmReadFrame` has returned. -/
def pollBody (dataEvPtr : Option (List UInt8)) (sm : Machine) : Machine :=
  let sm := onContext ({ · with dataEvPtr }) sm
  match dataEvPtr with
  | some frame =>
    let aux := frame.getD 0 0
    let cmd := frame.getD 1 0
    if sm.context.recBlockNo = aux then
      let sm := onContext
        ({ · with commErrQty := 0, recBlockNo := getNextBlockNo sm.context.recBlockNo }) sm
      if cmd = RDM_DEPOSIT_COUNT_RESULT_CMD then
        let sm := onContext (·.doProcessStatusRdm (frame.drop 2)) sm
        let sm := executeStateMachine (rdmStates ctrlSignal) sm cmd
        onContext (write .ack) sm
      else
        let sm := onContext (write .ack) sm
        let sm := onContext (·.doProcessStatusRdm (frame.drop 2)) sm
        executeStateMachine (rdmStates ctrlSignal) sm cmd
    else if sm.context.recBlockNo = getNextBlockNo aux then onContext (write .ack) sm
    else
      let sm := onContext ({ · with recBlockNo := getNextBlockNo aux }) sm
      let sm := onContext (write .ack) sm
      executeStateMachine (rdmStates ctrlSignal) sm cmd
  | none =>
    let sm := onContext (write .nak) sm
    onContext (fun self => { self with commErrQty := self.commErrQty + 1 }) sm

/-- The end of `pollRDM`. -/
def pollEnd (sm : Machine) : Machine :=
  if sm.context.commErrQty > 3 then
    let sm := onContext ({ · with errorCause := ID003_COMM_ERROR.toUInt32 }) sm
    executeStateMachine (rdmStates ctrlSignal) sm ID003_COMM_ERROR
  else sm

/-- One pass of `pollRDM` through its loop, with the end if it is the last. -/
def pollRDM (dataEvPtr : Option (List UInt8)) (sm : Machine) : Machine :=
  let sm := pollBody ctrlSignal dataEvPtr sm
  if sm.context.dataEvPtr = none ∧ sm.context.commErrQty < 3 then sm
  else pollEnd ctrlSignal sm

/-- What a pass puts out is collected afresh. -/
def clearOutput (self : JcmBillAcceptData) : JcmBillAcceptData :=
  { self with sent := [], processed := [] }

/-! ## The device and the line -/

/-- The device: the message it has to send, with the block number, and the number of the
message before while a late copy of that may still be on the line. -/
structure Device : Type where
  next : Nat
  block : UInt8
  late : Option UInt8

/-- What a pass of the loop reads. -/
inductive Read
  /-- Nothing, or a broken frame. -/
  | nothing
  | frame
  /-- A late copy of the message before. -/
  | late
deriving DecidableEq, Repr

/-- What becomes of the signals of one pass: whether an acknowledgement and a reset reach
the device, and the control signal that the driver reads after a command. -/
structure Line : Type where
  read : Read
  ack : Bool
  reset : Bool
  ctrlSignal : Option (List UInt8)

variable (msgs : Nat → List UInt8)

/-- The message read, by its place in the order of messages, and the frame's content. -/
def Device.frame (device : Device) : Read → Option (Nat × List UInt8)
  | .nothing => none
  | .frame => some (device.next, device.block :: msgs device.next)
  | .late => device.late.map fun block => (device.next - 1, block :: msgs (device.next - 1))

/-- An acknowledgement, of whatever copy, makes the device go on; a reset makes it start
its block numbers afresh. -/
def Device.receive (device : Device) (line : Line) (sent : List Sent) : Device :=
  let device := if line.read = .frame then { device with late := none } else device
  let device :=
    if .ack ∈ sent ∧ line.ack then
      ⟨device.next + 1, getNextBlockNo device.block, some device.block⟩
    else device
  if .reset ∈ sent ∧ line.reset then { device with block := 0x30 } else device

/-- Driver and device; `processed` are the messages handed to `notifyBillsAccepted`. -/
structure State : Type where
  sm : Machine
  device : Device
  processed : List (Nat × List UInt8)

inductive Op
  | poll (line : Line)
  /-- The application enables or disables the validator. -/
  | setStatus (status : JcmStatus)

def step (op : Op) (s : State) : State :=
  match op with
  | .poll line =>
    let frame := s.device.frame msgs line.read
    let sm := onContext clearOutput s.sm
    let sm := pollRDM line.ctrlSignal (frame.map (·.2)) sm
    { sm
      device := s.device.receive line sm.context.sent
      processed :=
        s.processed ++ sm.context.processed.map fun content =>
          ((frame.map (·.1)).getD 0, content.tail) }
  | .setStatus status => { s with sm := onContext ({ · with status }) s.sm }

/-- The start of a run: the driver enters its first state, and the device goes on from
some block number. -/
def State.start (memory : JcmBillAcceptData) (block : Fin 10) : State :=
  { sm := gotoState (rdmStates none) ⟨.first, memory⟩ .first
    device := ⟨0, 0x30 + UInt8.ofNat block, none⟩
    processed := [] }

/-! ## The results -/

def isResult (msg : List UInt8) : Prop := msg.getD 0 0 = RDM_DEPOSIT_COUNT_RESULT_CMD

instance (msg : List UInt8) : Decidable (isResult msg) :=
  inferInstanceAs (Decidable (_ = _))

/-- The results of deposit counts among the first `n` messages. -/
def results (n : Nat) : List (Nat × List UInt8) :=
  ((List.range n).filter fun i => isResult (msgs i)).map fun i => (i, msgs i)

/-- The results processed are those of the messages acknowledged, once each and in order,
and perhaps that of the message the device is sending. -/
def ProcessedOnce (s : State) : Prop :=
  s.processed = results msgs s.device.next ∨ s.processed = results msgs (s.device.next + 1)

instance (s : State) : Decidable (ProcessedOnce msgs s) :=
  inferInstanceAs (Decidable (_ ∨ _))

/-- The message that the device is sending has not been processed. -/
def Unprocessed (s : State) : Prop := s.device.next ∉ s.processed.map (·.1)

instance (s : State) : Decidable (Unprocessed s) := inferInstanceAs (Decidable (¬ _))

/-- A result that has not been processed is read in a state that processes it and under
another number than the one before the number expected, and is not acknowledged on account
of a late copy of the message before. -/
def InStep (s : State) : Op → Prop
  | .poll line =>
    isResult (msgs s.device.next) → Unprocessed s →
      match line.read with
      | .nothing => True
      | .frame =>
        s.sm.currentState ≠ .first ∧ s.sm.context.recBlockNo ≠ getNextBlockNo s.device.block
      | .late => s.device.late = none ∨ line.ack = false
  | .setStatus _ => True

instance decidableInStep (s : State) : (op : Op) → Decidable (InStep msgs s op)
  | .poll ⟨.nothing, _, _, _⟩ => isTrue fun _ _ => trivial
  | .poll ⟨.frame, _, _, _⟩ =>
    inferInstanceAs (Decidable (isResult _ → Unprocessed s → _ ∧ _))
  | .poll ⟨.late, ack, _, _⟩ =>
    inferInstanceAs (Decidable (isResult _ → Unprocessed s → _ ∨ ack = false))
  | .setStatus _ => isTrue trivial

/-! ## Transitions -/

section Tables

variable {ctrlSignal} {event e : UInt8} {guard : JcmBillAcceptData → Bool}
  {action : JcmBillAcceptData → JcmBillAcceptData} {next : RdmState}
  {ts : List RdmTransition} {c c' : JcmBillAcceptData}

theorem findTransition_other (other : e ≠ event) :
    findTransition event (row (some e) guard action next :: ts) c =
      findTransition event ts c := by
  rw [findTransition, if_neg]
  simp [Transition.Fits, row, other]

theorem findTransition_own (holds : guard c = true) :
    findTransition event (row (some event) guard action next :: ts) c =
      (some (row (some event) guard action next), c) := by
  simp [findTransition, Transition.Fits, row, test, holds]

theorem findTransition_any (holds : guard c = true) :
    findTransition event (row none guard action next :: ts) c =
      (some (row none guard action next), c) := by
  simp [findTransition, Transition.Fits, row, test, holds]

theorem findTransition_any_fails (fails : guard c = false) :
    findTransition event (row none guard action next :: ts) c = findTransition event ts c := by
  simp [findTransition, Transition.Fits, row, test, fails]

/-- No result is processed and no acknowledgement sent. -/
structure Quiet (c c' : JcmBillAcceptData) : Prop where
  processed : c'.processed = c.processed
  ack : Sent.ack ∈ c'.sent ↔ Sent.ack ∈ c.sent

/-- Besides, the block number expected stays and no reset is sent. -/
structure Calm (c c' : JcmBillAcceptData) : Prop extends Quiet c c' where
  recBlockNo : c'.recBlockNo = c.recBlockNo
  reset : Sent.reset ∈ c'.sent ↔ Sent.reset ∈ c.sent

theorem Quiet.refl (c : JcmBillAcceptData) : Quiet c c := ⟨rfl, Iff.rfl⟩

theorem Quiet.trans {c₁ c₂ c₃ : JcmBillAcceptData} (first : Quiet c₁ c₂) (second : Quiet c₂ c₃) :
    Quiet c₁ c₃ :=
  ⟨second.processed.trans first.processed, second.ack.trans first.ack⟩

theorem Calm.refl (c : JcmBillAcceptData) : Calm c c := ⟨.refl c, rfl, Iff.rfl⟩

theorem Calm.trans {c₁ c₂ c₃ : JcmBillAcceptData} (first : Calm c₁ c₂) (second : Calm c₂ c₃) :
    Calm c₁ c₃ :=
  ⟨first.toQuiet.trans second.toQuiet, second.recBlockNo.trans first.recBlockNo,
    second.reset.trans first.reset⟩

theorem calm_sendNext (cmd : Sent) (ack : cmd ≠ .ack) (reset : cmd ≠ .reset) :
    Calm c (c.sendNext ctrlSignal cmd) :=
  ⟨⟨rfl, by simp [sendNext, rdmSendFrameProcess, ack.symm]⟩, rfl,
    by simp [sendNext, rdmSendFrameProcess, reset.symm]⟩

theorem quiet_sendResetRdm : Quiet c (c.sendResetRdm ctrlSignal) :=
  ⟨rfl, by simp [sendResetRdm, rdmSendFrameProcess]⟩

/-- A transition that fits the event is quiet and does not lead to `receivingBill`. -/
structure QuietRow (event : UInt8) (t : RdmTransition) : Prop where
  guard : t.Fits event → ∀ c, Quiet c (t.guardCondition c).2
  action : t.Fits event → ∀ m, Quiet m.context (t.action m).context ∧
    (t.action m).currentState = m.currentState
  next : t.Fits event → t.nextState ≠ .receivingBill

theorem QuietRow.row (quiet : ∀ c, Quiet c (action c)) (next_ne : next ≠ .receivingBill) :
    QuietRow event (row (some e) guard action next) :=
  ⟨fun _ c => .refl c, fun _ m => ⟨quiet m.context, rfl⟩, fun _ => next_ne⟩

theorem QuietRow.row_any (quiet : ∀ c, Quiet c (action c)) (next_ne : next ≠ .receivingBill) :
    QuietRow event (RdmPoll.row none guard action next) :=
  ⟨fun _ c => .refl c, fun _ m => ⟨quiet m.context, rfl⟩, fun _ => next_ne⟩

theorem QuietRow.row_other (other : event ≠ e) :
    QuietRow event (RdmPoll.row (some e) guard action next) := by
  have misses : ¬ (RdmPoll.row (some e) guard action next).Fits event := by
    simp [Transition.Fits, RdmPoll.row, other.symm]
  exact ⟨fun fits => absurd fits misses, fun fits => absurd fits misses,
    fun fits => absurd fits misses⟩

theorem quiet_errorNeedsReset : Quiet c (errorNeedsReset c).2 := by
  unfold errorNeedsReset
  split
  · exact ⟨rfl, Iff.rfl⟩
  · exact .refl c

variable (ctrlSignal)

theorem rdmStates_quiet (other : event ≠ RDM_DEPOSIT_COUNT_RESULT_CMD) {name : RdmState}
    (name_ne : name ≠ .receivingBill) :
    ∀ t ∈ (rdmStates ctrlSignal name).transitions, QuietRow event t := by
  have stay (c : JcmBillAcceptData) : Quiet c (id c) := .refl c
  have reset (c : JcmBillAcceptData) : Quiet c (sendResetRdm ctrlSignal c) := quiet_sendResetRdm
  have initialization (c : JcmBillAcceptData) : Quiet c (sendInitializationCmd ctrlSignal c) :=
    (calm_sendNext .initialization nofun nofun).toQuiet
  have currency (c : JcmBillAcceptData) : Quiet c (requestCurrencyRDM ctrlSignal c) :=
    (calm_sendNext .requestCurrency nofun nofun).toQuiet
  have deposit (c : JcmBillAcceptData) : Quiet c (sendStartDepositingRdm ctrlSignal c) :=
    (calm_sendNext .startDepositing nofun nofun).toQuiet
  have table (c : JcmBillAcceptData) : Quiet c (processCurrencyTable c) := ⟨rfl, Iff.rfl⟩
  cases name with
  | first =>
    simp only [rdmStates, rdmFirstStateTransitions, forall_mem_cons]
    exact ⟨.row_any stay nofun, nofun⟩
  | initializing =>
    simp only [rdmStates, rdmInitStateTransitions, forall_mem_cons]
    exact ⟨.row_other other, .row stay nofun, .row_any stay nofun, .row_any stay nofun,
      .row stay nofun, .row currency nofun, .row table nofun, .row_any reset nofun,
      .row_any initialization nofun, .row_any currency nofun, .row_any stay nofun,
      .row_any stay nofun, nofun⟩
  | disabled =>
    simp only [rdmStates, rdmDisabledStateTransitions, forall_mem_cons]
    exact ⟨.row_other other, .row_any stay nofun, .row_any stay nofun, .row_any reset nofun,
      .row_any initialization nofun, .row_any stay nofun, .row_any stay nofun, nofun⟩
  | enabled =>
    simp only [rdmStates, rdmEnabledStateTransitions, forall_mem_cons]
    exact ⟨.row_other other, .row_any stay nofun, .row_any stay nofun, .row_any deposit nofun,
      .row_any stay nofun, .row_any reset nofun, .row_any initialization nofun,
      .row_any stay nofun, nofun⟩
  | receivingBill => exact absurd rfl name_ne
  | error =>
    simp only [rdmStates, rdmErrorStateTransitions, forall_mem_cons]
    exact ⟨.row_other other, .row_any stay nofun, .row_any stay nofun, .row_any stay nofun,
      .row stay nofun, .row currency nofun, .row_any reset nofun, .row_any initialization nofun,
      ⟨fun _ c => quiet_errorNeedsReset, fun _ m => ⟨reset m.context, rfl⟩, nofun⟩,
      .row_any stay nofun, nofun⟩

/-- Entering a state keeps all that matters, but for the block number of the first one,
which no transition leads to. -/
theorem entry_quiet (name : RdmState) (m : Machine) :
    Quiet m.context ((rdmStates ctrlSignal name).entry m).context ∧
      ((rdmStates ctrlSignal name).entry m).currentState = m.currentState := by
  cases name <;> exact ⟨⟨rfl, Iff.rfl⟩, rfl⟩

theorem execute_other (other : event ≠ RDM_DEPOSIT_COUNT_RESULT_CMD) {sm : Machine}
    (name_ne : sm.currentState ≠ .receivingBill) :
    Quiet sm.context (executeStateMachine (rdmStates ctrlSignal) sm event).context ∧
      (executeStateMachine (rdmStates ctrlSignal) sm event).currentState ≠ .receivingBill := by
  have quiet := rdmStates_quiet ctrlSignal other name_ne
  refine executeStateMachine_invariant
    (P := fun m : Machine => Quiet sm.context m.context ∧ m.currentState ≠ .receivingBill)
    ?_ ?_ ?_ ?_ ?_ ⟨.refl _, name_ne⟩
  · exact fun t mem fits c kept => ⟨kept.1.trans ((quiet t mem).guard fits c), kept.2⟩
  · exact fun t mem fits c kept => ⟨kept.1, (quiet t mem).next fits⟩
  · intro t mem fits m kept
    have acted := (quiet t mem).action fits m
    exact ⟨kept.1.trans acted.1, acted.2 ▸ kept.2⟩
  · intro name m kept
    have entered := entry_quiet ctrlSignal name m
    exact ⟨kept.1.trans entered.1, entered.2 ▸ kept.2⟩
  · intro name m kept
    cases name <;> exact kept

theorem execute_result {sm : Machine} (name_ne : sm.currentState ≠ .receivingBill)
    (first : sm.currentState ≠ .first) :
    (executeStateMachine (rdmStates ctrlSignal) sm RDM_DEPOSIT_COUNT_RESULT_CMD).context =
        sm.context.notifyBillsAccepted ∧
      (executeStateMachine (rdmStates ctrlSignal) sm
        RDM_DEPOSIT_COUNT_RESULT_CMD).currentState ≠ .receivingBill := by
  rcases sm with ⟨name, c⟩
  cases name with
  | first => exact absurd rfl first
  | receivingBill => exact absurd rfl name_ne
  | initializing =>
    simp only [executeStateMachine, takeTransition, rdmStates, rdmInitStateTransitions,
      findTransition_own]
    exact ⟨rfl, nofun⟩
  | disabled =>
    simp only [executeStateMachine, takeTransition, rdmStates, rdmDisabledStateTransitions,
      findTransition_own]
    exact ⟨rfl, nofun⟩
  | enabled =>
    simp only [executeStateMachine, takeTransition, rdmStates, rdmEnabledStateTransitions,
      findTransition_own]
    exact ⟨rfl, nofun⟩
  | error =>
    simp only [executeStateMachine, takeTransition, rdmStates, rdmErrorStateTransitions,
      findTransition_own]
    exact ⟨rfl, nofun⟩

/-- A communication error sends no reset: in every state a transition comes first that
does not. -/
theorem execute_commError {sm : Machine} (name_ne : sm.currentState ≠ .receivingBill)
    (error : sm.context.errorCause = ID003_COMM_ERROR.toUInt32) :
    Calm sm.context
      (executeStateMachine (rdmStates ctrlSignal) sm ID003_COMM_ERROR).context := by
  rcases sm with ⟨name, c⟩
  change c.errorCause = ID003_COMM_ERROR.toUInt32 at error
  have result : RDM_DEPOSIT_COUNT_RESULT_CMD ≠ ID003_COMM_ERROR := by decide
  have request : RDM_REQ_LAST_DEPOSIT_CMD ≠ ID003_COMM_ERROR := by decide
  have nonzero : ID003_COMM_ERROR.toUInt32 ≠ 0 := by decide
  have detected : errorDetectedRdm c = true := by simp [errorDetectedRdm, error, nonzero]
  cases name with
  | receivingBill => exact absurd rfl name_ne
  | first => exact .refl c
  | initializing =>
    simp only [executeStateMachine, takeTransition, rdmStates, rdmInitStateTransitions,
      findTransition_other result, findTransition_other request, findTransition_any detected]
    exact ⟨⟨rfl, Iff.rfl⟩, rfl, Iff.rfl⟩
  | disabled =>
    simp only [executeStateMachine, takeTransition, rdmStates, rdmDisabledStateTransitions,
      findTransition_other result]
    cases busy : isRDMStatusBusy c with
    | true =>
      rw [findTransition_any busy]
      exact .refl c
    | false =>
      rw [findTransition_any_fails busy, findTransition_any detected]
      exact ⟨⟨rfl, Iff.rfl⟩, rfl, Iff.rfl⟩
  | enabled =>
    simp only [executeStateMachine, takeTransition, rdmStates, rdmEnabledStateTransitions,
      findTransition_other result]
    cases disable : isJCMDisable c with
    | true =>
      rw [findTransition_any disable]
      exact .refl c
    | false =>
      rw [findTransition_any_fails disable]
      cases busy : isRDMStatusBusy c with
      | true =>
        rw [findTransition_any busy]
        exact .refl c
      | false =>
        rw [findTransition_any_fails busy]
        cases prepared : isPreparedforDepositing c with
        | true =>
          rw [findTransition_any prepared]
          exact calm_sendNext .startDepositing nofun nofun
        | false =>
          rw [findTransition_any_fails prepared, findTransition_any detected]
          exact ⟨⟨rfl, Iff.rfl⟩, rfl, Iff.rfl⟩
  | error =>
    have ended : endErrorDetectedRdm c = false := by simp [endErrorDetectedRdm, error, nonzero]
    have communication : isOnCommunicationError c = true := by
      simp [isOnCommunicationError, error]
    simp only [executeStateMachine, takeTransition, rdmStates, rdmErrorStateTransitions,
      findTransition_other result, findTransition_any_fails ended, findTransition_any communication]
    exact .refl c

theorem pollEnd_calm {sm : Machine} (name_ne : sm.currentState ≠ .receivingBill) :
    Calm sm.context (pollEnd ctrlSignal sm).context ∧
      (pollEnd ctrlSignal sm).currentState ≠ .receivingBill := by
  have error : Calm sm.context { sm.context with errorCause := ID003_COMM_ERROR.toUInt32 } :=
    ⟨⟨rfl, Iff.rfl⟩, rfl, Iff.rfl⟩
  have other : ID003_COMM_ERROR ≠ RDM_DEPOSIT_COUNT_RESULT_CMD := by decide
  unfold pollEnd
  dsimp only
  split
  · have name : (onContext ({ · with errorCause := ID003_COMM_ERROR.toUInt32 }) sm).currentState ≠
        .receivingBill := name_ne
    exact ⟨error.trans (execute_commError ctrlSignal name rfl),
      (execute_other ctrlSignal other name).2⟩
  · exact ⟨.refl _, name_ne⟩

theorem pollRDM_calm {dataEvPtr : Option (List UInt8)} {sm : Machine}
    (name_ne : (pollBody ctrlSignal dataEvPtr sm).currentState ≠ .receivingBill) :
    Calm (pollBody ctrlSignal dataEvPtr sm).context (pollRDM ctrlSignal dataEvPtr sm).context ∧
      (pollRDM ctrlSignal dataEvPtr sm).currentState ≠ .receivingBill := by
  unfold pollRDM
  dsimp only
  split
  · exact ⟨.refl _, name_ne⟩
  · exact pollEnd_calm ctrlSignal name_ne

end Tables

/-! ## A pass of the loop -/

section Pass

variable {ctrlSignal} {sm : Machine} {block : UInt8} {msg : List UInt8}

theorem getNextBlockNo_ne (b : UInt8) : getNextBlockNo b ≠ b := by
  unfold getNextBlockNo
  split
  case isTrue last => simp [last]
  case isFalse => simp

theorem pollRDM_nothing (name_ne : sm.currentState ≠ .receivingBill) :
    Calm sm.context (pollRDM ctrlSignal none sm).context ∧
      (pollRDM ctrlSignal none sm).currentState ≠ .receivingBill := by
  have body : Calm sm.context (pollBody ctrlSignal none sm).context :=
    ⟨⟨rfl, by simp [pollBody, onContext, write]⟩, rfl, by simp [pollBody, onContext, write]⟩
  have ended := pollRDM_calm ctrlSignal (show
    (pollBody ctrlSignal none sm).currentState ≠ .receivingBill from name_ne)
  exact ⟨body.trans ended.1, ended.2⟩

theorem pollRDM_repetition (name_ne : sm.currentState ≠ .receivingBill)
    (expected : sm.context.recBlockNo = getNextBlockNo block) :
    ∃ m, pollRDM ctrlSignal (some (block :: msg)) sm = m ∧
      m.context.processed = sm.context.processed ∧
      m.context.recBlockNo = sm.context.recBlockNo ∧
      (.reset ∈ m.context.sent ↔ .reset ∈ sm.context.sent) ∧
      m.currentState ≠ .receivingBill := by
  have body : pollBody ctrlSignal (some (block :: msg)) sm =
      onContext (write .ack) (onContext ({ · with dataEvPtr := some (block :: msg) }) sm) := by
    simp [pollBody, onContext, expected, getNextBlockNo_ne]
  have ended := pollRDM_calm ctrlSignal (show
    (pollBody ctrlSignal (some (block :: msg)) sm).currentState ≠ .receivingBill from
      body ▸ name_ne)
  rw [body] at ended
  refine ⟨_, rfl, ended.1.processed, ended.1.recBlockNo, ?_, ended.2⟩
  rw [ended.1.reset]
  simp [onContext, write]

theorem pollRDM_result (name_ne : sm.currentState ≠ .receivingBill)
    (first : sm.currentState ≠ .first) (result : isResult msg)
    (new : sm.context.recBlockNo ≠ getNextBlockNo block) :
    ∃ m, pollRDM ctrlSignal (some (block :: msg)) sm = m ∧
      m.context.processed = sm.context.processed ++ [block :: msg] ∧
      m.context.recBlockNo = getNextBlockNo block ∧
      (.reset ∈ m.context.sent ↔ .reset ∈ sm.context.sent) ∧
      m.currentState ≠ .receivingBill := by
  have cmd : (block :: msg).getD 1 0 = RDM_DEPOSIT_COUNT_RESULT_CMD := result
  have body : ∃ m, pollBody ctrlSignal (some (block :: msg)) sm = m ∧
      m.context.processed = sm.context.processed ++ [block :: msg] ∧
      m.context.recBlockNo = getNextBlockNo block ∧
      (.reset ∈ m.context.sent ↔ .reset ∈ sm.context.sent) ∧
      m.currentState ≠ .receivingBill := by
    have executed (c : JcmBillAcceptData) :=
      @execute_result ctrlSignal ⟨sm.currentState, c⟩ name_ne first
    refine ⟨_, rfl, ?_⟩
    by_cases expected : sm.context.recBlockNo = block
    · -- in turn: processed before it is acknowledged
      simp only [pollBody, cmd, onContext, getD_cons_zero, expected, if_true, (executed _).1]
      exact ⟨rfl, rfl, by simp [write, notifyBillsAccepted, doProcessStatusRdm], (executed _).2⟩
    · -- out of turn: acknowledged first, with the status of the message before
      simp only [pollBody, cmd, onContext, getD_cons_zero, if_neg expected, if_neg new,
        (executed _).1]
      exact ⟨rfl, rfl, by simp [write, notifyBillsAccepted], (executed _).2⟩
  obtain ⟨m, eq, processed, recBlockNo, reset, name⟩ := body
  have ended := pollRDM_calm ctrlSignal (show
    (pollBody ctrlSignal (some (block :: msg)) sm).currentState ≠ .receivingBill from
      eq ▸ name)
  rw [eq] at ended
  exact ⟨_, rfl, ended.1.processed.trans processed, ended.1.recBlockNo.trans recBlockNo,
    ended.1.reset.trans reset, ended.2⟩

theorem pollRDM_other (name_ne : sm.currentState ≠ .receivingBill) (other : ¬ isResult msg) :
    (pollRDM ctrlSignal (some (block :: msg)) sm).context.processed = sm.context.processed ∧
      (pollRDM ctrlSignal (some (block :: msg)) sm).currentState ≠ .receivingBill := by
  have cmd : (block :: msg).getD 1 0 ≠ RDM_DEPOSIT_COUNT_RESULT_CMD := other
  have executed (c : JcmBillAcceptData) :=
    @execute_other ctrlSignal _ cmd ⟨sm.currentState, c⟩ name_ne
  have body : ∃ m, pollBody ctrlSignal (some (block :: msg)) sm = m ∧
      m.context.processed = sm.context.processed ∧ m.currentState ≠ .receivingBill := by
    refine ⟨_, rfl, ?_⟩
    simp only [pollBody, onContext, getD_cons_zero]
    rw [if_neg cmd]
    split
    · exact ⟨(executed _).1.processed, (executed _).2⟩
    · split
      · exact ⟨rfl, name_ne⟩
      · exact ⟨(executed _).1.processed, (executed _).2⟩
  obtain ⟨m, eq, processed, name⟩ := body
  have ended := pollRDM_calm ctrlSignal (show
    (pollBody ctrlSignal (some (block :: msg)) sm).currentState ≠ .receivingBill from
      eq ▸ name)
  rw [eq] at ended
  exact ⟨ended.1.processed.trans processed, ended.2⟩

end Pass

/-! ## The invariant -/

section Run

variable {msgs} {s : State} {sm : Machine} {line : Line}

theorem results_succ (n : Nat) :
    results msgs (n + 1) = results msgs n ++ if isResult (msgs n) then [(n, msgs n)] else [] := by
  unfold results
  rw [range_succ, filter_append, map_append]
  split <;> simp_all

theorem results_succ_of_not {n : Nat} (other : ¬ isResult (msgs n)) :
    results msgs (n + 1) = results msgs n := by
  rw [results_succ, if_neg other, append_nil]

theorem unprocessed_of_eq (processed : s.processed = results msgs s.device.next) :
    Unprocessed s := by
  unfold Unprocessed
  rw [processed]
  simp [results]

/-- The results are processed up to the message the device sends, or with it; in the
latter case its repetition will be known by its number, and likewise a late copy of the
result before. -/
structure Synced (msgs : Nat → List UInt8) (s : State) : Prop where
  name : s.sm.currentState ≠ .receivingBill
  processed : s.processed = results msgs s.device.next ∨
    s.processed = results msgs (s.device.next + 1) ∧
      s.sm.context.recBlockNo = getNextBlockNo s.device.block
  late : ∀ block ∈ s.device.late, s.processed = results msgs s.device.next ∧
    (isResult (msgs (s.device.next - 1)) → s.sm.context.recBlockNo = getNextBlockNo block)

theorem Device.receive_cases (device : Device) (line : Line) (sent : List Sent) :
    (line.ack ∧ (device.receive line sent).next = device.next + 1 ∧
      (device.receive line sent).late = some device.block) ∨
    ((device.receive line sent).next = device.next ∧
      (device.receive line sent).late = (if line.read = .frame then none else device.late) ∧
      (.reset ∉ sent → (device.receive line sent).block = device.block)) := by
  unfold Device.receive
  by_cases ack : Sent.ack ∈ sent ∧ line.ack = true <;>
    by_cases reset : Sent.reset ∈ sent ∧ line.reset = true <;>
    by_cases frame : line.read = .frame <;> simp [ack, reset, frame]

theorem Device.receive_nothing (device : Device) {line : Line} {sent : List Sent}
    (read : line.read ≠ .frame) (ack : .ack ∉ sent) (reset : .reset ∉ sent) :
    device.receive line sent = device := by
  simp [Device.receive, read, ack, reset]

theorem Synced.of_frame {device : Device} {processed : List (Nat × List UInt8)}
    (name : sm.currentState ≠ .receivingBill) (read : line.read = .frame)
    (done : processed = results msgs (device.next + 1))
    (result : isResult (msgs device.next) →
      sm.context.recBlockNo = getNextBlockNo device.block ∧ .reset ∉ sm.context.sent) :
    Synced msgs ⟨sm, device.receive line sm.context.sent, processed⟩ := by
  rcases Device.receive_cases device line sm.context.sent with
    ⟨-, next, late⟩ | ⟨next, late, block⟩
  · refine ⟨name, Or.inl (next ▸ done), fun b mem => ?_⟩
    dsimp only at mem ⊢
    rw [late] at mem
    cases mem
    rw [next, Nat.add_sub_cancel]
    exact ⟨done, fun isRes => (result isRes).1⟩
  · refine ⟨name, ?_, fun b mem => ?_⟩
    · dsimp only
      rw [next]
      by_cases isRes : isResult (msgs device.next)
      · exact Or.inr ⟨done, block (result isRes).2 ▸ (result isRes).1⟩
      · exact Or.inl (done.trans (results_succ_of_not isRes))
    · simp [late, read] at mem

theorem Synced.of_late {device : Device} {processed : List (Nat × List UInt8)} {block : UInt8}
    (name : sm.currentState ≠ .receivingBill) (read : line.read ≠ .frame)
    (late : device.late = some block) (done : processed = results msgs device.next)
    (before : isResult (msgs (device.next - 1)) → sm.context.recBlockNo = getNextBlockNo block)
    (skipped : line.ack → ¬ isResult (msgs device.next)) :
    Synced msgs ⟨sm, device.receive line sm.context.sent, processed⟩ := by
  rcases Device.receive_cases device line sm.context.sent with
    ⟨ack, next, late'⟩ | ⟨next, late', -⟩
  · have succ := done.trans (results_succ_of_not (skipped ack)).symm
    refine ⟨name, Or.inl (next ▸ succ), fun b mem => ?_⟩
    dsimp only at mem ⊢
    rw [next, Nat.add_sub_cancel]
    exact ⟨succ, fun isRes => absurd isRes (skipped ack)⟩
  · refine ⟨name, Or.inl (next ▸ done), fun b mem => ?_⟩
    dsimp only at mem ⊢
    rw [late', if_neg read, late] at mem
    cases mem
    rw [next]
    exact ⟨done, before⟩

theorem step_poll {i : Nat} {content : List UInt8}
    (frame : s.device.frame msgs line.read = some (i, content)) :
    ∃ m, pollRDM line.ctrlSignal (some content)
        (onContext clearOutput s.sm) = m ∧
      step msgs (.poll line) s = ⟨m, s.device.receive line m.context.sent,
        s.processed ++ m.context.processed.map fun content => (i, content.tail)⟩ := by
  refine ⟨_, rfl, ?_⟩
  simp only [step, frame]
  rfl

theorem Synced.poll_nothing (inv : Synced msgs s) (frame : s.device.frame msgs line.read = none)
    (read : line.read ≠ .frame) : Synced msgs (step msgs (.poll line) s) := by
  have name : (onContext clearOutput s.sm).currentState ≠
      .receivingBill := inv.name
  have calm := @pollRDM_nothing line.ctrlSignal _ name
  have same : step msgs (.poll line) s =
      ⟨pollRDM line.ctrlSignal none (onContext clearOutput s.sm),
        s.device, s.processed⟩ := by
    simp only [step, frame, Option.map_none]
    rw [Device.receive_nothing _ read (calm.1.ack.not.mpr not_mem_nil)
      (calm.1.reset.not.mpr not_mem_nil), calm.1.processed]
    simp [onContext, clearOutput]
  rw [same]
  refine ⟨calm.2, ?_, ?_⟩
  · rw [calm.1.recBlockNo]
    exact inv.processed
  · rw [calm.1.recBlockNo]
    exact inv.late

theorem Synced.poll_frame (inv : Synced msgs s) (inStep : InStep msgs s (.poll line))
    (read : line.read = .frame) : Synced msgs (step msgs (.poll line) s) := by
  have name : (onContext clearOutput s.sm).currentState ≠
      .receivingBill := inv.name
  have frame : s.device.frame msgs line.read =
      some (s.device.next, s.device.block :: msgs s.device.next) := by
    rw [read]
    rfl
  obtain ⟨m, polled, next⟩ := step_poll frame
  rw [next]
  rcases inv.processed with fresh | ⟨done, expected⟩
  · by_cases result : isResult (msgs s.device.next)
    · -- a new result
      simp only [InStep, read] at inStep
      rcases inStep result (unprocessed_of_eq fresh) with ⟨first, new⟩
      obtain ⟨_, rfl, processed, recBlockNo, reset, name'⟩ :=
        @pollRDM_result line.ctrlSignal _ _ _ name first result new
      rw [polled] at processed recBlockNo reset name'
      refine .of_frame name' read ?_ fun _ => ⟨recBlockNo, by simp [reset, onContext, clearOutput]⟩
      rw [results_succ, if_pos result, processed, fresh]
      rfl
    · rcases @pollRDM_other line.ctrlSignal _ s.device.block _ name result
        with ⟨processed, name'⟩
      rw [polled] at processed name'
      refine .of_frame name' read ?_ fun isRes => absurd isRes result
      rw [results_succ_of_not result, processed, fresh]
      simp [onContext, clearOutput]
  · -- a repetition
    obtain ⟨_, rfl, processed, recBlockNo, reset, name'⟩ :=
      @pollRDM_repetition line.ctrlSignal _ _ (msgs s.device.next) name expected
    rw [polled] at processed recBlockNo reset name'
    refine .of_frame name' read ?_ fun _ =>
      ⟨recBlockNo.trans expected, by simp [reset, onContext, clearOutput]⟩
    rw [processed, done]
    simp [onContext, clearOutput]

theorem Synced.poll_late {block : UInt8} (inv : Synced msgs s)
    (inStep : InStep msgs s (.poll line)) (read : line.read = .late)
    (late : s.device.late = some block) : Synced msgs (step msgs (.poll line) s) := by
  have name : (onContext clearOutput s.sm).currentState ≠
      .receivingBill := inv.name
  rcases inv.late block late with ⟨fresh, expected⟩
  have frame : s.device.frame msgs line.read =
      some (s.device.next - 1, block :: msgs (s.device.next - 1)) := by
    rw [read]
    simp [Device.frame, late]
  have skipped (ack : line.ack = true) : ¬ isResult (msgs s.device.next) := by
    intro result
    simp only [InStep, read] at inStep
    rcases inStep result (unprocessed_of_eq fresh) with none | lost
    · rw [late] at none
      cases none
    · rw [ack] at lost
      cases lost
  have read_ne : line.read ≠ .frame := by simp [read]
  obtain ⟨m, polled, next⟩ := step_poll frame
  rw [next]
  by_cases result : isResult (msgs (s.device.next - 1))
  · obtain ⟨_, rfl, processed, recBlockNo, -, name'⟩ :=
      @pollRDM_repetition line.ctrlSignal _ _ (msgs (s.device.next - 1)) name
        (expected result)
    rw [polled] at processed recBlockNo name'
    refine .of_late name' read_ne late ?_ (fun _ => recBlockNo.trans (expected result)) skipped
    rw [processed, fresh]
    simp [onContext, clearOutput]
  · rcases @pollRDM_other line.ctrlSignal _ block _ name result
      with ⟨processed, name'⟩
    rw [polled] at processed name'
    refine .of_late name' read_ne late ?_ (fun isRes => absurd isRes result) skipped
    rw [processed, fresh]
    simp [onContext, clearOutput]

theorem Synced.step {op : Op} (inv : Synced msgs s) (inStep : InStep msgs s op) :
    Synced msgs (RdmPoll.step msgs op s) := by
  cases op with
  | setStatus => exact ⟨inv.name, inv.processed, inv.late⟩
  | poll line =>
    cases read : line.read with
    | nothing => exact inv.poll_nothing (by rw [read]; rfl) (by simp [read])
    | frame => exact inv.poll_frame inStep read
    | late =>
      cases late : s.device.late with
      | none => exact inv.poll_nothing (by simp [read, Device.frame, late]) (by simp [read])
      | some => exact inv.poll_late inStep read late

theorem Synced.start (memory : JcmBillAcceptData) (block : Fin 10) :
    Synced msgs (State.start memory block) :=
  ⟨nofun, Or.inl rfl, nofun⟩

theorem Synced.processedOnce (inv : Synced msgs s) : ProcessedOnce msgs s :=
  inv.processed.imp_right And.left

/-- In every run in which no result comes in too early or under the number before the one
expected, and none is acknowledged unread, the results are processed once each and in
order, whatever frames, acknowledgements and resets get lost or repeated. -/
theorem run_processedOnce {memory : JcmBillAcceptData} {block : Fin 10} {ops : List Op}
    (inStep : Trace.Always (RdmPoll.step msgs) (InStep msgs) ops (.start memory block)) :
    ProcessedOnce msgs (Trace.after (RdmPoll.step msgs) ops (.start memory block)) :=
  (Trace.Always.after_of_invariant (Synced msgs) (fun inv ok => inv.step ok)
    (Synced.start memory block) inStep).processedOnce

end Run

/-- Memory before the driver starts, all zero. -/
def zeroMemory : JcmBillAcceptData :=
  ⟨0, 0, 0, 0, 0, [], false, 0, .disable, none, [], []⟩

/-- A result comes in second, and is repeated since its acknowledgement gets lost. -/
theorem run_processedOnce_repetition :
    ProcessedOnce (fun i => if i = 1 then [0x42] else [0x40])
      (Trace.after (step fun i => if i = 1 then [0x42] else [0x40])
        [.poll ⟨.frame, true, true, none⟩, .poll ⟨.frame, false, true, none⟩,
         .poll ⟨.nothing, true, true, none⟩, .poll ⟨.frame, true, true, none⟩]
        (.start zeroMemory 7)) :=
  run_processedOnce (by decide)

/-- The first message that the driver reads is a result: it is acknowledged but not
processed. -/
theorem not_processedOnce_first :
    ¬ ∀ (msgs : Nat → List UInt8) (memory : JcmBillAcceptData) (block : Fin 10) (ops : List Op),
      ProcessedOnce msgs (Trace.after (step msgs) ops (.start memory block)) := by
  intro every
  have first := every (fun _ => [0x42]) zeroMemory 0 [.poll ⟨.frame, true, true, none⟩]
  revert first
  decide

end CimArm.RdmPoll
