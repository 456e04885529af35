import CimArm.Telesup.DmodemWrite
import CimArm.Telesup.ProtoLoop

/-!
# dmodem: connecting and disconnecting

Two operations that send a pair of bytes and wait for a pair that answers it.  They count their
retries in the state of the handle, and neither `conn_init` nor `disconn_init` clears the count.

The states and events of all operations are numbers of two enumerations.  `dmodem_disconnect`
starts the engine with `SENDEOT_DISCONNEVT`, which is one of the events; so the numbers are kept
there.
-/

namespace CimArm.Dmodem

/-- `DMConnectCurrState` and `DMDisconnectCurrState`, with the error of the handle and what has
been given to `send_buf`. -/
structure DMConnectCurrState : Type where
  retransNo : Nat
  globalError : DmodemError
  sent : List UInt8
  deriving DecidableEq

section

variable {Ev : Type}

/-- Two bytes are sent. -/
def sendPair (bytes : List UInt8) (failed : Ev) (sendBuf : Bool) (c : DMConnectCurrState) :
    Option Ev × DMConnectCurrState :=
  if sendBuf then (none, { c with sent := c.sent ++ bytes })
  else (some failed, { c with globalError := .fatal })

/-- A retry is counted. -/
def prepareRetrans (conf : DModemConfig) (more noMore : Ev) (c : DMConnectCurrState) :
    Option Ev × DMConnectCurrState :=
  (if (c.retransNo + 1 : Int) < conf.maxRetries then some more else some noMore,
    { c with retransNo := c.retransNo + 1 })

def exitWith (error : DmodemError) (c : DMConnectCurrState) : Option Ev × DMConnectCurrState :=
  (none, { c with globalError := error })

def connNone (c : DMConnectCurrState) : Option Ev × DMConnectCurrState := (none, c)

/-- `wevent` of an operation that sends: a byte, the carrier, or a timer. -/
def txWaitEvent {S : Type} (eventOf : UInt8 → Ev) (uplayerTo frameTo : Ev) (poll : Poll)
    (timers : Timers) (s : S) : Option Ev × Timers × S :=
  let timers := timers.expire poll
  match poll.received with
  | .byte b => (some (eventOf b), timers, s)
  | .none | .timeout =>
    if poll.carrier = false then (some uplayerTo, timers, s)
    else if timers.uplayerExpired then
      (some uplayerTo, { timers with uplayerExpired := false }, s)
    else if timers.frameExpired then (some frameTo, { timers with frameExpired := false }, s)
    else (none, timers, s)

end

/-! ## Connecting -/

inductive ConnState : Type
  | exit
  | start
  | synSended
  | ctrlRetrans
  | nackRcv
  deriving DecidableEq

inductive ConnEvent : Type
  | sendSyn
  | unByte
  | txFrameTo
  | txUplayerTo
  | nack
  | synSendedErr
  | moreRetrans
  | noMoreRetrans
  | nackComp
  deriving DecidableEq

def connSendSyn (sendBuf : Bool) :
    DMConnectCurrState → Option ConnEvent × DMConnectCurrState :=
  sendPair [DM_SYN, DM_SYNCOMP] .synSendedErr sendBuf

def connPrepareRetrans (conf : DModemConfig) :
    DMConnectCurrState → Option ConnEvent × DMConnectCurrState :=
  prepareRetrans conf .moreRetrans .noMoreRetrans

def connTransitions (conf : DModemConfig) (sendBuf : Bool) :
    List (ProtoTransition ConnState ConnEvent DMConnectCurrState) := [
  ⟨.start, .sendSyn, .synSended, connSendSyn sendBuf⟩,
  ⟨.synSended, .unByte, .synSended, connNone⟩,
  ⟨.synSended, .txFrameTo, .ctrlRetrans, connPrepareRetrans conf⟩,
  ⟨.synSended, .txUplayerTo, .exit, exitWith .txUplayerTo⟩,
  ⟨.synSended, .nack, .nackRcv, connNone⟩,
  ⟨.synSended, .synSendedErr, .exit, exitWith .fatal⟩,
  ⟨.ctrlRetrans, .moreRetrans, .synSended, connSendSyn sendBuf⟩,
  ⟨.ctrlRetrans, .noMoreRetrans, .exit, exitWith .maxRetries⟩,
  ⟨.ctrlRetrans, .txUplayerTo, .exit, exitWith .txUplayerTo⟩,
  ⟨.nackRcv, .nackComp, .exit, exitWith .noError⟩,
  ⟨.nackRcv, .unByte, .synSended, connNone⟩,
  ⟨.nackRcv, .txFrameTo, .ctrlRetrans, connPrepareRetrans conf⟩,
  ⟨.nackRcv, .txUplayerTo, .exit, exitWith .txUplayerTo⟩]

def connEventOf (b : UInt8) : ConnEvent :=
  if b = DM_NACK then .nack else if b = DM_NACK_COMP then .nackComp else .unByte

/-- `conn_init`; that nothing could be sent is not looked at. -/
def connInit (sendBuf : Bool) (c : DMConnectCurrState) : DMConnectCurrState :=
  (connSendSyn sendBuf { c with globalError := .noError }).2

/-! ## Disconnecting -/

def EXIT_ST : Nat := 1

def START_DISCONNST : Nat := 30

def EOTSENDED_DISCONNST : Nat := 31

def CTRLRETRANS_DISCONNST : Nat := 32

def ACKRCV_DISCONNST : Nat := 33

def SENDEOT_DISCONNEVT : Nat := 46

def UNBYTE_DISCONNEVT : Nat := 47

def TXFRAMETO_DISCONNEVT : Nat := 48

def TXUPLAYERTO_DISCONNEVT : Nat := 49

def ACK_DISCONNEVT : Nat := 50

def EOT_SENDEDERR_DISCONNEVT : Nat := 51

def MORERETRANS_DISCONNEVT : Nat := 52

def NOMORERETRANS_DISCONNEVT : Nat := 53

def ACKCOMP_DISCONNEVT : Nat := 54

def disconnSendEot (sendBuf : Bool) : DMConnectCurrState → Option Nat × DMConnectCurrState :=
  sendPair [DM_EOT, DM_EOTCOMP] EOT_SENDEDERR_DISCONNEVT sendBuf

def disconnPrepareRetrans (conf : DModemConfig) :
    DMConnectCurrState → Option Nat × DMConnectCurrState :=
  prepareRetrans conf MORERETRANS_DISCONNEVT NOMORERETRANS_DISCONNEVT

def disconnectTransitions (conf : DModemConfig) (sendBuf : Bool) :
    List (ProtoTransition Nat Nat DMConnectCurrState) := [
  ⟨START_DISCONNST, SENDEOT_DISCONNEVT, EOTSENDED_DISCONNST, disconnSendEot sendBuf⟩,
  ⟨EOTSENDED_DISCONNST, UNBYTE_DISCONNEVT, EOTSENDED_DISCONNST, connNone⟩,
  ⟨EOTSENDED_DISCONNST, TXFRAMETO_DISCONNEVT, CTRLRETRANS_DISCONNST, disconnPrepareRetrans conf⟩,
  ⟨EOTSENDED_DISCONNST, TXUPLAYERTO_DISCONNEVT, EXIT_ST, exitWith .txUplayerTo⟩,
  ⟨EOTSENDED_DISCONNST, ACK_DISCONNEVT, ACKRCV_DISCONNST, connNone⟩,
  ⟨EOTSENDED_DISCONNST, EOT_SENDEDERR_DISCONNEVT, EXIT_ST, exitWith .fatal⟩,
  ⟨CTRLRETRANS_DISCONNST, MORERETRANS_DISCONNEVT, EOTSENDED_DISCONNST, disconnSendEot sendBuf⟩,
  ⟨CTRLRETRANS_DISCONNST, NOMORERETRANS_DISCONNEVT, EXIT_ST, exitWith .maxRetries⟩,
  ⟨CTRLRETRANS_DISCONNST, TXUPLAYERTO_DISCONNEVT, EXIT_ST, exitWith .txUplayerTo⟩,
  ⟨ACKRCV_DISCONNST, ACKCOMP_DISCONNEVT, EXIT_ST, exitWith .noError⟩,
  ⟨ACKRCV_DISCONNST, UNBYTE_DISCONNEVT, EOTSENDED_DISCONNST, connNone⟩,
  ⟨ACKRCV_DISCONNST, TXFRAMETO_DISCONNEVT, CTRLRETRANS_DISCONNST, disconnPrepareRetrans conf⟩,
  ⟨ACKRCV_DISCONNST, TXUPLAYERTO_DISCONNEVT, EXIT_ST, exitWith .txUplayerTo⟩]

def disconnEventOf (b : UInt8) : Nat :=
  if b = DM_ACK then ACK_DISCONNEVT
  else if b = DM_ACK_COMP then ACKCOMP_DISCONNEVT
  else UNBYTE_DISCONNEVT

def disconnInit (sendBuf : Bool) (c : DMConnectCurrState) : DMConnectCurrState :=
  (disconnSendEot sendBuf { c with globalError := .noError }).2

/-! ## `wevent` -/

section

variable {S Ev : Type} {eventOf : UInt8 → Ev} {uplayerTo frameTo : Ev} {poll : Poll}
  {timers : Timers} {s : S}

theorem txWaitEvent_byte {b : UInt8} (received : poll.received = .byte b) :
    txWaitEvent eventOf uplayerTo frameTo poll timers s =
      (some (eventOf b), timers.expire poll, s) := by
  unfold txWaitEvent
  rw [received]

theorem txWaitEvent_expired (none : ∀ b, poll.received ≠ .byte b)
    (expired : (timers.expire poll).uplayerExpired = true) :
    (txWaitEvent eventOf uplayerTo frameTo poll timers s).1 = some uplayerTo := by
  have read : (if poll.carrier = false then (some uplayerTo, timers.expire poll, s)
      else if (timers.expire poll).uplayerExpired then
        (some uplayerTo, { timers.expire poll with uplayerExpired := false }, s)
      else if (timers.expire poll).frameExpired then
        (some frameTo, { timers.expire poll with frameExpired := false }, s)
      else (Option.none, timers.expire poll, s)).1 = some uplayerTo := by
    rw [if_pos expired]
    split
    · rfl
    · rfl
  unfold txWaitEvent
  cases received : poll.received with
  | byte b => exact absurd received (none b)
  | none | timeout => exact read

end

end CimArm.Dmodem
