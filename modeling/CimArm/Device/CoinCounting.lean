import CimArm.Device.Cdm3000
import CimArm.Lib.Trace

/-!
# The driver of a coin counter with its device

The loop of the driver, with a counter that has a motor and counts while it runs.  Anything may
come from the line, and a start or a stop may be asked for between the write of a command and
the reply as well as between two rounds.  A session is what is counted between a start of the
motor and the next stop.

* `command_cases`: what the loop may write.
* `cmdProcessQty_report`: the report of a count is read back.
* `outcome_readReply`: what the loop makes of the device's reply or of a harmless one.
-/

namespace CimArm.CoinCounting

open Cdm3000 List

/-! ## The device -/

/-- The denominations of a device, and the bytes of its report that nobody looks at. -/
structure CoinSet : Type where
  units : Fin 9 → Fin 100
  cents : Fin 9 → Fin 100
  mark : UInt8
  point : UInt8

structure Count : Type where
  qty : Fin 9 → Fin 1000000
  failures : Fin 10000
  deriving DecidableEq

def Count.zero : Count := ⟨fun _ => 0, 0⟩

structure CoinDevice : Type where
  motor : Bool
  error : UInt8
  count : Count

/-- What the device does with a command. -/
def CoinDevice.execute (device : CoinDevice) (cmd : UInt8) : CoinDevice :=
  if cmd = 0x01 then { device with count := .zero }
  else if cmd = 0x04 then { device with motor := true }
  else if cmd = 0x05 then { device with motor := false }
  else device

variable (coins : CoinSet)

/-- The record of a denomination: its amount, and how many. -/
def record (count : Count) (i : Fin 9) : List UInt8 :=
  Decimal.fixed 2 (coins.units i) ++ [coins.point] ++ Decimal.fixed 2 (coins.cents i) ++
    Decimal.fixed 6 (count.qty i)

def report (count : Count) : List UInt8 :=
  [coins.mark] ++ (List.ofFn (record coins count)).flatten ++ Decimal.fixed 4 count.failures

/-- The reply to a command that was executed: its code and data. -/
def CoinDevice.reply (device : CoinDevice) (cmd : UInt8) : UInt8 × List UInt8 :=
  if cmd = 0x01 then (0x11, [])
  else if cmd = 0x04 then (0x14, [])
  else if cmd = 0x05 then (0x15, [])
  else if cmd = 0x06 then (0x16, [Decimal.digit device.motor.toNat, 0x30 + device.error])
  else if cmd = 0x07 then (0x17, [])
  else if cmd = 0x08 then (0x18, report coins device.count)
  else (0x1E, [])

/-! ## The loop with the device -/

structure System : Type where
  cdm : Cdm3000Data
  device : CoinDevice
  /-- The command written last, with the reply of the device, until the loop has read. -/
  sent : Option (UInt8 × List UInt8)
  /-- The counts of the sessions that ended, at their end. -/
  ended : List Count
  /-- The pending request was written since it was asked for. -/
  written : Bool

inductive Op : Type
  | poll
  /-- What the loop reads: the first bytes, and those of the second call. -/
  | receive (first rest : List UInt8)
  | startCounting
  | stopCounting
  | counted (count : Count)
  | deviceError (error : UInt8)
  deriving DecidableEq

def requestCommand : PendingStatus → UInt8
  | .NO_ACTION => 0x06
  | .START_PENDING => 0x04
  | .STOP_PENDING => 0x05

/-- The first half of the loop: a command is written, executed and replied to. -/
def poll (s : System) : System :=
  let (cmd, data) := command s.cdm
  let received := (cdmCommWrite s.cdm.devId cmd data).getD 2 0
  let device := s.device.execute received
  let reply := device.reply coins received
  { cdm := afterWrite s.cdm
    device := device
    sent := some (cmd, cdmCommWrite s.cdm.devId reply.1 reply.2)
    ended := if received = 0x05 ∧ s.device.motor then s.ended ++ [s.device.count] else s.ended
    written := s.written || cmd = requestCommand s.cdm.pendingStatus }

def step : Op → System → System
  | .poll, s => if s.sent = none then poll coins s else s
  | .receive first rest, s =>
    if s.sent = none then s else { s with cdm := readReply s.cdm first rest, sent := none }
  | .startCounting, s => { s with cdm := cdmStartCounting s.cdm, written := false }
  | .stopCounting, s => { s with cdm := cdmStopCounting s.cdm, written := false }
  | .counted count, s => if s.device.motor then { s with device.count := count } else s
  | .deviceError error, s => { s with device.error := error }

/-- The loop begins, with a device that stands. -/
def start (cdm : Cdm3000Data) (error : UInt8) (count : Count) : System :=
  { cdm, device := ⟨false, error, count⟩, sent := none, ended := [], written := false }

/-! ## What is told -/

/-- The notification of a count: the nine denominations, and the coins refused. -/
def view (count : Count) : List DenominationCount × Int :=
  (List.ofFn fun i =>
    { amount := ((coins.units i : Nat) * 100 + (coins.cents i : Nat)) * MultipDecimal
      qty := (count.qty i : Nat) },
   (count.failures : Nat))

/-- The counts that were told. -/
def notices (cdm : Cdm3000Data) : List (List DenominationCount × Int) :=
  cdm.told.filterMap fun
    | .coinsAccepted countingResult failureCount => some (countingResult, failureCount)
    | _ => none

/-- Between polls that the device replies to in time. -/
def answered (s : System) : System :=
  let s := step coins .poll s
  match s.sent with
  | some (_, frame) => step coins (.receive (frame.take 8) (frame.drop 8)) s
  | none => s

/-- After at most so many polls in a row that are answered, the sessions that ended by now are
told, each once. -/
def ToldWithin (n : Nat) (s : System) : Prop :=
  ∃ k ≤ n, notices ((answered coins)^[k] s).cdm = s.ended.map (view coins)

/-- No count is cleared while its session runs or is not told, and none begins but from a
cleared count. -/
def ClearedInTime (s : System) : Op → Prop
  | .poll => s.sent = none →
    ((command s.cdm).1 = 0x01 →
      s.device.motor = false ∧ notices s.cdm = s.ended.map (view coins)) ∧
    ((command s.cdm).1 = 0x04 → s.device.motor = false → s.device.count = .zero)
  | _ => True

/-- A step after which a pending request is not pending any more. -/
def Discards (s : System) (op : Op) : Prop :=
  s.cdm.pendingStatus ≠ .NO_ACTION ∧
    (step coins op s).cdm.pendingStatus ≠ s.cdm.pendingStatus

/-- The loop reads the device's reply to the pending request, written since it was asked for. -/
def Acknowledges (s : System) : Op → Prop
  | .receive first rest => s.written ∧ ∃ sent ∈ s.sent,
    sent.1 = requestCommand s.cdm.pendingStatus ∧ first = sent.2.take 8 ∧ rest = sent.2.drop 8
  | _ => False

def Sound (s : System) (op : Op) : Prop :=
  ClearedInTime coins s op ∧ (Discards coins s op → Acknowledges s op)

instance (s : System) : (op : Op) → Decidable (Acknowledges s op)
  | .receive _ _ => inferInstanceAs (Decidable (_ ∧ _))
  | .poll | .startCounting | .stopCounting | .counted _ | .deviceError _ =>
    inferInstanceAs (Decidable False)

instance (s : System) : (op : Op) → Decidable (ClearedInTime coins s op)
  | .poll => inferInstanceAs (Decidable (_ → _))
  | .receive _ _ | .startCounting | .stopCounting | .counted _ | .deviceError _ =>
    inferInstanceAs (Decidable True)

instance (s : System) (op : Op) : Decidable (Sound coins s op) :=
  inferInstanceAs (Decidable (_ ∧ ((_ ∧ _) → _)))

/-- A reply that changes nothing, or says what is so: not a count, no acknowledgement of what is
pending, and a status with the motor as it is. -/
def Harmless (s : System) (dataPtr : Nat → UInt8) : Prop :=
  (dataPtr 1 = 0x11 → s.cdm.clearPending = false) ∧
  (dataPtr 1 = 0x14 ∨ dataPtr 1 = 0x15 → s.cdm.pendingStatus = .NO_ACTION) ∧
  (dataPtr 1 = 0x16 → dataPtr 5 = Decimal.digit s.device.motor.toNat) ∧
  dataPtr 1 ≠ 0x18

/-- A reply that is read is the one to the command just written or a harmless one, a start is
asked for when the loop has seen the motor stopped and the stop was acknowledged, and a stop
when it has seen the motor running, if it runs, and no other request waits for its reply. -/
def Orderly (s : System) : Op → Prop
  | .receive first rest => ∀ sent ∈ s.sent,
    (cdmCommRead s.cdm.readBuf first rest).ok = false ∨
      first = sent.2.take 8 ∧ rest = sent.2.drop 8 ∨
      Harmless s fun i => (cdmCommRead s.cdm.readBuf first rest).readBuf (i + 1)
  | .startCounting =>
    s.cdm.pendingStatus ≠ .STOP_PENDING ∧ s.device.motor = false ∧ s.cdm.motorRunning = 0
  | .stopCounting =>
    s.cdm.pendingStatus ≠ .START_PENDING ∧ (∀ sent ∈ s.sent, sent.1 ≠ 0x05) ∧
      (s.device.motor = true → s.cdm.motorRunning ≠ 0)
  | _ => True

/-! ## The commands -/

section

variable (cdm : Cdm3000Data)

/-- A command that is written when there is neither a count to ask for nor a clear to do. -/
structure Free (cmd : UInt8) : Prop where
  told : cdm.motorRunning = 0 → cdm.coinsAcceptedNotifMissing = false
  cleared : cdm.motorRunning = 0 → cdm.clearPending = false
  which : cmd = 0x07 ∧ 10 ≤ cdm.resetQty ∨
    cmd = requestCommand cdm.pendingStatus ∧ cdm.resetQty < 10

theorem command_cases :
    (command cdm).1 = 0x08 ∧ cdm.coinsAcceptedNotifMissing = true ∧ cdm.motorRunning = 0 ∨
    (command cdm).1 = 0x01 ∧ cdm.coinsAcceptedNotifMissing = false ∧ cdm.clearPending = true ∧
      cdm.motorRunning = 0 ∨
    Free cdm (command cdm).1 := by
  by_cases missing : cdm.coinsAcceptedNotifMissing = true ∧ cdm.motorRunning = 0
  · left
    rw [command, if_pos missing]
    exact ⟨rfl, missing⟩
  right
  have told : cdm.motorRunning = 0 → cdm.coinsAcceptedNotifMissing = false := fun stopped =>
    Bool.eq_false_iff.2 fun here => missing ⟨here, stopped⟩
  by_cases clear : cdm.clearPending = true ∧ cdm.motorRunning = 0
  · left
    rw [command, if_neg missing, if_pos clear]
    exact ⟨rfl, told clear.2, clear⟩
  right
  refine ⟨told, fun stopped => Bool.eq_false_iff.2 fun here => clear ⟨here, stopped⟩, ?_⟩
  rw [command, if_neg missing, if_neg clear]
  by_cases errors : 10 ≤ cdm.resetQty
  · rw [if_pos errors]
    exact .inl ⟨rfl, errors⟩
  · rw [if_neg errors]
    right
    refine ⟨?_, Nat.lt_of_not_le errors⟩
    cases cdm.pendingStatus with
    | NO_ACTION => rfl
    | START_PENDING => rfl
    | STOP_PENDING => rfl

end

/-! ## The replies -/

/-- What the sessions depend on is the same. -/
structure Same (cdm other : Cdm3000Data) : Prop where
  pendingStatus : other.pendingStatus = cdm.pendingStatus
  clearPending : other.clearPending = cdm.clearPending
  motorRunning : other.motorRunning = cdm.motorRunning
  missing : other.coinsAcceptedNotifMissing = cdm.coinsAcceptedNotifMissing
  notices : notices other = notices cdm

section

variable (cdm : Cdm3000Data) (dataPtr : Nat → UInt8)

theorem notices_tell (notification : Notification) :
    notices (cdm.tell notification) =
      notices cdm ++ notices { cdm with told := [notification] } := by
  rw [notices, Cdm3000Data.tell, filterMap_append]
  rfl

theorem same_noReply : Same cdm (noReply cdm) := by
  rw [noReply]
  dsimp only
  split_ifs
  · refine ⟨rfl, rfl, rfl, rfl, ?_⟩
    rw [notices_tell]
    exact append_nil _
  · exact ⟨rfl, rfl, rfl, rfl, rfl⟩

theorem same_afterWrite : Same cdm (afterWrite cdm) := by
  rw [afterWrite]
  split_ifs
  · exact ⟨rfl, rfl, rfl, rfl, rfl⟩
  · exact ⟨rfl, rfl, rfl, rfl, rfl⟩

theorem same_errorReported : Same cdm (errorReported cdm dataPtr) := by
  have told : ∀ errorStatus : UInt8,
      notices ({ cdm with errorStatus }.tell (.commErrorNotification errorStatus)) =
        notices cdm := by
    intro errorStatus
    rw [notices_tell]
    exact append_nil _
  rw [errorReported]
  dsimp only
  split_ifs
  · exact ⟨rfl, rfl, rfl, rfl, told _⟩
  · exact ⟨rfl, rfl, rfl, rfl, told _⟩
  · exact ⟨rfl, rfl, rfl, rfl, rfl⟩
  · exact ⟨rfl, rfl, rfl, rfl, rfl⟩

/-- A status with the motor as it is is kept, and a motor that was not seen running has counts
to tell. -/
structure Shown (motor : Bool) (other : Cdm3000Data) : Prop where
  pendingStatus : other.pendingStatus = cdm.pendingStatus
  clearPending : other.clearPending = cdm.clearPending
  notices : notices other = notices cdm
  motorRunning : other.motorRunning = if motor then 1 else 0
  missing : other.coinsAcceptedNotifMissing = true ↔
    cdm.coinsAcceptedNotifMissing = true ∨ motor = true ∧ cdm.motorRunning ≠ 1

theorem shown_motorReported {motor : Bool}
    (shown : dataPtr 5 = Decimal.digit motor.toNat) :
    Shown cdm motor (motorReported cdm dataPtr) := by
  have told : ∀ motorRunning : UInt8,
      notices ({ cdm with motorRunning }.tell (.changeCdmStatus motorRunning)) =
        notices cdm := by
    intro motorRunning
    rw [notices_tell]
    exact append_nil _
  rw [motorReported, shown]
  cases motor with
  | false =>
    have value : statusValue (Decimal.digit false.toNat) = 0 := rfl
    rw [value]
    by_cases stopped : cdm.motorRunning = 0
    · rw [if_neg (by rw [stopped]; decide)]
      exact ⟨rfl, rfl, rfl, stopped, by simp⟩
    · have differs : (cdm.motorRunning.toNat : Int) ≠ 0 := fun zero =>
        stopped (UInt8.toNat_inj.1 (Int.ofNat_inj.1 zero))
      rw [if_pos differs]
      exact ⟨rfl, rfl, told _, rfl, by simp [Cdm3000Data.tell, Decimal.digit]⟩
  | true =>
    have value : statusValue (Decimal.digit true.toNat) = 1 := rfl
    rw [value]
    by_cases running : cdm.motorRunning = 1
    · rw [if_neg (by rw [running]; decide)]
      exact ⟨rfl, rfl, rfl, running, by simp [running]⟩
    · have differs : (cdm.motorRunning.toNat : Int) ≠ 1 := fun one =>
        running (UInt8.toNat_inj.1 (Int.ofNat_inj.1 one))
      rw [if_pos differs]
      exact ⟨rfl, rfl, told _, rfl, by simp [running, Decimal.digit]⟩

end

/-! ## The counts -/

section

variable {dataPtr : Nat → UInt8}

theorem length_record (count : Count) (i : Fin 9) : (record coins count i).length = 11 := by
  simp [record]

theorem denominationAt_record {index : Nat} {count : Count} {i : Fin 9}
    (holds : SafeBoxComm.Holds dataPtr index (record coins count i)) :
    denominationAt dataPtr index =
      { amount := ((coins.units i : Nat) * 100 + (coins.cents i : Nat)) * MultipDecimal
        qty := (count.qty i : Nat) } := by
  obtain ⟨amount, qty⟩ := holds_append holds
  obtain ⟨units, cents⟩ := holds_append amount
  obtain ⟨units, _⟩ := holds_append units
  have cents : SafeBoxComm.Holds dataPtr (index + 3) (Decimal.fixed 2 (coins.cents i)) := by
    simpa using cents
  have qty : SafeBoxComm.Holds dataPtr (index + 5) (Decimal.fixed 6 (count.qty i)) := by
    simpa using qty
  rw [denominationAt, asciitoint_fixed (by have := (coins.units i).isLt; omega) units,
    asciitoint_fixed (by have := (coins.cents i).isLt; omega) cents,
    asciitoint_fixed (by have := (count.qty i).isLt; omega) qty]
  have small : ((((coins.units i : Nat) : Int) * 100 + ((coins.cents i : Nat) : Int)) *
      MultipDecimal).bmod (2 ^ 32) =
        (((coins.units i : Nat) : Int) * 100 + ((coins.cents i : Nat) : Int)) *
          MultipDecimal := by
    have units := (coins.units i).isLt
    have cents := (coins.cents i).isLt
    rw [MultipDecimal, Int.bmod_eq_of_le] <;> omega
  rw [small]

theorem cmdProcessQty_report (cdm : Cdm3000Data) {count : Count}
    (holds : SafeBoxComm.Holds dataPtr 5 (report coins count)) :
    cmdProcessQty cdm dataPtr =
      { cdm.tell (.coinsAccepted (view coins count).1 (view coins count).2) with
        coinsAcceptedNotifMissing := false } := by
  obtain ⟨records, failures⟩ := holds_append holds
  obtain ⟨_, records⟩ := holds_append records
  have size : ∀ piece ∈ List.ofFn (record coins count), piece.length = 11 := by
    intro piece inside
    obtain ⟨i, rfl⟩ := mem_ofFn.1 inside
    exact length_record coins count i
  have total : (List.ofFn (record coins count)).flatten.length = 11 * 9 := by
    rw [List.length_flatten, map_congr_left size]
    simp
  have denominations : ((List.range 9).map fun i => denominationAt dataPtr (6 + 11 * i)) =
      (view coins count).1 := by
    apply ext_getElem
    · simp [view]
    · intro i less _
      have less : i < 9 := by simpa using less
      have here : SafeBoxComm.Holds dataPtr (6 + 11 * i) (record coins count ⟨i, less⟩) :=
        holds_record size (by rw [List.getElem?_ofFn, dif_pos less]) records
      rw [getElem_map, getElem_range, denominationAt_record coins here]
      simp only [view, List.getElem_ofFn]
  have refused : asciitoint dataPtr (6 + 11 * 9) 4 = (view coins count).2 := by
    rw [length_append, total] at failures
    exact asciitoint_fixed (by have := count.failures.isLt; omega) failures
  rw [cmdProcessQty, denominations, refused]

theorem length_reply (device : CoinDevice) (cmd : UInt8) :
    (device.reply coins cmd).2.length < 256 := by
  have total : (report coins device.count).length = 104 := by
    rw [report, length_append, length_append, List.length_flatten, map_ofFn, Decimal.length_fixed]
    simp [Function.comp_def, length_record]
  rw [CoinDevice.reply]
  split_ifs <;> simp [total]

end

/-! ## What the loop reads -/

/-- What is so while the reply to a command is awaited: it tells what the device did, and the
device stays so. -/
structure Awaited (s : System) (cmd : UInt8) (frame : List UInt8) : Prop where
  reply : ∃ (device : CoinDevice) (devId : UInt8),
    frame = cdmCommWrite devId (device.reply coins cmd).1 (device.reply coins cmd).2 ∧
    device.motor = s.device.motor ∧ (s.device.motor = false → device.count = s.device.count)
  known : cmd = 0x01 ∨ cmd = 0x04 ∨ cmd = 0x05 ∨ cmd = 0x06 ∨ cmd = 0x07 ∨ cmd = 0x08
  cleared : cmd = 0x01 → s.device.motor = false ∧ s.device.count = .zero ∧
    s.cdm.coinsAcceptedNotifMissing = false
  started : cmd = 0x04 →
    s.device.motor = true ∧ s.cdm.pendingStatus = .START_PENDING ∧ s.written = true
  stopped : cmd = 0x05 →
    s.device.motor = false ∧ s.cdm.pendingStatus = .STOP_PENDING ∧ s.written = true
  counts : cmd = 0x08 → s.device.motor = false ∧ s.cdm.coinsAcceptedNotifMissing = true ∧
    s.cdm.motorRunning = 0

/-- What the loop makes of what it reads. -/
inductive Outcome (s : System) (cmd : UInt8) (inTime : Prop) (cdm : Cdm3000Data) : Prop
  | nothing (other : inTime → cmd = 0x07) (same : Same s.cdm cdm)
  | status (other : inTime → cmd = 0x06) (shown : Shown s.cdm s.device.motor cdm)
  | cleared (asked : cmd = 0x01) (same : Same { s.cdm with clearPending := false } cdm)
  | acknowledged (asked : cmd = 0x04 ∨ cmd = 0x05) (read : inTime)
    (same : Same { s.cdm with pendingStatus := .NO_ACTION } cdm)
  | counted (asked : cmd = 0x08)
    (same : Same { s.cdm.tell
      (.coinsAccepted (view coins s.device.count).1 (view coins s.device.count).2) with
        coinsAcceptedNotifMissing := false } cdm)

section

variable {coins} {s : System} {cmd : UInt8} {frame first rest : List UInt8}

variable {a b c : Cdm3000Data} {motor : Bool}

theorem Same.trans (ab : Same a b) (bc : Same b c) : Same a c :=
  ⟨bc.pendingStatus.trans ab.pendingStatus, bc.clearPending.trans ab.clearPending,
    bc.motorRunning.trans ab.motorRunning, bc.missing.trans ab.missing,
    bc.notices.trans ab.notices⟩

theorem Shown.trans (ab : Shown a motor b) (bc : Same b c) : Shown a motor c :=
  ⟨bc.pendingStatus.trans ab.pendingStatus, bc.clearPending.trans ab.clearPending,
    bc.notices.trans ab.notices, bc.motorRunning.trans ab.motorRunning,
    by rw [bc.missing]; exact ab.missing⟩

theorem shown_handleReply (cdm : Cdm3000Data) {dataPtr : Nat → UInt8} (code : dataPtr 1 = 0x16)
    (shown : dataPtr 5 = Decimal.digit motor.toNat) :
    Shown cdm motor (handleReply cdm dataPtr) := by
  rw [handleReply, code, if_neg (by decide), if_pos rfl]
  obtain ⟨pendingStatus, clearPending, told, motorRunning, missing⟩ :=
    shown_motorReported { cdm with errorQty := 0 } dataPtr shown
  exact Shown.trans ⟨pendingStatus, clearPending, told, motorRunning, missing⟩
    (same_errorReported _ dataPtr)

theorem Same.shown (ab : Same a b) (bc : Shown b motor c) : Shown a motor c :=
  ⟨bc.pendingStatus.trans ab.pendingStatus, bc.clearPending.trans ab.clearPending,
    bc.notices.trans ab.notices, bc.motorRunning,
    by rw [bc.missing, ab.missing, ab.motorRunning]⟩

theorem Harmless.handleReply {dataPtr : Nat → UInt8} (harmless : Harmless s dataPtr)
    {cdm : Cdm3000Data} (same : Same s.cdm cdm) :
    Same s.cdm (handleReply cdm dataPtr) ∨
      Shown s.cdm s.device.motor (handleReply cdm dataPtr) := by
  obtain ⟨clear, request, status, count⟩ := harmless
  by_cases shown : dataPtr 1 = 0x16
  · exact .inr (same.shown (shown_handleReply cdm shown (status shown)))
  left
  refine same.trans ?_
  rw [Cdm3000.handleReply, if_neg shown, if_neg count]
  dsimp only
  split_ifs with cleared acknowledged
  · exact ⟨rfl, ((same.clearPending).trans (clear cleared)).symm, rfl, rfl, rfl⟩
  · exact ⟨((same.pendingStatus).trans (request acknowledged)).symm, rfl, rfl, rfl, rfl⟩
  · exact ⟨rfl, rfl, rfl, rfl, rfl⟩

theorem Awaited.handleReply (awaited : Awaited coins s cmd frame) {inTime : Prop}
    (read : inTime) {cdm : Cdm3000Data} (same : Same s.cdm cdm) {dataPtr : Nat → UInt8}
    (reply : ∀ devId code data, frame = cdmCommWrite devId code data → data.length < 256 →
      dataPtr 1 = code ∧ SafeBoxComm.Holds dataPtr 5 data) :
    Outcome coins s cmd inTime (handleReply cdm dataPtr) := by
  obtain ⟨device, devId, sent, motor, count⟩ := awaited.reply
  obtain ⟨code, data⟩ := reply _ _ _ sent (length_reply coins device cmd)
  rcases awaited.known with rfl | rfl | rfl | rfl | rfl | rfl
  · refine .cleared rfl ?_
    have code : dataPtr 1 = 0x11 := code
    rw [Cdm3000.handleReply, if_pos code]
    exact ⟨same.pendingStatus, rfl, same.motorRunning, same.missing, same.notices⟩
  · refine .acknowledged (.inl rfl) read ?_
    have code : dataPtr 1 = 0x14 := code
    rw [Cdm3000.handleReply, code, if_neg (by decide), if_neg (by decide), if_pos (.inl rfl)]
    exact ⟨rfl, same.clearPending, same.motorRunning, same.missing, same.notices⟩
  · refine .acknowledged (.inr rfl) read ?_
    have code : dataPtr 1 = 0x15 := code
    rw [Cdm3000.handleReply, code, if_neg (by decide), if_neg (by decide), if_pos (.inr rfl)]
    exact ⟨rfl, same.clearPending, same.motorRunning, same.missing, same.notices⟩
  · refine .status (fun _ => rfl) (same.shown ?_)
    have shown : dataPtr 5 = Decimal.digit device.motor.toNat := data 0 Nat.zero_lt_two
    rw [motor] at shown
    exact shown_handleReply cdm code shown
  · refine .nothing (fun _ => rfl) (same.trans ?_)
    have code : dataPtr 1 = 0x17 := code
    rw [Cdm3000.handleReply, code, if_neg (by decide), if_neg (by decide), if_neg (by decide),
      if_neg (by decide)]
    exact ⟨rfl, rfl, rfl, rfl, rfl⟩
  · refine .counted rfl ?_
    have code : dataPtr 1 = 0x18 := code
    have data : SafeBoxComm.Holds dataPtr 5 (report coins device.count) := data
    rw [count (awaited.counts rfl).1] at data
    rw [Cdm3000.handleReply, code, if_neg (by decide), if_neg (by decide), if_neg (by decide),
      if_pos rfl]
    dsimp only
    rw [cmdProcessQty_report coins _ data]
    refine ⟨same.pendingStatus, same.clearPending, same.motorRunning, rfl, ?_⟩
    have told (cdm : Cdm3000Data) := notices_tell cdm
      (.coinsAccepted (view coins s.device.count).1 (view coins s.device.count).2)
    refine (told _).trans (Eq.trans ?_ (told s.cdm).symm)
    exact congrArg (· ++ [view coins s.device.count]) same.notices

theorem outcome_readReply (awaited : Awaited coins s cmd frame)
    (orderly : (cdmCommRead s.cdm.readBuf first rest).ok = false ∨
      first = frame.take 8 ∧ rest = frame.drop 8 ∨
      Harmless s fun i => (cdmCommRead s.cdm.readBuf first rest).readBuf (i + 1)) :
    Outcome coins s cmd (first = frame.take 8 ∧ rest = frame.drop 8)
      (readReply s.cdm first rest) := by
  have same : Same s.cdm
      { s.cdm with readBuf := (cdmCommRead s.cdm.readBuf first rest).readBuf } :=
    ⟨rfl, rfl, rfl, rfl, rfl⟩
  rw [readReply]
  by_cases inTime : first = frame.take 8 ∧ rest = frame.drop 8
  · have read (devId code : UInt8) (data : List UInt8)
        (sent : frame = cdmCommWrite devId code data) (fits : data.length < 256) :
        (cdmCommRead s.cdm.readBuf first rest).ok = true ∧
          (cdmCommRead s.cdm.readBuf first rest).readBuf 2 = code ∧
          SafeBoxComm.Holds
            (fun i => (cdmCommRead s.cdm.readBuf first rest).readBuf (i + 1)) 5 data := by
      rw [inTime.1, inTime.2, sent]
      exact cdmCommRead_reply devId code s.cdm.readBuf fits
    obtain ⟨device, devId, sent, _⟩ := awaited.reply
    rw [if_pos (read _ _ _ sent (length_reply coins device cmd)).1]
    exact awaited.handleReply inTime same fun devId code data sent fits =>
      (read devId code data sent fits).2
  · by_cases ok : (cdmCommRead s.cdm.readBuf first rest).ok = true
    · rw [if_pos ok]
      rcases orderly with failed | here | harmless
      · exact absurd (ok.symm.trans failed) (by decide)
      · exact absurd here inTime
      · rcases harmless.handleReply same with nothing | shown
        · exact .nothing (fun here => absurd here inTime) nothing
        · exact .status (fun here => absurd here inTime) shown
    · rw [if_neg ok]
      exact .nothing (fun here => absurd here inTime) (same.trans (same_noReply _))

end

end CimArm.CoinCounting
