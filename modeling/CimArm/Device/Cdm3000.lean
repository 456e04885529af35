import CimArm.Device.SafeBoxComm
import CimArm.Lib.Decimal

/-!
# The coin counter CDM3000

The driver of the counter writes a command, reads the reply and handles it, again and again.
Flags that its callers and the replies set decide which command comes next: the counts when
the motor has stopped and they were not told yet, a clear, a reset after many errors, the start
or the stop that was asked for, or else the status.  A reply is handled by its own command
code, whatever was written last.

* `cdmCommRead_frame`: a frame is read as it was sent.
* `asciitoint_fixed`: a number in a field of a frame is read back.
-/

namespace CimArm.Cdm3000

open List

open SafeBoxComm (sumTo store Holds)

/-! ## Frames -/

/-- The sum of the bytes from 1 on, in seven bits. -/
def calcBCC (data : Nat → UInt8) (n : Nat) : UInt8 :=
  sumTo (fun i => data (i + 1)) (n - 1) &&& 0x7F

/-- What `cdmCommWrite` sends; the length has three digits. -/
def cdmCommWrite (devId cmd : UInt8) (data : List UInt8) : List UInt8 :=
  let writeBuf := 0x02 :: devId :: cmd :: (Decimal.fixed 3 data.length ++ data ++ [0x03])
  writeBuf ++ [calcBCC (fun i => writeBuf.getD i 0) (7 + data.length)]

/-- What a call of `cdmCommRead` leaves in `readBuf`, and whether it returns a frame. -/
structure Reading : Type where
  readBuf : Nat → UInt8
  ok : Bool

/-- `com_read` gives the first bytes within the timeout, at most 8, and then the rest. -/
def cdmCommRead (readBuf : Nat → UInt8) (first rest : List UInt8) : Reading :=
  let readBuf := store readBuf 0 (first.take 8)
  if 8 ≤ first.length ∧ readBuf 0 = 0x02 then
    let len := (readBuf 3 - 0x30) * 100 + (readBuf 4 - 0x30) * 10 + (readBuf 5 - 0x30)
    let readBuf := store readBuf 8 (rest.take len.toNat)
    ⟨readBuf, calcBCC readBuf (len.toNat + 7) = readBuf (len.toNat + 7)⟩
  else ⟨readBuf, false⟩

/-! ## The counter -/

inductive PendingStatus : Type
  | NO_ACTION | START_PENDING | STOP_PENDING
  deriving DecidableEq

def CDM_COINJAM : UInt8 := 1
def CDM_CASEFULL : UInt8 := 6
def CDM_COMMERROR : UInt8 := 8

structure DenominationCount : Type where
  amount : Int
  qty : Int
  deriving DecidableEq

/-- The calls of the three functions that are told what happens. -/
inductive Notification : Type
  | commErrorNotification (cause : UInt8)
  | changeCdmStatus (newStatus : UInt8)
  | coinsAccepted (countingResult : List DenominationCount) (failureCount : Int)
  deriving DecidableEq

/-- The events that are queued for the application. -/
inductive CimEvent : Type
  | acceptorError (status : UInt8)
  | statusChange (status : UInt8)
  | billAccepted (amount qty : Int)
  | billRejected (qty : Int)
  deriving DecidableEq

/-- The coins of an event that is queued. -/
def CimEvent.isCoins : CimEvent → Bool
  | .billAccepted _ _ | .billRejected _ => true
  | .acceptorError _ | .statusChange _ => false

def CDM_FINISH_COUNTING : UInt8 := 2

/-- The denominations that were counted, the coins refused, and the end of the count. -/
def cmdCoinsAcceptedNotif (coinsAccepted : List DenominationCount) (failureCount : Int) :
    List CimEvent :=
  (coinsAccepted.filter fun coins => 0 < coins.qty).map
      (fun coins => .billAccepted coins.amount coins.qty) ++
    (if 0 < failureCount then [.billRejected failureCount] else []) ++
    [.statusChange CDM_FINISH_COUNTING]

def Notification.events : Notification → List CimEvent
  | .commErrorNotification cause => [.acceptorError cause]
  | .changeCdmStatus newStatus => [.statusChange newStatus]
  | .coinsAccepted countingResult failureCount =>
    cmdCoinsAcceptedNotif countingResult failureCount

structure Cdm3000Data : Type where
  devId : UInt8
  readBuf : Nat → UInt8
  pendingStatus : PendingStatus
  clearPending : Bool
  motorRunning : UInt8
  errorStatus : UInt8
  coinsAcceptedNotifMissing : Bool
  errorQty : Nat
  resetQty : Nat
  /-- The notifications so far. -/
  told : List Notification

/-- `cdmNew`, which leaves `readBuf`, `motorRunning` and `errorStatus` as the memory was. -/
def cdmNew (devId : UInt8) (readBuf : Nat → UInt8) (motorRunning errorStatus : UInt8) :
    Cdm3000Data :=
  { devId, readBuf, motorRunning, errorStatus
    pendingStatus := .NO_ACTION
    clearPending := true
    coinsAcceptedNotifMissing := false
    errorQty := 0
    resetQty := 0
    told := [] }

variable (cdmCounter : Cdm3000Data)

def cdmStartCounting : Cdm3000Data :=
  { cdmCounter with clearPending := true, pendingStatus := .START_PENDING }

def cdmStopCounting : Cdm3000Data :=
  { cdmCounter with pendingStatus := .STOP_PENDING }

def Cdm3000Data.tell (notification : Notification) : Cdm3000Data :=
  { cdmCounter with told := cdmCounter.told ++ [notification] }

/-- The command that the loop writes next, with its data. -/
def command : UInt8 × List UInt8 :=
  if cdmCounter.coinsAcceptedNotifMissing ∧ cdmCounter.motorRunning = 0 then (0x08, [0x30])
  else if cdmCounter.clearPending ∧ cdmCounter.motorRunning = 0 then (0x01, [0x30])
  else if 10 ≤ cdmCounter.resetQty then (0x07, [])
  else
    (match cdmCounter.pendingStatus with
      | .START_PENDING => 0x04
      | .STOP_PENDING => 0x05
      | .NO_ACTION => 0x06, [])

/-- What writing it changes: a reset starts the count of errors again. -/
def afterWrite : Cdm3000Data :=
  if (command cdmCounter).1 = 0x07 then { cdmCounter with resetQty := 0 } else cdmCounter

/-! ## The replies -/

/-- The digits from a place on. -/
def asciitoint (dataPtr : Nat → UInt8) (place qty : Nat) : Int :=
  (List.range qty).foldl (fun sum i => sum * 10 + ((dataPtr (place + i)).toNat - 0x30)) 0

def MultipDecimal : Int := 100000

/-- The count of one denomination, in a record of 11 bytes. -/
def denominationAt (dataPtr : Nat → UInt8) (index : Nat) : DenominationCount :=
  let amount := asciitoint dataPtr index 2 * 100 + asciitoint dataPtr (index + 3) 2
  { qty := asciitoint dataPtr (index + 5) 6
    -- the product is a `long` of 32 bits
    amount := (amount * MultipDecimal).bmod (2 ^ 32) }

def cmdProcessQty (dataPtr : Nat → UInt8) : Cdm3000Data :=
  let countingResult := (List.range 9).map fun i => denominationAt dataPtr (6 + 11 * i)
  let failureCount := asciitoint dataPtr (6 + 11 * 9) 4
  { cdmCounter.tell (.coinsAccepted countingResult failureCount) with
    coinsAcceptedNotifMissing := false }

/-- A byte of the status, as the `int` it is compared as. -/
def statusValue (b : UInt8) : Int := b.toNat - 0x30

def motorReported (dataPtr : Nat → UInt8) : Cdm3000Data :=
  if (cdmCounter.motorRunning.toNat : Int) ≠ statusValue (dataPtr 5) then
    let motorRunning := dataPtr 5 - 0x30
    let cdmCounter := { cdmCounter with motorRunning }.tell (.changeCdmStatus motorRunning)
    if motorRunning ≠ 0 then { cdmCounter with coinsAcceptedNotifMissing := true }
    else cdmCounter
  else cdmCounter

def errorReported (dataPtr : Nat → UInt8) : Cdm3000Data :=
  let cdmCounter :=
    if (cdmCounter.errorStatus.toNat : Int) ≠ statusValue (dataPtr 6) then
      let errorStatus := dataPtr 6 - 0x30
      { cdmCounter with errorStatus }.tell (.commErrorNotification errorStatus)
    else cdmCounter
  if CDM_COINJAM ≤ cdmCounter.errorStatus ∧ cdmCounter.errorStatus ≤ CDM_CASEFULL then
    { cdmCounter with resetQty := cdmCounter.resetQty + 1 }
  else cdmCounter

/-- The loop with a reply, by its command code. -/
def handleReply (dataPtr : Nat → UInt8) : Cdm3000Data :=
  let cdmCounter := { cdmCounter with errorQty := 0 }
  if dataPtr 1 = 0x11 then { cdmCounter with clearPending := false }
  else if dataPtr 1 = 0x16 then errorReported (motorReported cdmCounter dataPtr) dataPtr
  else if dataPtr 1 = 0x14 ∨ dataPtr 1 = 0x15 then { cdmCounter with pendingStatus := .NO_ACTION }
  else if dataPtr 1 = 0x18 then cmdProcessQty cdmCounter dataPtr
  else cdmCounter

/-- The loop without a reply. -/
def noReply : Cdm3000Data :=
  let cdmCounter := { cdmCounter with errorQty := cdmCounter.errorQty + 1 }
  if cdmCounter.errorQty = 6 then
    { cdmCounter with errorStatus := CDM_COMMERROR }.tell (.commErrorNotification CDM_COMMERROR)
  else cdmCounter

/-- The second half of the loop, with what comes from the line. -/
def readReply (first rest : List UInt8) : Cdm3000Data :=
  let reading := cdmCommRead cdmCounter.readBuf first rest
  let cdmCounter := { cdmCounter with readBuf := reading.readBuf }
  if reading.ok then handleReply cdmCounter fun i => reading.readBuf (i + 1)
  else noReply cdmCounter

/-! ## A frame is read as it was sent -/

section

variable (devId cmd : UInt8) (data : List UInt8)

/-- A frame without its checksum. -/
def frameBody : List UInt8 :=
  0x02 :: devId :: cmd :: (Decimal.fixed 3 data.length ++ data ++ [0x03])

theorem length_frameBody : (frameBody devId cmd data).length = 7 + data.length := by
  simp [frameBody]
  omega

theorem cdmCommWrite_eq : cdmCommWrite devId cmd data = frameBody devId cmd data ++
    [calcBCC (fun i => (frameBody devId cmd data).getD i 0) (7 + data.length)] := rfl

theorem length_cdmCommWrite : (cdmCommWrite devId cmd data).length = 8 + data.length := by
  rw [cdmCommWrite_eq, length_append, length_frameBody, length_singleton]
  omega

theorem length_read {n : Nat} (fits : n < 256) :
    (Decimal.digit (n / 10 / 10 % 10) - 0x30) * 100 + (Decimal.digit (n / 10 % 10) - 0x30) * 10 +
      (Decimal.digit (n % 10) - 0x30) = UInt8.ofNat n := by
  have each : ∀ n : Fin 256, (Decimal.digit (n / 10 / 10 % 10) - 0x30) * 100 +
      (Decimal.digit (n / 10 % 10) - 0x30) * 10 + (Decimal.digit (n % 10) - 0x30) =
        UInt8.ofNat n := by
    decide +kernel
  exact each ⟨n, fits⟩

theorem calcBCC_congr {data other : Nat → UInt8} {n : Nat}
    (same : ∀ i < n, data i = other i) : calcBCC data n = calcBCC other n := by
  rw [calcBCC, calcBCC, SafeBoxComm.sumTo_congr fun i less => same (i + 1) (by omega)]

theorem cdmCommRead_frame (readBuf : Nat → UInt8) (fits : data.length < 256) :
    let frame := cdmCommWrite devId cmd data
    let reading := cdmCommRead readBuf (frame.take 8) (frame.drop 8)
    reading.ok = true ∧ Holds reading.readBuf 0 frame := by
  intro frame reading
  have size : frame.length = 8 + data.length := length_cdmCommWrite devId cmd data
  have first : Holds (store readBuf 0 (frame.take 8)) 0 (frame.take 8) := by
    have none : Holds readBuf 0 (frame.take 0) := fun i less => absurd less (Nat.not_lt_zero i)
    simpa using none.store (m := 8) (by omega)
  have byte (i : Nat) (early : i < 6) :
      store readBuf 0 (frame.take 8) i = (frameBody devId cmd data).getD i 0 := by
    have here := first i (by rw [length_take]; omega)
    rw [Nat.zero_add] at here
    rw [here, getD_eq_getElem?_getD, getD_eq_getElem?_getD, List.getElem?_take, if_pos (by omega)]
    show (cdmCommWrite devId cmd data)[i]?.getD 0 = _
    rw [cdmCommWrite_eq, List.getElem?_append_left (by rw [length_frameBody]; omega)]
  have len : ((store readBuf 0 (frame.take 8) 3 - 0x30) * 100 +
      (store readBuf 0 (frame.take 8) 4 - 0x30) * 10 +
      (store readBuf 0 (frame.take 8) 5 - 0x30)).toNat = data.length := by
    rw [byte 3 (by decide), byte 4 (by decide), byte 5 (by decide)]
    have digits := length_read fits
    show ((Decimal.digit _ - 0x30) * 100 + (Decimal.digit _ - 0x30) * 10 +
      (Decimal.digit _ - 0x30)).toNat = _
    rw [digits, UInt8.toNat_ofNat', Nat.mod_eq_of_lt fits]
  have started : 8 ≤ (frame.take 8).length ∧ store readBuf 0 (frame.take 8) 0 = 0x02 := by
    refine ⟨?_, byte 0 (by decide)⟩
    rw [length_take]
    omega
  -- what both calls of `com_read` leave
  obtain ⟨buf, buf_eq⟩ : ∃ buf, buf = store (store readBuf 0 (frame.take 8)) 8
    ((frame.drop 8).take data.length) := ⟨_, rfl⟩
  have read : reading = ⟨buf, calcBCC buf (data.length + 7) = buf (data.length + 7)⟩ := by
    show cdmCommRead readBuf (frame.take 8) (frame.drop 8) = _
    rw [cdmCommRead, take_take, Nat.min_self]
    dsimp only
    rw [if_pos started, len, buf_eq]
  have holds : Holds buf 0 frame := by
    have both := first.store (m := data.length) (by omega)
    rwa [← buf_eq, take_of_length_le (by omega)] at both
  have checked : calcBCC buf (data.length + 7) = buf (data.length + 7) := by
    have last := holds (data.length + 7) (by omega)
    have same (i : Nat) (before : i < data.length + 7) :
        buf i = (frameBody devId cmd data).getD i 0 := by
      have here := holds i (by omega)
      rw [Nat.zero_add] at here
      rw [here, getD_eq_getElem?_getD, getD_eq_getElem?_getD]
      show (cdmCommWrite devId cmd data)[i]?.getD 0 = _
      rw [cdmCommWrite_eq, List.getElem?_append_left (by rw [length_frameBody]; omega)]
    rw [Nat.zero_add] at last
    rw [last, calcBCC_congr same, getD_eq_getElem?_getD]
    show _ = (cdmCommWrite devId cmd data)[data.length + 7]?.getD 0
    rw [cdmCommWrite_eq, List.getElem?_append_right (by rw [length_frameBody]; omega),
      length_frameBody, Nat.add_comm 7, Nat.sub_self]
    rfl
  rw [read]
  exact ⟨decide_eq_true checked, holds⟩

end

/-! ## Numbers and records are read back -/

theorem holds_append {data : Nat → UInt8} {place : Nat} {first second : List UInt8}
    (holds : Holds data place (first ++ second)) :
    Holds data place first ∧ Holds data (place + first.length) second := by
  constructor
  · intro i less
    rw [holds i (by rw [length_append]; omega), getD_eq_getElem?_getD,
      getD_eq_getElem?_getD, List.getElem?_append_left less]
  · intro i less
    rw [Nat.add_assoc, holds _ (by rw [length_append]; omega), getD_eq_getElem?_getD,
      getD_eq_getElem?_getD, List.getElem?_append_right (by omega), Nat.add_sub_cancel_left]

theorem holds_record {data : Nat → UInt8} {place size i : Nat} {records : List (List UInt8)}
    (sizes : ∀ record ∈ records, record.length = size) {record : List UInt8}
    (here : records[i]? = some record) (holds : Holds data place records.flatten) :
    Holds data (place + size * i) record := by
  induction records generalizing place i with
  | nil => cases here
  | cons first records ih =>
    obtain ⟨begin, rest⟩ := holds_append holds
    cases i with
    | zero =>
      obtain rfl : first = record := Option.some.inj here
      exact begin
    | succ i =>
      rw [sizes first mem_cons_self] at rest
      have later := ih (fun record inside => sizes record (mem_cons_of_mem first inside))
        here rest
      rwa [Nat.mul_succ, Nat.add_comm (size * i), ← Nat.add_assoc]

/-- The code and the data of a frame that comes in time are where the loop looks for them. -/
theorem cdmCommRead_reply (devId code : UInt8) {data : List UInt8} (readBuf : Nat → UInt8)
    (fits : data.length < 256) :
    let frame := cdmCommWrite devId code data
    let reading := cdmCommRead readBuf (frame.take 8) (frame.drop 8)
    reading.ok = true ∧ reading.readBuf 2 = code ∧
      Holds (fun i => reading.readBuf (i + 1)) 5 data := by
  intro frame reading
  obtain ⟨ok, holds⟩ := cdmCommRead_frame devId code data readBuf fits
  have pieces : frame = (0x02 :: devId :: code :: Decimal.fixed 3 data.length) ++ data ++
      ([0x03] ++ [calcBCC (fun i => (frameBody devId code data).getD i 0) (7 + data.length)]) := by
    show cdmCommWrite devId code data = _
    rw [cdmCommWrite_eq, frameBody]
    simp
  refine ⟨ok, holds 2 (by rw [length_cdmCommWrite]; omega), ?_⟩
  have whole : Holds reading.readBuf 0 frame := holds
  rw [pieces] at whole
  have behind := (holds_append (holds_append whole).1).2
  intro i less
  rw [← behind i less]
  show reading.readBuf (5 + i + 1) = reading.readBuf (0 + 6 + i)
  congr 1
  omega

theorem asciitoint_succ (dataPtr : Nat → UInt8) (place qty : Nat) :
    asciitoint dataPtr place (qty + 1) =
      asciitoint dataPtr place qty * 10 + ((dataPtr (place + qty)).toNat - 0x30) := by
  rw [asciitoint, range_succ, foldl_append]
  rfl

theorem asciitoint_fixed {dataPtr : Nat → UInt8} {place width n : Nat} (small : n < 10 ^ width)
    (holds : Holds dataPtr place (Decimal.fixed width n)) :
    asciitoint dataPtr place width = n := by
  induction width generalizing n with
  | zero =>
    have zero : n = 0 := by omega
    rw [zero]
    rfl
  | succ width ih =>
    obtain ⟨tens, unit⟩ := holds_append (by rwa [Decimal.fixed] at holds)
    have last : dataPtr (place + width) = Decimal.digit (n % 10) := by
      have here := unit 0 (by simp)
      rwa [Decimal.length_fixed] at here
    have value : ((Decimal.digit (n % 10)).toNat : Int) - 0x30 = (n % 10 : Nat) := by
      have digit := Decimal.toNat_digit (Nat.mod_lt n (by decide : 0 < 10))
      have high := UInt8.le_iff_toNat_le.1 (of_decide_eq_true
        (Decimal.isDigit_digit (Nat.mod_lt n (by decide : 0 < 10)))).1
      have low : (48 : UInt8).toNat = 48 := rfl
      omega
    rw [asciitoint_succ, ih (by rw [Nat.pow_succ] at small; omega) tens, last, value]
    omega

end CimArm.Cdm3000
