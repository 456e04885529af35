import CimArm.Device.Id0003Initializing
import CimArm.Lib.Trace
import Mathlib.Data.List.Basic
import Mathlib.Tactic.Ring

/-!
# A firmware transfer to an ID003 or a CCNET validator

The driver reads the image block by block into a frame and sends it with the offset of
the block; an acknowledgement clears `frameSize`, and as long as it is not cleared the same
frame is sent again, eleven times at the most.  What the driver sends is the last thing
an action does, and the state stays, so the answer, which the source executes inside the
action, is the next step here.

The abort leaves `frameSize` as it is: the machine goes on with a frame that is pending
and no file, and the next transfer begins with that frame.  With CCNET any answer to a
frame counts as its acknowledgement, and the offset has 16 bits.  With ID003 the end is
believed whenever the validator reports it.

* `correct_of_clean`: in every run that meets none of these cases, the acknowledged
  frames are the image from its start on, each under its offset, all of it when success is
  notified; and after an abort nothing is pending, and nothing is sent.
-/

namespace CimArm.FirmwareTransfer

open Trace List
open Id0003 (ID003_IDLING ID003_REJECTING ID003_DISABLED ID003_POWER_UP ID003_STACKER_FULL
  ID003_COMM_ERROR)

/-! ## Frames -/

inductive Protocol : Type
  | ID003
  | CCNET
  deriving DecidableEq

/-- The part of a frame that depends on the image. -/
structure Frame : Type where
  offset : List UInt8
  data : List UInt8
  deriving DecidableEq

/-- An offset as it stands in a frame: four bytes, or three of which the first is zero. -/
def offsetField : Protocol → Nat → List UInt8
  | .ID003, n =>
    [UInt8.ofNat n, UInt8.ofNat (n >>> 8), UInt8.ofNat (n >>> 16), UInt8.ofNat (n >>> 24)]
  | .CCNET, n => [0, UInt8.ofNat ((n &&& 0xFF00) >>> 8), UInt8.ofNat (n &&& 0x00FF)]

/-- The offset that a frame names. -/
def offsetValue : Protocol → List UInt8 → Nat
  | .ID003, field =>
    (field.getD 0 0).toNat + 256 * (field.getD 1 0).toNat + 65536 * (field.getD 2 0).toNat +
      16777216 * (field.getD 3 0).toNat
  | .CCNET, field =>
    65536 * (field.getD 0 0).toNat + 256 * (field.getD 1 0).toNat + (field.getD 2 0).toNat

/-- The offsets below it can be named. -/
def offsetLimit : Protocol → Nat
  | .ID003 => 4294967296
  | .CCNET => 65536

/-! ## The driver -/

/-- The states a transfer is in; it has `left` them for one of the others, or read from a
file that is not open. -/
inductive State : Type
  | startFirmwareUpd
  | updateFirmware
  | left
  | crashed
  deriving DecidableEq

inductive Command : Type
  | status
  | disable
  | downloadStart
  | blockSize
  | data
  | downloadEnd
  deriving DecidableEq

/-- What the transfer has sent to the validator, and told to the application. -/
inductive Entry : Type
  | frame (f : Frame)
  | notified (result : UInt8)
  deriving DecidableEq

/-- The fields of the validator's record that a transfer uses, the state of its machine
and the command that waits for an answer; `log`, latest first, and `acknowledged` are kept
beside them. -/
structure JcmBillAcceptData : Type where
  currentState : State
  awaiting : Command
  firmImage : Option (List UInt8)
  /-- Where the file is read next. -/
  position : Nat
  /-- `offsetTransfer` with ID003, `fileOffset` with CCNET. -/
  offsetTransfer : Nat
  blockSize : Nat
  frameSize : Nat
  firmwFrame : Frame
  qtySentWithAck : UInt8
  commErrQty : UInt8
  imageCrc : UInt16
  log : List Entry
  acknowledged : List Frame

/-- An answer, from its command byte on for ID003 and behind it for CCNET; `ack` tells
whether a CCNET validator acknowledges the frame that it answers. -/
structure Reply : Type where
  bytes : List UInt8
  ack : Bool

def FIRM_UPD_DATA_SIZE : Nat := 246

def CCNET_COMM_ERROR : UInt8 := 0x48

def downloadStatusCmd : UInt8 := 0xD4

def downloadEndStatusCmd : UInt8 := 0xD3

def crcNibble (baseCrc : UInt16) (c : UInt16) : UInt16 :=
  (baseCrc >>> 4) ^^^ (((baseCrc ^^^ c) &&& 0x0F) * 0x1081)

def calcCrc (baseCrc : UInt16) (data : List UInt8) : UInt16 :=
  data.foldl (fun crc (b : UInt8) => crcNibble (crcNibble crc b.toUInt16) (b.toUInt16 >>> 4)) baseCrc

def notifyFirmwareUpdate (result : UInt8) (d : JcmBillAcceptData) : JcmBillAcceptData :=
  { d with firmImage := none, log := .notified result :: d.log }

def goto (newState : State) (d : JcmBillAcceptData) : JcmBillAcceptData :=
  { d with currentState := newState }

def send (command : Command) (d : JcmBillAcceptData) : JcmBillAcceptData :=
  { d with awaiting := command }

def abortUpdate (d : JcmBillAcceptData) : JcmBillAcceptData := notifyFirmwareUpdate 255 d

def maxTriesReached (d : JcmBillAcceptData) : Prop := d.commErrQty > 8

instance (d : JcmBillAcceptData) : Decidable (maxTriesReached d) :=
  inferInstanceAs (Decidable (_ > _))

/-- The frame in the buffer. -/
def JcmBillAcceptData.pending (d : JcmBillAcceptData) : Frame :=
  ⟨d.firmwFrame.offset, d.firmwFrame.data.take d.frameSize⟩

def sendFrame (d : JcmBillAcceptData) : JcmBillAcceptData :=
  { send .data d with log := .frame d.pending :: d.log }

/-- Read the next block into the frame. -/
def readFrame (protocol : Protocol) (size : Nat) (image : List UInt8) (d : JcmBillAcceptData) :
    JcmBillAcceptData :=
  let data := (image.drop d.position).take size
  { d with
    firmwFrame := ⟨offsetField protocol d.offsetTransfer, data⟩
    frameSize := data.length
    position := d.position + data.length
    offsetTransfer := d.offsetTransfer + data.length }

/-- The function both protocols have: the size of a block, the state after an abort and
what becomes of the checksum differ. -/
def transferNextFrame (protocol : Protocol) (size : Nat) (aborted : State)
    (crc : UInt16 → List UInt8 → UInt16) (d : JcmBillAcceptData) : JcmBillAcceptData :=
  if d.frameSize ≠ 0 ∧ d.qtySentWithAck > 10 then goto aborted (notifyFirmwareUpdate 255 d)
  else if d.frameSize = 0 then
    match d.firmImage with
    | none => goto .crashed d
    | some image =>
      let d := readFrame protocol size image d
      if d.frameSize = 0 then send .downloadEnd d
      else sendFrame { d with imageCrc := crc d.imageCrc d.firmwFrame.data, qtySentWithAck := 0 }
  else sendFrame { d with qtySentWithAck := d.qtySentWithAck + 1 }

def doTransferNextFrame (d : JcmBillAcceptData) : JcmBillAcceptData :=
  transferNextFrame .ID003 FIRM_UPD_DATA_SIZE .updateFirmware calcCrc d

def doTransferNextFrameCcnet (d : JcmBillAcceptData) : JcmBillAcceptData :=
  transferNextFrame .CCNET d.blockSize .left (fun crc _ => crc) d

/-- The last frame is cleared; `ack` says whether it was acknowledged. -/
def resetBuffer (ack : Bool) (d : JcmBillAcceptData) : JcmBillAcceptData :=
  { d with
    frameSize := 0
    acknowledged := if d.frameSize ≠ 0 ∧ ack then d.acknowledged ++ [d.pending]
      else d.acknowledged }

/-- The checksum of the validator is that of what was read. -/
def checksumMatches (bytes : List UInt8) (d : JcmBillAcceptData) : Prop :=
  d.imageCrc = ((bytes.getD 2 0).toUInt16 <<< 8) ||| (bytes.getD 3 0).toUInt16

instance (bytes : List UInt8) (d : JcmBillAcceptData) : Decidable (checksumMatches bytes d) :=
  inferInstanceAs (Decidable (_ = _))

def verifyChecksumACK (bytes : List UInt8) (d : JcmBillAcceptData) : JcmBillAcceptData :=
  notifyFirmwareUpdate (if checksumMatches bytes d then 100 else 255) d

def verifyDownloadResultCcnet (bytes : List UInt8) (d : JcmBillAcceptData) : JcmBillAcceptData :=
  notifyFirmwareUpdate (if bytes.getD 0 0 ≠ 0xE0 then 255 else 100) d

def processBlockSizeCcnet (bytes : List UInt8) (d : JcmBillAcceptData) : JcmBillAcceptData :=
  { d with blockSize :=
      if bytes.getD 0 0 ≤ 9 then 2 ^ (bytes.getD 0 0).toNat else 512 }

def errorDetected (event : UInt8) : Prop :=
  ID003_STACKER_FULL ≤ event ∧ event ≤ ID003_COMM_ERROR ∨ event = ID003_REJECTING

instance (event : UInt8) : Decidable (errorDetected event) :=
  inferInstanceAs (Decidable (_ ∨ _))

/-- The entries of both start states. -/
def loadStartFirmUpdate (d : JcmBillAcceptData) : JcmBillAcceptData :=
  { goto .startFirmwareUpd d with qtySentWithAck := 0 }

/-- The entry of the initializing state takes a transfer up again. -/
def loadInitializing (d : JcmBillAcceptData) : JcmBillAcceptData :=
  if d.firmImage.isSome then loadStartFirmUpdate d else goto .left d

/-- `jcmStartFirmUpdateTransitions` and `jcmUpdateFirmwareTransitions`. -/
def executeId003 (event : UInt8) (bytes : List UInt8) (d : JcmBillAcceptData) :
    JcmBillAcceptData :=
  match d.currentState with
  | .startFirmwareUpd =>
    if event = ID003_COMM_ERROR ∧ maxTriesReached d then goto .left (abortUpdate d)
    else if errorDetected event then send .downloadStart d
    else if event = ID003_DISABLED then send .downloadStart d
    else if event = ID003_IDLING then send .disable d
    else if event = ID003_POWER_UP then send .downloadStart d
    else if event = 0x50 then goto .updateFirmware d
    else if event = downloadStatusCmd then goto .updateFirmware d
    else d
  | .updateFirmware =>
    if event = 0x50 then resetBuffer true d
    else if event = downloadStatusCmd ∧ bytes.getD 1 0 = 0 then doTransferNextFrame d
    else if event = downloadEndStatusCmd then verifyChecksumACK bytes d
    else if event = ID003_POWER_UP then loadInitializing d
    else if event = ID003_COMM_ERROR ∧ maxTriesReached d then goto .left (abortUpdate d)
    else d
  | .left | .crashed => d

/-- `ccnetStartFirmUpdateTransitions` and `ccnetFirmwareUpdateTransitions`. -/
def executeCcnet (event : UInt8) (bytes : List UInt8) (ack : Bool) (d : JcmBillAcceptData) :
    JcmBillAcceptData :=
  match d.currentState with
  | .startFirmwareUpd =>
    if event = CCNET_COMM_ERROR ∧ maxTriesReached d then goto .left (abortUpdate d)
    else if event = 0x51 then processBlockSizeCcnet bytes d
    else if d.blockSize = 0 then send .blockSize d
    else if event = 0x50 then goto .updateFirmware d
    else d
  | .updateFirmware =>
    if event = 0x50 then doTransferNextFrameCcnet d
    else if event = 0x52 then resetBuffer ack d
    else if event = 0x53 then loadInitializing (verifyDownloadResultCcnet bytes d)
    else if event = CCNET_COMM_ERROR then goto .left (abortUpdate d)
    else d
  | .left | .crashed => d

/-- The event of a CCNET answer: that of the command it answers. -/
def ccnetEvent : Command → UInt8
  | .blockSize => 0x51
  | .data => 0x52
  | .downloadEnd => 0x53
  | .status | .disable | .downloadStart => 0x50

/-- What `billAcceptWriteRead` executes: the event and the answer, if any. -/
def eventOf (protocol : Protocol) (reply : Option Reply) (d : JcmBillAcceptData) :
    Option (UInt8 × Reply) :=
  match protocol, reply with
  | .ID003, some r => some (r.bytes.getD 0 0, r)
  | .CCNET, some r => some (ccnetEvent d.awaiting, r)
  | .ID003, none => if d.commErrQty + 1 > 3 then some (ID003_COMM_ERROR, ⟨[], false⟩) else none
  | .CCNET, none => if d.commErrQty + 1 > 3 then some (CCNET_COMM_ERROR, ⟨[], false⟩) else none

/-- The command is answered, or not. -/
def answered (reply : Option Reply) (d : JcmBillAcceptData) : JcmBillAcceptData :=
  { d with awaiting := .status, commErrQty := if reply.isSome then 0 else d.commErrQty + 1 }

def execute (protocol : Protocol) (event : UInt8) (r : Reply) (d : JcmBillAcceptData) :
    JcmBillAcceptData :=
  match protocol with
  | .ID003 => executeId003 event r.bytes d
  | .CCNET => executeCcnet event r.bytes r.ack d

/-- A command, the status poll when no other waits, and what comes back. -/
def step (protocol : Protocol) (reply : Option Reply) (d : JcmBillAcceptData) :
    JcmBillAcceptData :=
  match eventOf protocol reply d with
  | none => answered reply d
  | some (event, r) => execute protocol event r (answered reply d)

/-- Where the image is read from: with CCNET, at the address of its first record. -/
def fileOffset (protocol : Protocol) (address : Nat) : Nat :=
  if protocol = .CCNET then address else 0

/-- A transfer begins: the machine takes `ID003_UPDATE_FIRM`. -/
def billAcceptorUpdate (protocol : Protocol) (image : List UInt8) (address : Nat)
    (d : JcmBillAcceptData) : Option JcmBillAcceptData :=
  if fileOffset protocol address < image.length then
    some (loadStartFirmUpdate { d with
      firmImage := some image, position := fileOffset protocol address
      offsetTransfer := fileOffset protocol address, blockSize := 0, imageCrc := 0
      log := [], acknowledged := [], awaiting := .status })
  else none

/-! ## What a transfer is for -/

/-- The bytes of a list of frames. -/
def contents (frames : List Frame) : List UInt8 := frames.flatMap Frame.data

/-- The frames are the image from `base` on, as far as they go, each under its offset. -/
structure Placed (protocol : Protocol) (image : List UInt8) (base : Nat)
    (frames : List Frame) : Prop where
  data : contents frames <+: image.drop base
  offsets : ∀ (i : Nat) (f : Frame), frames[i]? = some f →
    offsetValue protocol f.offset = base + (contents (frames.take i)).length

/-- No frame is sent after an abort; the log has the latest entry first. -/
def Quiet : List Entry → Prop
  | [] => True
  | .frame _ :: rest => .notified 255 ∉ rest ∧ Quiet rest
  | .notified _ :: rest => Quiet rest

structure Correct (protocol : Protocol) (image : List UInt8) (base : Nat)
    (d : JcmBillAcceptData) : Prop where
  placed : Placed protocol image base d.acknowledged
  whole : .notified 100 ∈ d.log → contents d.acknowledged = image.drop base
  cleared : .notified 255 ∈ d.log → d.firmImage = none ∧ d.frameSize = 0
  quiet : Quiet d.log
  running : d.currentState ≠ .crashed

/-! ## The cases that go wrong -/

/-- A frame is sent again eleven times at the most, and a new one comes from an open file
and has an offset that fits. -/
def CleanTransfer (protocol : Protocol) (image : List UInt8) (d : JcmBillAcceptData) : Prop :=
  (d.frameSize = 0 → d.firmImage.isSome ∧
      (d.position < image.length → d.offsetTransfer < offsetLimit protocol)) ∧
    (d.frameSize ≠ 0 → d.qtySentWithAck ≤ 10)

instance (protocol : Protocol) (image : List UInt8) (d : JcmBillAcceptData) :
    Decidable (CleanTransfer protocol image d) :=
  inferInstanceAs (Decidable (_ ∧ _))

/-- No frame is pending at an abort or when the end is reported, and a checksum that
matches is that of the whole image. -/
def CleanId003 (image : List UInt8) (event : UInt8) (bytes : List UInt8)
    (d : JcmBillAcceptData) : Prop :=
  (event = ID003_COMM_ERROR → maxTriesReached d → d.frameSize = 0) ∧
    (d.currentState = .updateFirmware →
      (event = downloadStatusCmd → bytes.getD 1 0 = 0 → CleanTransfer .ID003 image d) ∧
      (event = downloadEndStatusCmd →
        d.frameSize = 0 ∧ (checksumMatches bytes d → image.length ≤ d.position)))

instance (image : List UInt8) (event : UInt8) (bytes : List UInt8) (d : JcmBillAcceptData) :
    Decidable (CleanId003 image event bytes d) :=
  inferInstanceAs (Decidable (_ ∧ _))

/-- No frame is pending at an abort, and the answer to a frame acknowledges it. -/
def CleanCcnet (image : List UInt8) (event : UInt8) (ack : Bool) (d : JcmBillAcceptData) : Prop :=
  (event = CCNET_COMM_ERROR → d.currentState = .updateFirmware ∨ maxTriesReached d →
      d.frameSize = 0) ∧
    (d.currentState = .updateFirmware →
      (event = 0x50 → CleanTransfer .CCNET image d) ∧
      (event = 0x52 → d.frameSize ≠ 0 → ack = true))

instance (image : List UInt8) (event : UInt8) (ack : Bool) (d : JcmBillAcceptData) :
    Decidable (CleanCcnet image event ack d) :=
  inferInstanceAs (Decidable (_ ∧ _))

def CleanEvent (image : List UInt8) (event : UInt8) (r : Reply) (d : JcmBillAcceptData) :
    Protocol → Prop
  | .ID003 => CleanId003 image event r.bytes d
  | .CCNET => CleanCcnet image event r.ack d

instance (image : List UInt8) (event : UInt8) (r : Reply) (d : JcmBillAcceptData) :
    (protocol : Protocol) → Decidable (CleanEvent image event r d protocol)
  | .ID003 => inferInstanceAs (Decidable (CleanId003 image event r.bytes d))
  | .CCNET => inferInstanceAs (Decidable (CleanCcnet image event r.ack d))

/-- An answer that meets none of the cases. -/
def Clean (protocol : Protocol) (image : List UInt8) (d : JcmBillAcceptData)
    (reply : Option Reply) : Prop :=
  ∀ e ∈ eventOf protocol reply d, CleanEvent image e.1 e.2 (answered reply d) protocol

instance (protocol : Protocol) (image : List UInt8) (d : JcmBillAcceptData)
    (reply : Option Reply) : Decidable (Clean protocol image d reply) :=
  inferInstanceAs (Decidable (∀ e ∈ eventOf protocol reply d, _))

/-! ## Frames of the image -/

theorem toNat_ofNat_byte (n : Nat) : (UInt8.ofNat n).toNat = n % 256 := UInt8.toNat_ofNat'

theorem offsetValue_offsetField {protocol : Protocol} {n : Nat} (fits : n < offsetLimit protocol) :
    offsetValue protocol (offsetField protocol n) = n := by
  cases protocol with
  | ID003 =>
    simp only [offsetLimit] at fits
    simp only [offsetField, offsetValue, getD_cons_zero, getD_cons_succ,
      toNat_ofNat_byte, Nat.shiftRight_eq_div_pow]
    omega
  | CCNET =>
    simp only [offsetLimit] at fits
    have high : (n &&& 0xFF00) >>> 8 = n / 256 % 256 := by
      rw [Nat.shiftRight_and_distrib, Nat.shiftRight_eq_div_pow]
      exact Nat.and_two_pow_sub_one_eq_mod (n / 2 ^ 8) 8
    have low : n &&& 0x00FF = n % 256 := Nat.and_two_pow_sub_one_eq_mod n 8
    simp only [offsetField, offsetValue, getD_cons_zero, getD_cons_succ,
      toNat_ofNat_byte, high, low, UInt8.toNat_zero]
    omega

theorem contents_append (frames more : List Frame) :
    contents (frames ++ more) = contents frames ++ contents more :=
  flatMap_append

theorem contents_singleton (f : Frame) : contents [f] = f.data := by
  simp [contents]

theorem Placed.nil (protocol : Protocol) (image : List UInt8) (base : Nat) :
    Placed protocol image base [] where
  data := nil_prefix
  offsets := by
    intro i f at_
    cases at_

theorem Placed.snoc {protocol : Protocol} {image : List UInt8} {base : Nat} {frames : List Frame}
    (placed : Placed protocol image base frames) {f : Frame}
    (block : f.data <+: image.drop (base + (contents frames).length))
    (offset : offsetValue protocol f.offset = base + (contents frames).length) :
    Placed protocol image base (frames ++ [f]) where
  data := by
    rcases placed.data with ⟨rest, split⟩
    have behind : rest = image.drop (base + (contents frames).length) := by
      rw [← drop_drop, ← split, drop_left]
    rw [contents_append, contents_singleton, ← split]
    exact (prefix_append_right_inj _).2 (behind ▸ block)
  offsets := by
    intro i g at_
    rcases Nat.lt_trichotomy i frames.length with earlier | rfl | later
    · rw [List.getElem?_append_left earlier] at at_
      rw [take_append_of_le_length (Nat.le_of_lt earlier)]
      exact placed.offsets i g at_
    · rw [List.getElem?_concat_length] at at_
      cases at_
      rw [take_left]
      exact offset
    · rw [List.getElem?_eq_none (by simp; omega)] at at_
      cases at_

theorem Placed.left {protocol : Protocol} {image : List UInt8} {base : Nat}
    {frames more : List Frame} (placed : Placed protocol image base (frames ++ more)) :
    Placed protocol image base frames where
  data := by
    have data := placed.data
    rw [contents_append] at data
    exact (prefix_append _ _).trans data
  offsets := by
    intro i f at_
    have inside : i < frames.length := (List.getElem?_eq_some_iff.1 at_).1
    have offset := placed.offsets i f ((List.getElem?_append_left inside).trans at_)
    rwa [take_append_of_le_length (Nat.le_of_lt inside)] at offset

/-! ## What every answer keeps -/

/-- The frames read so far. -/
def JcmBillAcceptData.frames (d : JcmBillAcceptData) : List Frame :=
  if d.frameSize = 0 then d.acknowledged else d.acknowledged ++ [d.pending]

theorem pending_readFrame (protocol : Protocol) (size : Nat) (image : List UInt8)
    (d : JcmBillAcceptData) :
    (readFrame protocol size image d).pending =
      ⟨offsetField protocol d.offsetTransfer, (image.drop d.position).take size⟩ :=
  congrArg _ take_length

/-- The file, the frame and the log fit together: a frame is pending only as long as
nothing has been notified. -/
structure Consistent (protocol : Protocol) (image : List UInt8) (base : Nat)
    (d : JcmBillAcceptData) : Prop where
  file : d.firmImage = some image ∧ (∀ result, Entry.notified result ∉ d.log) ∨
    d.firmImage = none ∧ d.frameSize = 0
  placed : Placed protocol image base d.frames
  position : d.position = base + (contents d.frames).length
  offset : d.offsetTransfer = d.position
  success : .notified 100 ∈ d.log → image.length ≤ d.position
  quiet : Quiet d.log

namespace Consistent

variable {protocol : Protocol} {image : List UInt8} {base : Nat} {d : JcmBillAcceptData}

theorem control (consistent : Consistent protocol image base d) (currentState : State)
    (awaiting : Command) (blockSize : Nat) (qtySentWithAck commErrQty : UInt8)
    (imageCrc : UInt16) :
    Consistent protocol image base
      { d with
        currentState := currentState, awaiting := awaiting, blockSize := blockSize
        qtySentWithAck := qtySentWithAck, commErrQty := commErrQty, imageCrc := imageCrc } :=
  ⟨consistent.file, consistent.placed, consistent.position, consistent.offset,
    consistent.success, consistent.quiet⟩

theorem start (idle : d.frameSize = 0) (file : d.firmImage = some image)
    (position : d.position = base) (offset : d.offsetTransfer = base) (log : d.log = [])
    (acknowledged : d.acknowledged = []) : Consistent protocol image base d := by
  have frames : d.frames = [] := (if_pos idle).trans acknowledged
  refine ⟨.inl ⟨file, ?_⟩, ?_, ?_, offset.trans position.symm, ?_, ?_⟩
  · intro result
    rw [log]
    exact not_mem_nil
  · rw [frames]
    exact .nil protocol image base
  · rw [frames]
    exact position
  · rw [log]
    exact fun notified => absurd notified not_mem_nil
  · rw [log]
    trivial

theorem notify (consistent : Consistent protocol image base d) {result : UInt8}
    (idle : d.frameSize = 0) (success : result = 100 → image.length ≤ d.position) :
    Consistent protocol image base (notifyFirmwareUpdate result d) where
  file := .inr ⟨rfl, idle⟩
  placed := consistent.placed
  position := consistent.position
  offset := consistent.offset
  success := by
    intro notified
    rcases mem_cons.1 notified with now | before
    · exact success (Entry.notified.inj now).symm
    · exact consistent.success before
  quiet := consistent.quiet

theorem resetBuffer (consistent : Consistent protocol image base d) {ack : Bool}
    (acknowledged : d.frameSize ≠ 0 → ack = true) :
    Consistent protocol image base (resetBuffer ack d) := by
  have same : (FirmwareTransfer.resetBuffer ack d).frames = d.frames := by
    unfold JcmBillAcceptData.frames FirmwareTransfer.resetBuffer
    by_cases idle : d.frameSize = 0
    · simp [idle]
    · simp [idle, acknowledged idle]
  refine ⟨?_, same ▸ consistent.placed, same ▸ consistent.position, consistent.offset,
    consistent.success, consistent.quiet⟩
  rcases consistent.file with running | closed
  · exact .inl running
  · exact .inr ⟨closed.1, rfl⟩

theorem readFrame (consistent : Consistent protocol image base d) (idle : d.frameSize = 0)
    (opened : d.firmImage.isSome) (size : Nat)
    (fits : d.position < image.length → d.offsetTransfer < offsetLimit protocol) :
    Consistent protocol image base (readFrame protocol size image d) := by
  have placed := consistent.placed
  have position := consistent.position
  rw [show d.frames = d.acknowledged from if_pos idle] at placed position
  have running : d.firmImage = some image ∧ ∀ result, Entry.notified result ∉ d.log := by
    rcases consistent.file with running | closed
    · exact running
    · rw [closed.1] at opened
      cases opened
  have offset := congrArg (· + ((image.drop d.position).take size).length) consistent.offset
  have success : .notified 100 ∈ d.log →
      image.length ≤ d.position + ((image.drop d.position).take size).length :=
    fun notified => absurd notified (running.2 100)
  by_cases nothing : ((image.drop d.position).take size).length = 0
  · have frames : (FirmwareTransfer.readFrame protocol size image d).frames =
        d.acknowledged := if_pos nothing
    refine ⟨.inl running, frames ▸ placed, ?_, offset, success, consistent.quiet⟩
    rw [frames, ← position]
    exact congrArg (d.position + ·) nothing
  · have frames : (FirmwareTransfer.readFrame protocol size image d).frames =
        d.acknowledged ++ [⟨offsetField protocol d.offsetTransfer,
          (image.drop d.position).take size⟩] := by
      rw [← pending_readFrame]
      exact if_neg nothing
    have inside : d.position < image.length := by
      rw [length_take, length_drop] at nothing
      omega
    refine ⟨.inl running, frames ▸ placed.snoc ?_ ?_, ?_, offset, success, consistent.quiet⟩
    · rw [← position]
      exact take_prefix _ _
    · rw [offsetValue_offsetField (fits inside), consistent.offset, position]
    · rw [frames, contents_append, contents_singleton, length_append, ← Nat.add_assoc, ← position]
      rfl

theorem sendFrame (consistent : Consistent protocol image base d) (pending : d.frameSize ≠ 0) :
    Consistent protocol image base (sendFrame d) := by
  have running : d.firmImage = some image ∧ ∀ result, Entry.notified result ∉ d.log := by
    rcases consistent.file with running | closed
    · exact running
    · exact absurd closed.2 pending
  refine ⟨.inl ⟨running.1, ?_⟩, consistent.placed, consistent.position, consistent.offset, ?_,
    running.2 255, consistent.quiet⟩
  · intro result notified
    rcases mem_cons.1 notified with now | before
    · cases now
    · exact running.2 result before
  · intro notified
    rcases mem_cons.1 notified with now | before
    · cases now
    · exact absurd before (running.2 100)

end Consistent

/-- What holds before every answer. -/
structure Invariant (protocol : Protocol) (image : List UInt8) (base : Nat)
    (d : JcmBillAcceptData) : Prop where
  consistent : Consistent protocol image base d
  running : d.currentState ≠ .crashed
  ended : d.awaiting = .downloadEnd → d.frameSize = 0 ∧ image.length ≤ d.position
  blockSize : protocol = .CCNET → d.currentState = .updateFirmware → d.blockSize ≠ 0

namespace Invariant

variable {protocol : Protocol} {image : List UInt8} {base : Nat} {d : JcmBillAcceptData}

theorem answered (invariant : Invariant protocol image base d) (reply : Option Reply) :
    Invariant protocol image base (answered reply d) where
  consistent := invariant.consistent.control _ _ _ _ _ _
  running := invariant.running
  ended := by
    intro ended
    cases ended
  blockSize := invariant.blockSize

theorem goto (invariant : Invariant protocol image base d) {newState : State}
    (running : newState ≠ .crashed)
    (blockSize : newState = .updateFirmware → protocol = .CCNET → d.blockSize ≠ 0) :
    Invariant protocol image base (goto newState d) where
  consistent := invariant.consistent.control _ _ _ _ _ _
  running := running
  ended := invariant.ended
  blockSize := fun ccnet update => blockSize update ccnet

theorem leave (invariant : Invariant protocol image base d) :
    Invariant protocol image base (FirmwareTransfer.goto .left d) :=
  invariant.goto nofun nofun

theorem send (invariant : Invariant protocol image base d) {command : Command}
    (ended : command = .downloadEnd → d.frameSize = 0 ∧ image.length ≤ d.position) :
    Invariant protocol image base (send command d) where
  consistent := invariant.consistent.control _ _ _ _ _ _
  running := invariant.running
  ended := ended
  blockSize := invariant.blockSize

theorem notify (invariant : Invariant protocol image base d) {result : UInt8}
    (idle : d.frameSize = 0) (success : result = 100 → image.length ≤ d.position) :
    Invariant protocol image base (notifyFirmwareUpdate result d) where
  consistent := invariant.consistent.notify idle success
  running := invariant.running
  ended := invariant.ended
  blockSize := invariant.blockSize

theorem abortUpdate (invariant : Invariant protocol image base d) (idle : d.frameSize = 0) :
    Invariant protocol image base (FirmwareTransfer.goto .left (abortUpdate d)) :=
  (invariant.notify idle fun success => absurd success (by decide)).leave

theorem resetBuffer (invariant : Invariant protocol image base d) {ack : Bool}
    (acknowledged : d.frameSize ≠ 0 → ack = true) :
    Invariant protocol image base (resetBuffer ack d) where
  consistent := invariant.consistent.resetBuffer acknowledged
  running := invariant.running
  ended := fun ended => ⟨rfl, (invariant.ended ended).2⟩
  blockSize := invariant.blockSize

theorem loadInitializing (invariant : Invariant protocol image base d) :
    Invariant protocol image base (loadInitializing d) := by
  unfold FirmwareTransfer.loadInitializing
  split
  · exact ⟨invariant.consistent.control _ _ _ _ _ _, nofun, invariant.ended,
      fun _ => nofun⟩
  · exact invariant.leave

theorem sendFrame (invariant : Invariant protocol image base d) (pending : d.frameSize ≠ 0) :
    Invariant protocol image base (sendFrame d) where
  consistent := invariant.consistent.sendFrame pending
  running := invariant.running
  ended := by
    intro ended
    cases ended
  blockSize := invariant.blockSize

theorem transferNextFrame (invariant : Invariant protocol image base d)
    (clean : CleanTransfer protocol image d) {size : Nat} (positive : size ≠ 0)
    (aborted : State) (crc : UInt16 → List UInt8 → UInt16) (awaiting : d.awaiting = .status) :
    Invariant protocol image base (transferNextFrame protocol size aborted crc d) := by
  unfold FirmwareTransfer.transferNextFrame
  by_cases idle : d.frameSize = 0
  · have opened := (clean.1 idle).1
    rw [if_neg (fun again => again.1 idle), if_pos idle]
    cases file : d.firmImage with
    | none =>
      rw [file] at opened
      cases opened
    | some opened_ =>
      have same : opened_ = image := by
        rcases invariant.consistent.file with running | closed
        · exact Option.some.inj (file.symm.trans running.1)
        · rw [closed.1] at file
          cases file
      subst same
      have read : Invariant protocol opened_ base (readFrame protocol size opened_ d) :=
        ⟨invariant.consistent.readFrame idle opened size (clean.1 idle).2, invariant.running,
          fun ended => (nomatch awaiting.symm.trans ended), invariant.blockSize⟩
      dsimp only
      split
      · rename_i nothing
        refine read.send fun _ => ⟨nothing, ?_⟩
        have all : ((opened_.drop d.position).take size).length = 0 := nothing
        rw [length_take, length_drop] at all
        have behind : opened_.length ≤ d.position := by omega
        exact Nat.le_trans behind (Nat.le_add_right _ _)
      · rename_i something
        exact sendFrame
          ⟨read.consistent.control _ _ _ _ _ _, read.running, read.ended, read.blockSize⟩
          something
  · have again : ¬ d.qtySentWithAck > 10 := UInt8.not_lt.2 (clean.2 idle)
    rw [if_neg (fun both => again both.2), if_neg idle]
    exact sendFrame ⟨invariant.consistent.control _ _ _ _ _ _, invariant.running,
      invariant.ended, invariant.blockSize⟩ idle

variable {bytes : List UInt8}

theorem verifyChecksumACK (invariant : Invariant protocol image base d) (idle : d.frameSize = 0)
    (whole : checksumMatches bytes d → image.length ≤ d.position) :
    Invariant protocol image base (verifyChecksumACK bytes d) := by
  refine invariant.notify idle fun success => ?_
  by_cases same : checksumMatches bytes d
  · exact whole same
  · rw [if_neg same] at success
    exact absurd success (by decide)

theorem executeId003 (invariant : Invariant .ID003 image base d) {event : UInt8}
    (awaiting : d.awaiting = .status) (clean : CleanId003 image event bytes d) :
    Invariant .ID003 image base (executeId003 event bytes d) := by
  have update : Invariant .ID003 image base (FirmwareTransfer.goto .updateFirmware d) :=
    invariant.goto nofun fun _ ccnet => Protocol.noConfusion ccnet
  unfold FirmwareTransfer.executeId003
  cases state : d.currentState with
  | startFirmwareUpd =>
    dsimp only
    split_ifs with errors detected disabled idling powerUp ack status
    · exact invariant.abortUpdate (clean.1 errors.1 errors.2)
    · exact invariant.send nofun
    · exact invariant.send nofun
    · exact invariant.send nofun
    · exact invariant.send nofun
    · exact update
    · exact update
    · exact invariant
  | updateFirmware =>
    rcases clean.2 state with ⟨transfer, reported⟩
    dsimp only
    split_ifs with ack ready ends powerUp errors
    · exact invariant.resetBuffer fun _ => rfl
    · exact invariant.transferNextFrame (transfer ready.1 ready.2) (by decide) _ _ awaiting
    · exact invariant.verifyChecksumACK (reported ends).1 (reported ends).2
    · exact invariant.loadInitializing
    · exact invariant.abortUpdate (clean.1 errors.1 errors.2)
    · exact invariant
  | left => exact invariant
  | crashed => exact invariant

theorem executeCcnet (invariant : Invariant .CCNET image base d) {event : UInt8} {ack : Bool}
    (awaiting : d.awaiting = .status)
    (ended : event = 0x53 → d.frameSize = 0 ∧ image.length ≤ d.position)
    (clean : CleanCcnet image event ack d) :
    Invariant .CCNET image base (executeCcnet event bytes ack d) := by
  unfold FirmwareTransfer.executeCcnet
  cases state : d.currentState with
  | startFirmwareUpd =>
    dsimp only
    split_ifs with errors asked unknown status
    · exact invariant.abortUpdate (clean.1 errors.1 (.inr errors.2))
    · exact ⟨invariant.consistent.control _ _ _ _ _ _, invariant.running, invariant.ended,
        fun _ update => nomatch (state.symm.trans update)⟩
    · exact invariant.send nofun
    · exact invariant.goto nofun fun _ _ => unknown
    · exact invariant
  | updateFirmware =>
    rcases clean.2 state with ⟨transfer, answer⟩
    dsimp only
    split_ifs with status taken ends errors
    · exact invariant.transferNextFrame (transfer status) (invariant.blockSize rfl state) _ _
        awaiting
    · exact invariant.resetBuffer (answer taken)
    · exact (invariant.notify (ended ends).1 fun _ => (ended ends).2).loadInitializing
    · exact invariant.abortUpdate (clean.1 errors (.inl state))
    · exact invariant
  | left => exact invariant
  | crashed => exact invariant

theorem step (invariant : Invariant protocol image base d) {reply : Option Reply}
    (clean : Clean protocol image d reply) :
    Invariant protocol image base (step protocol reply d) := by
  unfold FirmwareTransfer.step
  cases event : eventOf protocol reply d with
  | none => exact invariant.answered reply
  | some e =>
    have meets := clean e event
    cases protocol with
    | ID003 => exact (invariant.answered reply).executeId003 rfl meets
    | CCNET =>
      refine (invariant.answered reply).executeCcnet rfl (fun ends => ?_) meets
      refine invariant.ended ?_
      cases reply with
      | none =>
        simp only [eventOf] at event
        split_ifs at event
        cases event
        exact absurd ends (by decide)
      | some r =>
        cases event
        cases waits : d.awaiting <;> simp [ccnetEvent, waits] at ends ⊢

theorem billAcceptorUpdate {address : Nat} {before : JcmBillAcceptData}
    (started : billAcceptorUpdate protocol image address before = some d)
    (idle : before.frameSize = 0) :
    Invariant protocol image (fileOffset protocol address) d := by
  unfold FirmwareTransfer.billAcceptorUpdate at started
  split_ifs at started
  cases started
  exact ⟨.start idle rfl rfl rfl rfl rfl, nofun, nofun,
    fun _ => nofun⟩

theorem correct (invariant : Invariant protocol image base d) :
    Correct protocol image base d := by
  have consistent := invariant.consistent
  have cleared : ∀ result, .notified result ∈ d.log → d.firmImage = none ∧ d.frameSize = 0 := by
    intro result notified
    rcases consistent.file with running | closed
    · exact absurd notified (running.2 result)
    · exact closed
  have acknowledged : d.frameSize = 0 → d.frames = d.acknowledged := fun idle => if_pos idle
  refine ⟨?_, ?_, cleared 255, consistent.quiet, invariant.running⟩
  · by_cases idle : d.frameSize = 0
    · exact acknowledged idle ▸ consistent.placed
    · have placed := consistent.placed
      rw [show d.frames = d.acknowledged ++ [d.pending] from if_neg idle] at placed
      exact placed.left
  · intro notified
    have idle := (cleared 100 notified).2
    have position := consistent.position
    have placed := consistent.placed
    rw [acknowledged idle] at position placed
    refine placed.data.eq_of_length_le ?_
    have all := consistent.success notified
    rw [length_drop]
    omega

end Invariant

/-- In a run that meets none of the cases the transfer is correct after every answer. -/
theorem correct_of_clean {protocol : Protocol} {image : List UInt8} {address : Nat}
    {before d : JcmBillAcceptData}
    (started : billAcceptorUpdate protocol image address before = some d)
    (idle : before.frameSize = 0) (replies : List (Option Reply))
    (clean : Always (step protocol) (Clean protocol image) replies d) :
    Correct protocol image (fileOffset protocol address) (after (step protocol) replies d) := by
  have start : Invariant protocol image (fileOffset protocol address) d :=
    .billAcceptorUpdate started idle
  have kept : Invariant protocol image (fileOffset protocol address)
      (after (step protocol) replies d) :=
    clean.after_of_invariant (Invariant protocol image (fileOffset protocol address))
      (fun invariant meets => invariant.step meets) start
  exact kept.correct

/-! ## Runs -/

/-- A driver that has sent nothing yet. -/
def resting : JcmBillAcceptData :=
  { currentState := .left, awaiting := .status, firmImage := none, position := 0
    offsetTransfer := 0, blockSize := 0, frameSize := 0, firmwFrame := ⟨[], []⟩
    qtySentWithAck := 0, commErrQty := 0, imageCrc := 0, log := [], acknowledged := [] }

/-- A frame that is sent twice since no answer came, and the end. -/
def retried : List (Option Reply) :=
  [some ⟨[0x50], true⟩, some ⟨[0xD4, 0], true⟩, none, some ⟨[0xD4, 0], true⟩,
    some ⟨[0x50], true⟩, some ⟨[0xD4, 0], true⟩, some ⟨[0xD3, 0, 0x5B, 0xF7], true⟩]

/-- A frame that is answered with the status only. -/
def unacknowledged : List (Option Reply) :=
  some ⟨[0x50], true⟩ :: List.replicate 13 (some ⟨[0xD4, 0], true⟩)

/-- Three bytes, of which the device gets the frame at the second try. -/
theorem correct_of_clean_retried :
    ∃ d, billAcceptorUpdate .ID003 [1, 2, 3] 0 resting = some d ∧
      .notified 100 ∈ (after (step .ID003) retried d).log ∧
      Correct .ID003 [1, 2, 3] 0 (after (step .ID003) retried d) :=
  ⟨_, rfl, by decide, @correct_of_clean .ID003 [1, 2, 3] 0 resting _ rfl rfl retried (by decide)⟩

/-- After the abort the frame is still pending. -/
theorem abort_not_cleared :
    ¬ ∀ (protocol : Protocol) (image : List UInt8) (address : Nat)
      (before d : JcmBillAcceptData) (replies : List (Option Reply)),
      billAcceptorUpdate protocol image address before = some d → before.frameSize = 0 →
        Correct protocol image (fileOffset protocol address)
          (after (step protocol) replies d) := by
  intro correct
  have aborted := (correct .ID003 [1, 2, 3] 0 resting _ unacknowledged rfl rfl).cleared (by decide)
  exact absurd aborted.2 (by decide)

end CimArm.FirmwareTransfer
