import CimArm.Lib.Trace
import Mathlib.Data.List.Basic

/-!
# A firmware transfer to an MEI validator

In the state `meiUpdateFirmware` each poll sends one frame: a block of 32 bytes of the
image with its number, each byte in two nibbles, or, after a failure, the frame of before
once more.  A reply with the toggle bit of the frame counts as an acknowledgement; a reply
with the other one tells the last block the device has, and the driver goes on with the
number behind it.

The number is moved then, but not the file: the frame sent next has the number the device
expects and the data of the block sent before.  And an acknowledgement is believed
whatever block it names.  The device is a list of the blocks it has accepted, one number
after the other; what becomes of a frame and of the reply to it is open.

* `accepted_of_consistent`: in every run in which replies with the toggle of their frame
  name its block, and the others the block before, the device accepts the blocks of the
  image one by one, each under its number, and all of them before success is notified.
-/

namespace CimArm.MeiFirmware

open Trace List

/-! ## Nibbles -/

/-- The two nibbles of a byte. -/
def nibbles (b : UInt8) : List UInt8 := [(b >>> 4) &&& 0x0F, b &&& 0x0F]

/-- The byte of two nibbles. -/
def byteOf (high low : UInt8) : UInt8 := ((high <<< 4) &&& 0xF0) ||| (low &&& 0x0F)

def getBlockNo (data : List UInt8) : UInt16 :=
  let aux := byteOf (data.getD 0 0) (data.getD 1 0)
  let blockNo := byteOf (data.getD 2 0) (data.getD 3 0)
  (aux.toUInt16 <<< 8) ||| blockNo.toUInt16

/-- A block number as `prepareBlockNumber` writes it. -/
def blockNumber (blockNo : UInt16) : List UInt8 :=
  nibbles (blockNo >>> 8).toUInt8 ++ nibbles blockNo.toUInt8

/-- The bytes of a list of nibbles. -/
def unpack : List UInt8 → List UInt8
  | high :: low :: rest => byteOf high low :: unpack rest
  | _ => []

/-! ## The device -/

/-- A frame as it is sent. -/
structure Frame : Type where
  toggle : Bool
  number : List UInt8
  data : List UInt8

/-- The blocks the device has accepted, with the numbers they came under. -/
structure Device : Type where
  accepted : List (UInt16 × List UInt8)

/-- What becomes of a frame: it is lost, or the device gets it, and accepts it when it is
the block it waits for, or refuses it; and the reply gets back with the toggle of the
frame or with the other one, or not at all. -/
inductive Answer : Type
  | lost
  | received (accepts : Bool) (reply : Option Bool)
  deriving DecidableEq

/-- A reply: its toggle, and the number of the last block the device has. -/
structure Reply : Type where
  toggle : Bool
  number : List UInt8
  deriving DecidableEq

namespace Device

def expected (dev : Device) : UInt16 := UInt16.ofNat dev.accepted.length

def accept (dev : Device) (frame : Frame) : Device :=
  ⟨dev.accepted ++ [(getBlockNo frame.number, unpack frame.data)]⟩

/-- The device after it got a frame. -/
def afterFrame (dev : Device) (frame : Frame) (accepts : Bool) : Device :=
  if accepts ∧ getBlockNo frame.number = dev.expected then dev.accept frame else dev

def receive (dev : Device) (frame : Frame) : Answer → Device × Option Reply
  | .lost => (dev, none)
  | .received accepts reply =>
    let dev := dev.afterFrame frame accepts
    (dev, reply.map fun same =>
      ⟨if same then frame.toggle else !frame.toggle, blockNumber (dev.expected - 1)⟩)

end Device

/-! ## The driver -/

/-- The fields of the validator's record that a transfer uses, with the file behind
`firmImage`; `notified` is the result told to the application, when the transfer is over
and the state is left. -/
structure JcmBillAcceptData : Type where
  firmImage : List UInt8
  position : Nat
  fileSize : Nat
  offsetTransfer : Nat
  commErrQty : Nat
  blockNo : UInt16
  ackVal : Bool
  /-- `firmwFrame`: the number and the data. -/
  number : List UInt8
  data : List UInt8
  notified : Option UInt8

structure System : Type where
  driver : JcmBillAcceptData
  device : Device

/-- Send the frame and read the reply. -/
def writeReadDownload (answer : Answer) (s : System) : Bool × System :=
  let d := { s.driver with ackVal := !s.driver.ackVal }
  match s.device.receive ⟨d.ackVal, d.number, d.data⟩ answer with
  | (device, some reply) =>
    if d.ackVal = reply.toggle then
      if getBlockNo reply.number ≠ 0xFFFF then (true, ⟨{ d with commErrQty := 0 }, device⟩)
      else (false, ⟨{ d with commErrQty := d.commErrQty + 1 }, device⟩)
    else
      (false,
        ⟨{ d with blockNo := getBlockNo reply.number + 1, commErrQty := d.commErrQty + 1 }, device⟩)
  | (device, none) => (false, ⟨{ d with commErrQty := d.commErrQty + 1 }, device⟩)

def prepareBlockNumber (d : JcmBillAcceptData) : JcmBillAcceptData :=
  { d with number := blockNumber d.blockNo }

/-- A frame that is acknowledged: on to the next block. -/
def sendFrame (answer : Answer) (s : System) : System :=
  let (sent, s) := writeReadDownload answer s
  if sent then { s with driver := { s.driver with blockNo := s.driver.blockNo + 1 } } else s

/-- The frame of before, under the block number of now.  The acknowledge bit is turned
back, since sending turns it. -/
def doTransferSameFrameMei (answer : Answer) (s : System) : System :=
  let d := prepareBlockNumber s.driver
  sendFrame answer { s with driver := { d with ackVal := !d.ackVal } }

/-- Read the next block into the frame; a block that is shorter leaves the end of the one
before. -/
def readBlock (d : JcmBillAcceptData) : JcmBillAcceptData :=
  let tempData := (d.firmImage.drop d.position).take 32
  { d with
    data := tempData.flatMap nibbles ++ d.data.drop (2 * tempData.length)
    position := d.position + tempData.length
    offsetTransfer := d.offsetTransfer + tempData.length }

def doTransferNextFrameMei (answer : Answer) (s : System) : System :=
  if s.driver.commErrQty < 10 then
    if s.driver.offsetTransfer < s.driver.fileSize then
      sendFrame answer { s with driver := readBlock (prepareBlockNumber s.driver) }
    else { s with driver := { s.driver with notified := some 100 } }
  else { s with driver := { s.driver with notified := some 255 } }

def transferFailed (d : JcmBillAcceptData) : Bool := d.commErrQty ≠ 0 ∧ d.commErrQty < 10

/-- A poll in the state `meiUpdateFirmware`. -/
def poll (answer : Answer) (s : System) : System :=
  if s.driver.notified.isSome then s
  else if transferFailed s.driver then doTransferSameFrameMei answer s
  else doTransferNextFrameMei answer s

/-- The state is entered, with an image to send. -/
def loadFirmUpdateMei (image : List UInt8) (commErrQty : Nat) (ackVal : Bool)
    (number data : List UInt8) : System :=
  { driver :=
      { firmImage := image, position := 0, fileSize := image.length, offsetTransfer := 0
        commErrQty := commErrQty, blockNo := 0, ackVal := ackVal, number := number, data := data
        notified := none }
    device := ⟨[]⟩ }

/-! ## Nibbles and back -/

theorem byteOf_nibbles (b : UInt8) : byteOf ((b >>> 4) &&& 0x0F) (b &&& 0x0F) = b := by
  have bits : ∀ v : BitVec 8,
      (((v >>> 4) &&& 0x0F#8) <<< 4 &&& 0xF0#8) ||| (v &&& 0x0F#8 &&& 0x0F#8) = v := by decide
  exact UInt8.eq_of_toBitVec_eq (bits b.toBitVec)

theorem high_or_low (n : UInt16) :
    ((n >>> 8).toUInt8.toUInt16 <<< 8) ||| n.toUInt8.toUInt16 = n := by
  have bits : ∀ v : BitVec 16,
      (((v >>> 8).setWidth 8).setWidth 16 <<< 8) ||| (v.setWidth 8).setWidth 16 = v := by
    intro v
    ext i hi
    simp only [BitVec.getElem_or, BitVec.getElem_shiftLeft, BitVec.getElem_setWidth,
      BitVec.getLsbD_setWidth, BitVec.getLsbD_ushiftRight]
    by_cases low : i < 8
    · simp [low, BitVec.getLsbD_eq_getElem hi]
    · have back : 8 + (i - 8) = i := by omega
      simp only [low, back, BitVec.getLsbD_eq_getElem hi]
      grind
  exact UInt16.eq_of_toBitVec_eq (bits n.toBitVec)

theorem getBlockNo_blockNumber (blockNo : UInt16) : getBlockNo (blockNumber blockNo) = blockNo := by
  simp only [getBlockNo, blockNumber, nibbles, cons_append, nil_append,
    getD_cons_zero, getD_cons_succ, byteOf_nibbles]
  exact high_or_low blockNo

theorem unpack_nibbles (bytes rest : List UInt8) :
    unpack (bytes.flatMap nibbles ++ rest) = bytes ++ unpack rest := by
  induction bytes with
  | nil => rfl
  | cons b bytes ih =>
    simp only [flatMap_cons, nibbles, cons_append, nil_append, unpack, byteOf_nibbles, ih]

theorem ofNat_succ (n : Nat) : UInt16.ofNat (n + 1) = UInt16.ofNat n + 1 :=
  UInt16.ofNat_add n 1

theorem succ_ne_self (x : UInt16) : x + 1 ≠ x := by
  intro same
  have values := congrArg UInt16.toNat same
  have below := x.toNat_lt
  rw [UInt16.toNat_add] at values
  simp only [UInt16.toNat_one] at values
  omega

/-! ## The blocks of an image -/

/-- A block of the image; the last one may be shorter than 32 bytes. -/
def blockAt (image : List UInt8) (i : Nat) : List UInt8 := (image.drop (32 * i)).take 32

/-- Blocks of the image one by one, each under its number and with its data; behind a
shorter last block stand other bytes. -/
def Consecutive (image : List UInt8) (accepted : List (UInt16 × List UInt8)) : Prop :=
  ∀ i pair, accepted[i]? = some pair →
    pair.1 = UInt16.ofNat i ∧ blockAt image i <+: pair.2 ∧ 32 * i < image.length

variable {image : List UInt8} {s : System} {j : Nat} (accepts : Bool)

theorem Consecutive.snoc {accepted : List (UInt16 × List UInt8)}
    (before : Consecutive image accepted) {data : List UInt8}
    (block : blockAt image accepted.length <+: data) (inside : 32 * accepted.length < image.length)
    : Consecutive image (accepted ++ [(UInt16.ofNat accepted.length, data)]) := by
  intro i pair at_
  rcases Nat.lt_trichotomy i accepted.length with earlier | rfl | later
  · rw [List.getElem?_append_left earlier] at at_
    exact before i pair at_
  · rw [List.getElem?_concat_length] at at_
    cases at_
    exact ⟨rfl, block, inside⟩
  · rw [List.getElem?_eq_none (by simp; omega)] at at_
    cases at_

/-! ## The transfer -/

/-- So many blocks of the image have been read. -/
structure Reading (image : List UInt8) (d : JcmBillAcceptData) (blocks : Nat) : Prop where
  firmImage : d.firmImage = image
  fileSize : d.fileSize = image.length
  position : d.position = min (32 * blocks) image.length
  offsetTransfer : d.offsetTransfer = d.position
  running : d.notified = none

/-- Block `j` is in the frame, under its number, and the device waits for it or has it. -/
structure Loaded (image : List UInt8) (s : System) (j : Nat) : Prop where
  reading : Reading image s.driver (j + 1)
  blockNo : s.driver.blockNo = UInt16.ofNat j
  block : blockAt image j <+: unpack s.driver.data
  inside : 32 * j < image.length
  device : s.device.accepted.length = j ∨ s.device.accepted.length = j + 1

/-- Every block read has been acknowledged, and the device has it. -/
structure Ready (image : List UInt8) (s : System) : Prop where
  reading : Reading image s.driver s.device.accepted.length
  blockNo : s.driver.blockNo = UInt16.ofNat s.device.accepted.length
  commErrQty : s.driver.commErrQty = 0

/-- What holds before every poll. -/
structure Invariant (image : List UInt8) (s : System) : Prop where
  consecutive : Consecutive image s.device.accepted
  phase : s.driver.notified = none → Ready image s ∨
    s.driver.commErrQty ≠ 0 ∧ ∃ j, Loaded image s j
  success : s.driver.notified = some 100 → image.length ≤ 32 * s.device.accepted.length

/-- The last block the device has after a frame. -/
def lastBlock (s : System) (accepts : Bool) : UInt16 :=
  if accepts ∧ s.driver.blockNo = s.device.expected then s.device.expected
  else s.device.expected - 1

/-- A reply with the toggle of the frame names its block, or none; a reply with the other
toggle names the block before. -/
def ConsistentReply (s : System) : Answer → Prop
  | .received accepts (some true) =>
    lastBlock s accepts = s.driver.blockNo ∨ lastBlock s accepts = 0xFFFF
  | .received accepts (some false) => lastBlock s accepts + 1 = s.driver.blockNo
  | _ => True

instance (s : System) : (answer : Answer) → Decidable (ConsistentReply s answer)
  | .lost => isTrue trivial
  | .received _ none => isTrue trivial
  | .received _ (some true) => inferInstanceAs (Decidable (_ ∨ _))
  | .received _ (some false) => inferInstanceAs (Decidable (_ = _))

theorem Invariant.of_ready (consecutive : Consecutive image s.device.accepted)
    (ready : Ready image s) : Invariant image s where
  consecutive := consecutive
  phase := fun _ => .inl ready
  success := by
    rw [ready.reading.running]
    simp

theorem Invariant.of_pending (consecutive : Consecutive image s.device.accepted)
    (loaded : Loaded image s j) (failed : s.driver.commErrQty ≠ 0) : Invariant image s where
  consecutive := consecutive
  phase := fun _ => .inr ⟨failed, j, loaded⟩
  success := by
    rw [loaded.reading.running]
    simp

/-! ## One frame -/

/-- The frame that is sent next. -/
def JcmBillAcceptData.frame (d : JcmBillAcceptData) : Frame := ⟨!d.ackVal, d.number, d.data⟩

/-- The device that gets a block has it or waits for it, and names the last one it has. -/
theorem Loaded.afterFrame (loaded : Loaded image s j)
    (consecutive : Consecutive image s.device.accepted)
    (number : s.driver.number = blockNumber s.driver.blockNo) (accepts : Bool) :
    Consecutive image (s.device.afterFrame s.driver.frame accepts).accepted ∧
      ((s.device.afterFrame s.driver.frame accepts).accepted.length = j ∨
        (s.device.afterFrame s.driver.frame accepts).accepted.length = j + 1) ∧
      (s.device.afterFrame s.driver.frame accepts).expected - 1 = lastBlock s accepts := by
  have numbered : getBlockNo s.driver.frame.number = s.driver.blockNo := by
    rw [JcmBillAcceptData.frame, number, getBlockNo_blockNumber]
  unfold Device.afterFrame lastBlock
  rw [numbered]
  by_cases accepted : accepts ∧ s.driver.blockNo = s.device.expected
  · have here : s.device.accepted.length = j := by
      rcases loaded.device with same | next
      · exact same
      · have wraps := accepted.2
        rw [loaded.blockNo, Device.expected, next, ofNat_succ] at wraps
        exact absurd wraps.symm (succ_ne_self _)
    rw [if_pos accepted, if_pos accepted]
    refine ⟨?_, .inr (by simp [Device.accept, here]), ?_⟩
    · rw [Device.accept, numbered, loaded.blockNo, ← here]
      exact consecutive.snoc (here ▸ loaded.block) (here ▸ loaded.inside)
    · simp only [Device.expected, Device.accept, length_append, length_singleton, ofNat_succ]
      exact UInt16.add_sub_cancel _ _
  · rw [if_neg accepted, if_neg accepted]
    exact ⟨consecutive, loaded.device, rfl⟩

theorem sendFrame_lost (s : System) :
    sendFrame .lost s =
      ⟨{ s.driver with ackVal := !s.driver.ackVal, commErrQty := s.driver.commErrQty + 1 },
        s.device⟩ :=
  rfl

theorem sendFrame_unanswered (s : System) : sendFrame (.received accepts none) s =
      ⟨{ s.driver with ackVal := !s.driver.ackVal, commErrQty := s.driver.commErrQty + 1 },
        s.device.afterFrame s.driver.frame accepts⟩ :=
  rfl

theorem sendFrame_same (s : System) : sendFrame (.received accepts (some true)) s =
      if (s.device.afterFrame s.driver.frame accepts).expected - 1 ≠ 0xFFFF then
        ⟨{ s.driver with
            ackVal := !s.driver.ackVal, commErrQty := 0, blockNo := s.driver.blockNo + 1 },
          s.device.afterFrame s.driver.frame accepts⟩
      else
        ⟨{ s.driver with ackVal := !s.driver.ackVal, commErrQty := s.driver.commErrQty + 1 },
          s.device.afterFrame s.driver.frame accepts⟩ := by
  unfold JcmBillAcceptData.frame
  by_cases named : (s.device.afterFrame
      ⟨!s.driver.ackVal, s.driver.number, s.driver.data⟩ accepts).expected - 1 = 0xFFFF
  · simp [sendFrame, writeReadDownload, Device.receive, getBlockNo_blockNumber, named]
  · simp [sendFrame, writeReadDownload, Device.receive, getBlockNo_blockNumber, named]

theorem sendFrame_other (s : System) : sendFrame (.received accepts (some false)) s =
      ⟨{ s.driver with
          ackVal := !s.driver.ackVal
          blockNo := (s.device.afterFrame s.driver.frame accepts).expected - 1 + 1
          commErrQty := s.driver.commErrQty + 1 },
        s.device.afterFrame s.driver.frame accepts⟩ := by
  simp only [sendFrame, writeReadDownload, Device.receive, Option.map_some, getBlockNo_blockNumber]
  cases s.driver.ackVal <;> rfl

theorem Loaded.failed (loaded : Loaded image s j) {device : Device}
    (has : device.accepted.length = j ∨ device.accepted.length = j + 1)
    (consecutive : Consecutive image device.accepted) : Invariant image
      ⟨{ s.driver with ackVal := !s.driver.ackVal, commErrQty := s.driver.commErrQty + 1 },
        device⟩ :=
  .of_pending consecutive
    ⟨⟨loaded.reading.firmImage, loaded.reading.fileSize, loaded.reading.position,
      loaded.reading.offsetTransfer, loaded.reading.running⟩, loaded.blockNo, loaded.block,
      loaded.inside, has⟩
    (Nat.succ_ne_zero _)

theorem Loaded.sendFrame (loaded : Loaded image s j)
    (consecutive : Consecutive image s.device.accepted)
    (number : s.driver.number = blockNumber s.driver.blockNo) {answer : Answer}
    (consistent : ConsistentReply s answer) : Invariant image (sendFrame answer s) := by
  cases answer with
  | lost =>
    rw [sendFrame_lost]
    exact loaded.failed loaded.device consecutive
  | received accepts reply =>
    rcases loaded.afterFrame consecutive number accepts with ⟨kept, has, names⟩
    cases reply with
    | none =>
      rw [sendFrame_unanswered]
      exact loaded.failed has kept
    | some same =>
      cases same with
      | false =>
        have back : (s.device.afterFrame s.driver.frame accepts).expected - 1 + 1 =
            s.driver.blockNo := by
          rw [names]
          exact consistent
        rw [sendFrame_other, back]
        exact loaded.failed has kept
      | true =>
        rw [sendFrame_same]
        split
        · rename_i named
          -- the reply names the block of the frame, so the device has it
          have last : (s.device.afterFrame s.driver.frame accepts).expected - 1 =
              UInt16.ofNat j := by
            rw [names] at named ⊢
            exact (consistent.resolve_right named).trans loaded.blockNo
          have next : (s.device.afterFrame s.driver.frame accepts).accepted.length = j + 1 := by
            rcases has with waits | next
            · rw [Device.expected, waits] at last
              have wraps := congrArg (fun x => x + 1) last
              simp only [UInt16.sub_add_cancel] at wraps
              exact absurd wraps.symm (succ_ne_self _)
            · exact next
          refine .of_ready kept ⟨?_, ?_, rfl⟩
          · dsimp only
            rw [next]
            exact ⟨loaded.reading.firmImage, loaded.reading.fileSize, loaded.reading.position,
              loaded.reading.offsetTransfer, loaded.reading.running⟩
          · dsimp only
            rw [next, ofNat_succ, loaded.blockNo]
        · exact loaded.failed has kept

/-! ## Polls and runs -/

theorem Ready.loaded (ready : Ready image s) (more : s.driver.offsetTransfer < s.driver.fileSize) :
    Loaded image ⟨readBlock (prepareBlockNumber s.driver), s.device⟩ s.device.accepted.length := by
  have inside : 32 * s.device.accepted.length < image.length := by
    rw [ready.reading.offsetTransfer, ready.reading.position, ready.reading.fileSize] at more
    omega
  have here : s.driver.position = 32 * s.device.accepted.length := by
    rw [ready.reading.position]
    omega
  have chunk : (s.driver.firmImage.drop s.driver.position).take 32 =
      blockAt image s.device.accepted.length := by
    rw [ready.reading.firmImage, here, blockAt]
  have size : (blockAt image s.device.accepted.length).length =
      min 32 (image.length - 32 * s.device.accepted.length) := by
    rw [blockAt, length_take, length_drop]
  refine ⟨⟨ready.reading.firmImage, ready.reading.fileSize, ?_, ?_, ready.reading.running⟩,
    ready.blockNo, ?_, inside, .inl rfl⟩
  · simp only [readBlock, prepareBlockNumber]
    rw [chunk, size, here]
    omega
  · simp only [readBlock, prepareBlockNumber, ready.reading.offsetTransfer]
  · simp only [readBlock, prepareBlockNumber, chunk, unpack_nibbles]
    exact prefix_append _ _

theorem Invariant.over (invariant : Invariant image s) (result : UInt8)
    (success : result = 100 → image.length ≤ 32 * s.device.accepted.length) :
    Invariant image { s with driver := { s.driver with notified := some result } } where
  consecutive := invariant.consecutive
  phase := fun running => by cases running
  success := fun notified => success (Option.some.inj notified)

theorem Invariant.poll (invariant : Invariant image s) {answer : Answer}
    (consistent : ConsistentReply s answer) : Invariant image (poll answer s) := by
  unfold MeiFirmware.poll
  split
  · exact invariant
  · rename_i running
    rcases invariant.phase (by simpa using running) with ready | ⟨failed, j, loaded⟩
    · have idle : transferFailed s.driver = false := by simp [transferFailed, ready.commErrQty]
      rw [idle, doTransferNextFrameMei, ready.commErrQty]
      by_cases more : s.driver.offsetTransfer < s.driver.fileSize
      · simp only [more, if_true]
        exact (ready.loaded more).sendFrame invariant.consecutive rfl consistent
      · simp only [more, if_false]
        refine invariant.over 100 fun _ => ?_
        rw [ready.reading.offsetTransfer, ready.reading.position, ready.reading.fileSize] at more
        omega
    · by_cases again : s.driver.commErrQty < 10
      · have retry : transferFailed s.driver = true := by simp [transferFailed, failed, again]
        have again : Loaded image ⟨{ prepareBlockNumber s.driver with
            ackVal := !(prepareBlockNumber s.driver).ackVal }, s.device⟩ j :=
          ⟨⟨loaded.reading.firmImage, loaded.reading.fileSize, loaded.reading.position,
            loaded.reading.offsetTransfer, loaded.reading.running⟩, loaded.blockNo, loaded.block,
            loaded.inside, loaded.device⟩
        rw [retry]
        exact again.sendFrame invariant.consecutive rfl consistent
      · have stop : transferFailed s.driver = false := by simp [transferFailed, again]
        rw [stop, doTransferNextFrameMei, if_neg again]
        exact invariant.over 255 fun same => absurd same (by decide)

theorem invariant_start (image : List UInt8) (ackVal : Bool) (number data : List UInt8) :
    Invariant image (loadFirmUpdateMei image 0 ackVal number data) :=
  .of_ready (fun _ _ at_ => by cases at_)
    ⟨⟨rfl, rfl, by simp [loadFirmUpdateMei], rfl, rfl⟩, rfl, rfl⟩

/-- **The transfer**: entered without an error counted and answered with consistent
replies, it puts the blocks of the image into the device one by one, each under its number
and with its data, and all of them before it notifies success. -/
theorem accepted_of_consistent (image : List UInt8) (ackVal : Bool) (number data : List UInt8)
    (answers : List Answer)
    (consistent : Always poll ConsistentReply answers
      (loadFirmUpdateMei image 0 ackVal number data)) :
    let s := after poll answers (loadFirmUpdateMei image 0 ackVal number data)
    Consecutive image s.device.accepted ∧
      (s.driver.notified = some 100 → image.length ≤ 32 * s.device.accepted.length) := by
  have kept := Always.after_of_invariant (Invariant image) (fun invariant ok => invariant.poll ok)
    (invariant_start image ackVal number data) consistent
  exact ⟨kept.consecutive, kept.success⟩

/-- A frame lost, a reply lost, the block acknowledged the second time, and a block refused
before it is accepted. -/
theorem accepted_of_consistent_retried :
    let image := List.replicate 32 1 ++ List.replicate 8 2
    let s := after poll
      [.lost, .received true none, .received true (some true), .received false (some false),
        .received true (some true), .lost]
      (loadFirmUpdateMei image 0 false [] [])
    Consecutive image s.device.accepted ∧
      (s.driver.notified = some 100 → image.length ≤ 32 * s.device.accepted.length) :=
  accepted_of_consistent _ _ _ _ _ (by decide)

/-- The reply to block `0` is lost, and the one to its repetition names block `0`: the
device gets the data of block `0` as block `1`. -/
theorem resync_not_consecutive :
    ¬ ∀ (image : List UInt8) (commErrQty : Nat) (ackVal : Bool) (number data : List UInt8)
      (answers : List Answer),
      Consecutive image
        (after poll answers
          (loadFirmUpdateMei image commErrQty ackVal number data)).device.accepted := by
  intro consecutive
  have second := consecutive (List.replicate 32 1 ++ List.replicate 32 2) 0 false [] []
    [.received true none, .received true (some false), .received true (some true)]
    1 (1, List.replicate 32 1) (by decide)
  exact absurd second.2.1 (by decide)

end CimArm.MeiFirmware
