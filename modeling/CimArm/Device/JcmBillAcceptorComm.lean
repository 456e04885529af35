import CimArm.Device.FirmwareTransfer
import CimArm.Device.JcmBillAcceptorMgr
import CimArm.Device.SafeBoxComm

/-!
# Frames to and from a validator

A frame has a start, its length in a byte, the command, the data and a checksum, in three
variants.  `jcmRead` takes the length from what the safe board hands over, checks the checksum
at the place that follows from it, and returns the place of the command and the length of the
data.  It checks the length against nothing.

A CCNET frame that is too long for the byte has the length 0 and tells the true one in its
data, which is what a frame of a firmware does.  The writer does so only from 256 bytes of data
on, and the reader never.

* `framing`: which frames are read as they were written, which tell their length, and which
  received bytes are read within the buffer.
-/

namespace CimArm.JcmBillAcceptorComm

open Jcm SafeBoxComm List
open FirmwareTransfer (calcCrc)

/-! ## Checksums -/

/-- The bytes from `index` to `n`. -/
def calcChksumXor (data : Nat → UInt8) (n index : Nat) : UInt8 :=
  (List.range (n - index)).foldl (fun sum i => sum ^^^ data (index + 1 + i)) (data index)

def SHORT_TO_L_ENDIAN (n : UInt16) : List UInt8 := Bytes.littleEndian 2 n.toNat

/-! ## Writing -/

/-- What is sent but for the checksum. -/
def frameBody : Protocol → UInt8 → List UInt8 → List UInt8
  | .ID003, cmd, data => 0xFC :: UInt8.ofNat (5 + data.length) :: cmd :: data
  | .CCNET, cmd, data =>
    0x02 :: 0x03 :: (if data.length > 255 then 0 else UInt8.ofNat (6 + data.length)) :: cmd :: data
  | .EBDS, cmd, data =>
    0x02 :: UInt8.ofNat (5 + data.length) :: cmd :: (data ++ [0x03])

/-- The counter of `calcCrc` has 16 bits. -/
def jcmWrite (protocol : Protocol) (cmd : UInt8) (data : List UInt8) : List UInt8 :=
  let sendBuf := frameBody protocol cmd data
  match protocol with
  | .ID003 => sendBuf ++ SHORT_TO_L_ENDIAN (calcCrc 0 (sendBuf.take ((data.length + 3) % 65536)))
  | .CCNET => sendBuf ++ SHORT_TO_L_ENDIAN (calcCrc 0 (sendBuf.take ((data.length + 4) % 65536)))
  | .EBDS => sendBuf ++ [calcChksumXor (fun i => sendBuf.getD i 0) (data.length + 2) 1]

/-! ## Reading -/

/-- What a call of `jcmRead` does: the memory, which bytes of it are read, and the device, the
place of the command and the length of the data, if it returns them. -/
structure Reading : Type where
  readBuf : Nat → UInt8
  reads : List (Nat × Nat)
  result : Option (UInt8 × Nat × Int)

def bytesAt (readBuf : Nat → UInt8) (place n : Nat) : List UInt8 :=
  (List.range n).map fun i => readBuf (place + i)

def shortAt (readBuf : Nat → UInt8) (place : Nat) : UInt16 :=
  UInt16.ofNat (Bytes.ofLittleEndian [readBuf place, readBuf (place + 1)])

/-- ID003 and CCNET, from the length on; `baseLen` counts the bytes that are not data. -/
def readCrc (readBuf : Nat → UInt8) (readFrame len baseLen : Nat) : Reading :=
  let rawData := readFrame + 4
  let n := (len + 65534) % 65536
  let crcval := calcCrc 0 (bytesAt readBuf rawData n)
  let reads := [(rawData, baseLen - 3), (rawData, n), (rawData + len - 2, 2)]
  if crcval = shortAt readBuf (rawData + len - 2) then
    ⟨readBuf, reads, some (readBuf readFrame, rawData + (baseLen - 3), (len : Int) - baseLen)⟩
  else ⟨readBuf, reads ++ [(rawData, len)], none⟩

def convertTo7Bit (readBuf : Nat → UInt8) (data len : Nat) : Nat → UInt8 :=
  fun p => if data ≤ p ∧ p ≤ data + len then readBuf p &&& 0x7F else readBuf p

/-- EBDS, from the length on. -/
def readXor (readBuf : Nat → UInt8) (readFrame len : Nat) : Reading :=
  let rawData := readFrame + 4
  let readBuf := convertTo7Bit readBuf rawData len
  let reads := [(rawData, 2), (rawData, len + 1), (rawData + 1, max 1 (len - 3)),
    (rawData + len - 1, 1)]
  if calcChksumXor (fun i => readBuf (rawData + i)) (len - 3) 1 = readBuf (rawData + len - 1) then
    ⟨readBuf, reads, some (readBuf readFrame, rawData + 2, (len : Int) - 5)⟩
  else ⟨readBuf, reads ++ [(rawData, len)], none⟩

/-- `jcmRead` from where the safe board's frame begins, behind its start. -/
def readFrom (protocol : Protocol) (readBuf : Nat → UInt8) (readFrame : Nat) : Reading :=
  let rawData := readFrame + 4
  let other : Reading := ⟨readBuf, [(rawData, 1)], none⟩
  match protocol with
  | .ID003 =>
    if readBuf rawData = 0xFC then readCrc readBuf readFrame (readBuf (rawData + 1)).toNat 5
    else other
  | .CCNET =>
    if readBuf rawData = 0x02 then readCrc readBuf readFrame (readBuf (rawData + 2)).toNat 6
    else other
  | .EBDS =>
    if readBuf rawData &&& 0x7F = 0x02 then
      readXor readBuf readFrame (readBuf (rawData + 1) &&& 0x7F).toNat
    else other

/-- The frame is the one that `safeBoxCommRead` returned. -/
def jcmRead (protocol : Protocol) (frame : SafeBoxComm.Reading) : Reading :=
  match frame.answer with
  | .pointer readFrame => readFrom protocol frame.readBuf readFrame
  | _ => ⟨frame.readBuf, [], none⟩

/-! ## What should be -/

/-- The device, the command and the data are returned. -/
def Returned (dev cmd : UInt8) (data : List UInt8) (r : Reading) : Prop :=
  ∃ place, r.result = some (dev, place, (data.length : Int)) ∧ r.readBuf place = cmd ∧
    Holds r.readBuf (place + 1) data

/-- The length byte is the length of the frame; in CCNET it may be zero when the data tell the
length, in the two bytes behind the first. -/
def Described (protocol : Protocol) (frame : List UInt8) : Prop :=
  match protocol with
  | .ID003 => (frame.getD 1 0).toNat = frame.length
  | .CCNET => (frame.getD 2 0).toNat = frame.length ∨ frame.getD 2 0 = 0 ∧
      (frame.getD 5 0).toNat * 256 + (frame.getD 6 0).toNat = frame.length
  | .EBDS => (frame.getD 1 0).toNat = frame.length

/-- Nothing is read outside the buffer. -/
def Within (r : Reading) : Prop := ∀ read ∈ r.reads, read.1 + read.2 ≤ readBufSize

/-! ## When it is so -/

/-- The frame fits in the length byte, in EBDS in seven bits as all its bytes do. -/
def Readable : Protocol → UInt8 → List UInt8 → Prop
  | .ID003, _, data => data.length ≤ 250
  | .CCNET, _, data => data.length ≤ 249
  | .EBDS, cmd, data => data.length ≤ 122 ∧ cmd < 0x80 ∧ ∀ b ∈ data, b < 0x80

/-- The length fits in the byte, or this is zero and the data tell the length. -/
def Counted : Protocol → List UInt8 → Prop
  | .ID003, data => data.length ≤ 250
  | .CCNET, data => data.length ≤ 249 ∨ (data.length = 250 ∨ 255 < data.length) ∧
      (data.getD 1 0).toNat * 256 + (data.getD 2 0).toNat = data.length + 6
  | .EBDS, data => data.length ≤ 250

/-- A received frame of ID003 or CCNET has a length of two at least. -/
def LongEnough (protocol : Protocol) (readBuf : Nat → UInt8) (readFrame : Nat) : Prop :=
  match protocol with
  | .ID003 => readBuf (readFrame + 4) = 0xFC → 2 ≤ readBuf (readFrame + 5)
  | .CCNET => readBuf (readFrame + 4) = 0x02 → 2 ≤ readBuf (readFrame + 6)
  | .EBDS => True

/-! ## What the memory holds -/

section

variable {readBuf : Nat → UInt8} {place : Nat} {bytes : List UInt8}

theorem holds_append {first second : List UInt8} :
    Holds readBuf place (first ++ second) ↔
      Holds readBuf place first ∧ Holds readBuf (place + first.length) second := by
  constructor
  · intro holds
    constructor
    · intro i less
      rw [holds i (by rw [length_append]; omega), getD_append _ _ _ _ less]
    · intro i less
      rw [Nat.add_assoc, holds (first.length + i) (by rw [length_append]; omega),
        getD_append_right _ _ _ _ (by omega), Nat.add_sub_cancel_left]
  · intro both i less
    rw [length_append] at less
    rcases Nat.lt_or_ge i first.length with before | behind
    · rw [both.1 i before, getD_append _ _ _ _ before]
    · have here := both.2 (i - first.length) (by omega)
      rw [show place + first.length + (i - first.length) = place + i by omega] at here
      rw [here, getD_append_right _ _ _ _ behind]

theorem holds_cons {b : UInt8} :
    Holds readBuf place (b :: bytes) ↔ readBuf place = b ∧ Holds readBuf (place + 1) bytes := by
  have split := @holds_append readBuf place [b] bytes
  have one : Holds readBuf place [b] ↔ readBuf place = b := by
    constructor
    · intro holds
      exact holds 0 (by simp)
    · intro here i less
      obtain rfl : i = 0 := by simpa using less
      exact here
  rw [one] at split
  exact split

theorem bytesAt_of_holds (holds : Holds readBuf place bytes) :
    bytesAt readBuf place bytes.length = bytes := by
  apply ext_getElem
  · simp [bytesAt]
  · intro i less inside
    simp only [bytesAt, getElem_map, getElem_range]
    rw [holds i inside, getD_eq_getElem _ _ inside]

theorem shortAt_of_holds {n : UInt16} (holds : Holds readBuf place (SHORT_TO_L_ENDIAN n)) :
    shortAt readBuf place = n := by
  have bytes := bytesAt_of_holds holds
  have two : (SHORT_TO_L_ENDIAN n).length = 2 := Bytes.length_littleEndian 2 n.toNat
  rw [two] at bytes
  have same : [readBuf place, readBuf (place + 1)] = Bytes.littleEndian 2 n.toNat := bytes
  rw [shortAt, same, Bytes.ofLittleEndian_littleEndian n.toNat_lt]
  exact UInt16.ofNat_toNat

end

/-! ## Frames with a CRC -/

section

variable {readBuf : Nat → UInt8} {readFrame : Nat}

theorem readCrc_framed {body : List UInt8} (small : body.length < 65536)
    (holds : Holds readBuf (readFrame + 4) (body ++ SHORT_TO_L_ENDIAN (calcCrc 0 body)))
    (baseLen : Nat) :
    let r := readCrc readBuf readFrame (body.length + 2) baseLen
    r.readBuf = readBuf ∧ r.result = some (readBuf readFrame, readFrame + 4 + (baseLen - 3),
      ((body.length + 2 : Nat) : Int) - baseLen) := by
  obtain ⟨first, crc⟩ := holds_append.1 holds
  have n : (body.length + 2 + 65534) % 65536 = body.length := by omega
  have place : readFrame + 4 + (body.length + 2) - 2 = readFrame + 4 + body.length := by omega
  have same : calcCrc 0 (bytesAt readBuf (readFrame + 4) body.length) =
      shortAt readBuf (readFrame + 4 + body.length) := by
    rw [bytesAt_of_holds first, shortAt_of_holds crc]
  rw [readCrc, n, place, if_pos same]
  exact ⟨rfl, rfl⟩

theorem readCrc_length {len baseLen : Nat} {dev : UInt8} {place : Nat} {dataLen : Int}
    (result : (readCrc readBuf readFrame len baseLen).result = some (dev, place, dataLen)) :
    dataLen = (len : Int) - baseLen := by
  rw [readCrc] at result
  split at result
  · cases result
    rfl
  · cases result

/-- What a body has besides the data. -/
def bodyLen : Protocol → Nat
  | .ID003 => 3
  | .CCNET => 4
  | .EBDS => 4

theorem length_frameBody (protocol : Protocol) (cmd : UInt8) (data : List UInt8) :
    (frameBody protocol cmd data).length = data.length + bodyLen protocol := by
  cases protocol with
  | ID003 => simp [frameBody, bodyLen]
  | CCNET => simp [frameBody, bodyLen]
  | EBDS => simp [frameBody, bodyLen]

theorem toNat_ofNat_small {n : Nat} (small : n < 256) : (UInt8.ofNat n).toNat = n := by
  rw [UInt8.toNat_ofNat']
  omega

theorem returned_id003 {cmd : UInt8} {data : List UInt8}
    (holds : Holds readBuf (readFrame + 4) (jcmWrite .ID003 cmd data)) :
    Returned (readBuf readFrame) cmd data (readFrom .ID003 readBuf readFrame) ↔
      Readable .ID003 cmd data := by
  have start : readBuf (readFrame + 4) = 0xFC := (holds_cons.1 holds).1
  have len : readBuf (readFrame + 4 + 1) = UInt8.ofNat (5 + data.length) :=
    (holds_cons.1 (holds_cons.1 holds).2).1
  rw [readFrom, if_pos start, len]
  constructor
  · intro ⟨place, result, _⟩
    have dataLen := readCrc_length result
    have byte := (UInt8.ofNat (5 + data.length)).toNat_lt
    rw [Readable]
    omega
  · intro fits
    rw [Readable] at fits
    have size : (frameBody .ID003 cmd data).length = data.length + 3 := length_frameBody ..
    have whole : (frameBody .ID003 cmd data).take ((data.length + 3) % 65536) =
        frameBody .ID003 cmd data := take_of_length_le (by omega)
    rw [jcmWrite, whole] at holds
    obtain ⟨same, result⟩ := readCrc_framed (by omega) holds 5
    rw [size] at same result
    rw [toNat_ofNat_small (by omega), show 5 + data.length = data.length + 3 + 2 by omega]
    refine ⟨readFrame + 4 + 2, ?_, ?_⟩
    · rw [result]
      simp only [Option.some.injEq, Prod.mk.injEq, true_and]
      omega
    · rw [same]
      have body := (holds_append.1 holds).1
      exact holds_cons.1 (holds_cons.1 (holds_cons.1 body).2).2

theorem returned_ccnet {cmd : UInt8} {data : List UInt8}
    (holds : Holds readBuf (readFrame + 4) (jcmWrite .CCNET cmd data)) :
    Returned (readBuf readFrame) cmd data (readFrom .CCNET readBuf readFrame) ↔
      Readable .CCNET cmd data := by
  have start : readBuf (readFrame + 4) = 0x02 := (holds_cons.1 holds).1
  have len : readBuf (readFrame + 4 + 2) =
      if data.length > 255 then 0 else UInt8.ofNat (6 + data.length) :=
    (holds_cons.1 (holds_cons.1 (holds_cons.1 holds).2).2).1
  rw [readFrom, if_pos start]
  constructor
  · intro ⟨place, result, _⟩
    have dataLen := readCrc_length result
    have byte := (readBuf (readFrame + 4 + 2)).toNat_lt
    rw [Readable]
    omega
  · intro fits
    rw [Readable] at fits
    have size : (frameBody .CCNET cmd data).length = data.length + 4 := length_frameBody ..
    have whole : (frameBody .CCNET cmd data).take ((data.length + 4) % 65536) =
        frameBody .CCNET cmd data := take_of_length_le (by omega)
    rw [jcmWrite, whole] at holds
    obtain ⟨same, result⟩ := readCrc_framed (by omega) holds 6
    rw [size] at same result
    rw [len, if_neg (by omega), toNat_ofNat_small (by omega),
      show 6 + data.length = data.length + 4 + 2 by omega]
    refine ⟨readFrame + 4 + 3, ?_, ?_⟩
    · rw [result]
      simp only [Option.some.injEq, Prod.mk.injEq, true_and]
      omega
    · rw [same]
      have body := (holds_append.1 holds).1
      exact holds_cons.1 (holds_cons.1 (holds_cons.1 (holds_cons.1 body).2).2).2

end

/-! ## Frames of seven bits -/

section

theorem toNat_and_7F (b : UInt8) : (b &&& 0x7F).toNat = b.toNat % 128 := by
  rw [UInt8.toNat_and]
  exact Nat.and_two_pow_sub_one_eq_mod b.toNat 7

theorem lt_80_iff {b : UInt8} : b < 0x80 ↔ b &&& 0x7F = b := by
  rw [UInt8.lt_iff_toNat_lt, ← UInt8.toNat_inj, toNat_and_7F]
  have bound : (0x80 : UInt8).toNat = 128 := rfl
  omega

theorem xor_lt_80 {a b : UInt8} (first : a < 0x80) (second : b < 0x80) : a ^^^ b < 0x80 := by
  rw [UInt8.lt_iff_toNat_lt] at *
  rw [UInt8.toNat_xor]
  exact Nat.xor_lt_two_pow (n := 7) first second

theorem calcChksumXor_congr {f g : Nat → UInt8} {n index : Nat}
    (same : ∀ i, index ≤ i → i ≤ max n index → f i = g i) :
    calcChksumXor f n index = calcChksumXor g n index := by
  rw [calcChksumXor, calcChksumXor, same index (by omega) (by omega)]
  refine foldl_ext _ _ _ fun sum i inside => ?_
  have less := mem_range.1 inside
  rw [same (index + 1 + i) (by omega) (by omega)]

theorem calcChksumXor_lt_80 {f : Nat → UInt8} {n index : Nat}
    (small : ∀ i, index ≤ i → i ≤ max n index → f i < 0x80) : calcChksumXor f n index < 0x80 := by
  rw [calcChksumXor]
  have start := small index (by omega) (by omega)
  have rest : ∀ i ∈ List.range (n - index), f (index + 1 + i) < 0x80 := by
    intro i inside
    have less := mem_range.1 inside
    exact small _ (by omega) (by omega)
  generalize f index = sum at start
  generalize List.range (n - index) = indexes at rest
  induction indexes generalizing sum with
  | nil => exact start
  | cons i is ih =>
    exact ih _ (xor_lt_80 start (rest i mem_cons_self))
      fun j inside => rest j (mem_cons_of_mem _ inside)

variable {readBuf : Nat → UInt8} {readFrame : Nat} {cmd : UInt8} {data : List UInt8}

theorem convertTo7Bit_inside {rawData len i : Nat} (inside : i ≤ len) :
    convertTo7Bit readBuf rawData len (rawData + i) = readBuf (rawData + i) &&& 0x7F :=
  if_pos (by omega)

/-- What a frame that is read has: no more data than its length allows, and seven bits. -/
theorem readXor_result {len place : Nat} {dev : UInt8} {dataLen : Int}
    (result : (readXor readBuf readFrame len).result = some (dev, place, dataLen)) :
    place = readFrame + 4 + 2 ∧ dataLen = (len : Int) - 5 ∧
      (readXor readBuf readFrame len).readBuf = convertTo7Bit readBuf (readFrame + 4) len := by
  rw [readXor] at result ⊢
  split at result
  · rename_i check
    cases result
    rw [if_pos check]
    exact ⟨rfl, rfl, rfl⟩
  · cases result

theorem readXor_framed (size : data.length ≤ 122) (cmd_small : cmd < 0x80)
    (data_small : ∀ b ∈ data, b < 0x80)
    (holds : Holds readBuf (readFrame + 4) (jcmWrite .EBDS cmd data)) :
    let r := readXor readBuf readFrame (data.length + 5)
    Holds r.readBuf (readFrame + 4) (jcmWrite .EBDS cmd data) ∧
      r.result = some (readBuf readFrame, readFrame + 4 + 2, (data.length : Int)) := by
  have bodySize : (frameBody .EBDS cmd data).length = data.length + 4 := length_frameBody ..
  have lenByte : UInt8.ofNat (5 + data.length) < 0x80 := by
    rw [UInt8.lt_iff_toNat_lt, toNat_ofNat_small (by omega)]
    exact Nat.lt_of_le_of_lt (show 5 + data.length ≤ 127 by omega) (by decide)
  have bodySmall : ∀ b ∈ frameBody .EBDS cmd data, b < 0x80 := by
    simp only [frameBody, mem_cons, mem_append, not_mem_nil, or_false]
    rintro b (rfl | rfl | rfl | inData | rfl)
    · decide
    · exact lenByte
    · exact cmd_small
    · exact data_small b inData
    · decide
  have bodyAt (i : Nat) (inside : i < data.length + 4) :
      (frameBody .EBDS cmd data).getD i 0 < 0x80 := by
    rw [getD_eq_getElem _ _ (by omega)]
    exact bodySmall _ (getElem_mem _)
  generalize checksum_eq : calcChksumXor (fun i => (frameBody .EBDS cmd data).getD i 0)
    (data.length + 2) 1 = checksum
  have checksumSmall : checksum < 0x80 := by
    rw [← checksum_eq]
    exact calcChksumXor_lt_80 fun i low high => bodyAt i (by omega)
  rw [jcmWrite] at holds ⊢
  dsimp only at holds ⊢
  rw [checksum_eq] at holds ⊢
  have kept : Holds (convertTo7Bit readBuf (readFrame + 4) (data.length + 5)) (readFrame + 4)
      (frameBody .EBDS cmd data ++ [checksum]) := by
    intro i inside
    rw [length_append, length_singleton, bodySize] at inside
    have here := holds i (by rw [length_append, length_singleton, bodySize]; omega)
    rw [convertTo7Bit_inside (by omega), here]
    refine lt_80_iff.1 ?_
    rcases Nat.lt_or_ge i (data.length + 4) with before | last
    · rw [getD_append _ _ _ _ (by omega)]
      exact bodyAt i before
    · obtain rfl : i = data.length + 4 := by omega
      rw [getD_append_right _ _ _ _ (by omega), bodySize, Nat.sub_self]
      exact checksumSmall
  obtain ⟨body, last⟩ := holds_append.1 kept
  have check : calcChksumXor
      (fun i => convertTo7Bit readBuf (readFrame + 4) (data.length + 5) (readFrame + 4 + i))
      (data.length + 5 - 3) 1 =
      convertTo7Bit readBuf (readFrame + 4) (data.length + 5)
        (readFrame + 4 + (data.length + 5) - 1) := by
    have there := (holds_cons.1 last).1
    rw [bodySize] at there
    rw [show readFrame + 4 + (data.length + 5) - 1 = readFrame + 4 + (data.length + 4) by omega,
      there, ← checksum_eq, show data.length + 5 - 3 = data.length + 2 by omega]
    exact calcChksumXor_congr fun i low high => body i (by omega)
  rw [readXor, if_pos check]
  refine ⟨kept, ?_⟩
  have dev : convertTo7Bit readBuf (readFrame + 4) (data.length + 5) readFrame =
      readBuf readFrame := if_neg (by omega)
  simp [dev]

theorem returned_ebds (holds : Holds readBuf (readFrame + 4) (jcmWrite .EBDS cmd data)) :
    Returned (readBuf readFrame) cmd data (readFrom .EBDS readBuf readFrame) ↔
      Readable .EBDS cmd data := by
  have start : readBuf (readFrame + 4) &&& 0x7F = 0x02 := by
    rw [show readBuf (readFrame + 4) = 0x02 from (holds_cons.1 holds).1]
    decide
  have len : readBuf (readFrame + 4 + 1) = UInt8.ofNat (5 + data.length) :=
    (holds_cons.1 (holds_cons.1 holds).2).1
  rw [readFrom, if_pos start, toNat_and_7F]
  constructor
  · intro ⟨place, result, command, held⟩
    obtain ⟨rfl, dataLen, buffer⟩ := readXor_result result
    rw [buffer] at command held
    have size : (readBuf (readFrame + 4 + 1)).toNat % 128 = data.length + 5 := by omega
    rw [size] at command held
    refine ⟨by omega, ?_, ?_⟩
    · rw [← command, convertTo7Bit_inside (by omega), lt_80_iff, UInt8.and_assoc, UInt8.and_self]
    · intro b inData
      obtain ⟨i, inside, rfl⟩ := getElem_of_mem inData
      have here := held i inside
      rw [getD_eq_getElem _ _ inside, Nat.add_assoc (readFrame + 4) 2 1,
        Nat.add_assoc (readFrame + 4), convertTo7Bit_inside (by omega)] at here
      rw [← here, lt_80_iff, UInt8.and_assoc, UInt8.and_self]
  · intro ⟨size, cmd_small, data_small⟩
    rw [len, toNat_ofNat_small (by omega), show (5 + data.length) % 128 = data.length + 5 by omega]
    obtain ⟨kept, result⟩ := readXor_framed size cmd_small data_small holds
    refine ⟨readFrame + 4 + 2, result, ?_⟩
    have body := (holds_append.1 kept).1
    have behind := holds_cons.1 (holds_cons.1 (holds_cons.1 body).2).2
    exact ⟨behind.1, (holds_append.1 behind.2).1⟩

end

/-! ## The length byte -/

theorem toNat_ofNat_eq_iff {n m : Nat} (same : n = m) : (UInt8.ofNat n).toNat = m ↔ m < 256 := by
  rw [UInt8.toNat_ofNat']
  omega

def baseLen : Protocol → Nat
  | .ID003 => 5
  | .CCNET => 6
  | .EBDS => 5

theorem length_jcmWrite (protocol : Protocol) (cmd : UInt8) (data : List UInt8) :
    (jcmWrite protocol cmd data).length = data.length + baseLen protocol := by
  have crc (n : UInt16) : (SHORT_TO_L_ENDIAN n).length = 2 := Bytes.length_littleEndian 2 n.toNat
  cases protocol with
  | ID003 => simp [jcmWrite, crc, length_frameBody, bodyLen, baseLen]
  | CCNET => simp [jcmWrite, crc, length_frameBody, bodyLen, baseLen]
  | EBDS => simp [jcmWrite, length_frameBody, bodyLen, baseLen]

theorem getD_ccnet {cmd : UInt8} {data : List UInt8} {i : Nat} (inside : i < data.length) :
    (jcmWrite .CCNET cmd data).getD (i + 4) 0 = data.getD i 0 := by
  have body : i + 4 < (frameBody .CCNET cmd data).length := by
    rw [length_frameBody, bodyLen]
    omega
  exact getD_append _ _ _ _ body

theorem described_iff (protocol : Protocol) (cmd : UInt8) (data : List UInt8) :
    Described protocol (jcmWrite protocol cmd data) ↔ Counted protocol data := by
  have size := length_jcmWrite protocol cmd data
  cases protocol with
  | ID003 =>
    rw [Described, Counted, size, baseLen]
    refine (toNat_ofNat_eq_iff (Nat.add_comm 5 _)).trans ?_
    omega
  | EBDS =>
    rw [Described, Counted, size, baseLen]
    refine (toNat_ofNat_eq_iff (Nat.add_comm 5 _)).trans ?_
    omega
  | CCNET =>
    have byte : (jcmWrite .CCNET cmd data).getD 2 0 =
        if data.length > 255 then 0 else UInt8.ofNat (6 + data.length) := rfl
    rw [Described, Counted, size, byte, baseLen]
    by_cases long : 250 ≤ data.length
    · -- The length does not fit; the byte is zero for 250 bytes of data by accident.
      rw [show (5 : Nat) = 1 + 4 from rfl, show (6 : Nat) = 2 + 4 from rfl,
        getD_ccnet (by omega), getD_ccnet (by omega)]
      have low : ¬ data.length ≤ 249 := by omega
      rw [or_iff_right low]
      by_cases extended : data.length > 255
      · rw [if_pos extended]
        simp [extended]
      · rw [if_neg extended, ← UInt8.toNat_inj, UInt8.toNat_ofNat', UInt8.toNat_zero]
        omega
    · rw [if_neg (by omega)]
      exact iff_of_true (.inl ((toNat_ofNat_eq_iff (Nat.add_comm 6 _)).2 (by omega)))
        (.inl (by omega))

/-! ## What is read -/

theorem eq_of_pointer {A B : Prop} [Decidable A] [Decidable B] {bufPtr readFrame : Nat}
    (answer : (if A then Answer.endless else if B then .pointer bufPtr else .null) =
      .pointer readFrame) : readFrame = bufPtr := by
  split at answer
  · cases answer
  · split at answer
    · cases answer
      rfl
    · cases answer

theorem pointer_le {readBuf : Nat → UInt8} {line : Line} {readFrame : Nat}
    (answer : (safeBoxCommRead readBuf line).answer = .pointer readFrame) : readFrame ≤ 6 := by
  rw [safeBoxCommRead] at answer
  dsimp only at answer
  generalize findStart (store readBuf 0 (com_read line 0 6)) 6 0 = bufPtr at answer
  split at answer
  · split at answer
    · rename_i early
      have behind : readFrame = bufPtr + 1 := eq_of_pointer answer
      omega
    · cases answer
  · cases answer

variable {readBuf : Nat → UInt8} {readFrame : Nat}

theorem within_readCrc (near : readFrame ≤ 6) {len baseLen : Nat} (byte : len < 256)
    (base : baseLen ≤ 6) : Within (readCrc readBuf readFrame len baseLen) ↔ 2 ≤ len := by
  have reads (read : Nat × Nat) (checksum : read = (readFrame + 4, (len + 65534) % 65536)) :
      read ∈ (readCrc readBuf readFrame len baseLen).reads := by
    rw [readCrc]
    split
    · simp [checksum]
    · simp [checksum]
  constructor
  · intro within
    have bound := within _ (reads _ rfl)
    rw [readBufSize] at bound
    dsimp only at bound
    omega
  · intro long
    have all (read : Nat × Nat)
        (is : read ∈ [(readFrame + 4, baseLen - 3), (readFrame + 4, (len + 65534) % 65536),
          (readFrame + 4 + len - 2, 2), (readFrame + 4, len)]) :
        read.1 + read.2 ≤ readBufSize := by
      rw [readBufSize]
      simp only [mem_cons, not_mem_nil, or_false] at is
      rcases is with rfl | rfl | rfl | rfl
      · dsimp only
        omega
      · dsimp only
        omega
      · dsimp only
        omega
      · dsimp only
        omega
    intro read inside
    refine all read ?_
    rw [readCrc] at inside
    split at inside
    · exact mem_append_left [(readFrame + 4, len)] inside
    · exact inside

theorem within_readXor (near : readFrame ≤ 6) {len : Nat} (byte : len < 128) :
    Within (readXor readBuf readFrame len) := by
  have all (read : Nat × Nat)
      (is : read ∈ [(readFrame + 4, 2), (readFrame + 4, len + 1),
        (readFrame + 4 + 1, max 1 (len - 3)), (readFrame + 4 + len - 1, 1),
        (readFrame + 4, len)]) : read.1 + read.2 ≤ readBufSize := by
    rw [readBufSize]
    simp only [mem_cons, not_mem_nil, or_false] at is
    rcases is with rfl | rfl | rfl | rfl | rfl
    · dsimp only
      omega
    · dsimp only
      omega
    · dsimp only
      omega
    · dsimp only
      omega
    · dsimp only
      omega
  intro read inside
  refine all read ?_
  rw [readXor] at inside
  split at inside
  · exact mem_append_left [(readFrame + 4, len)] inside
  · exact inside

theorem within_start (near : readFrame ≤ 6) (result : Option (UInt8 × Nat × Int)) :
    Within ⟨readBuf, [(readFrame + 4, 1)], result⟩ := by
  intro read inside
  obtain rfl := mem_singleton.1 inside
  rw [readBufSize]
  dsimp only
  omega

theorem two_le_iff {b : UInt8} : 2 ≤ b.toNat ↔ 2 ≤ b :=
  (UInt8.le_iff_toNat_le (a := 2) (b := b)).symm

theorem within_readFrom (near : readFrame ≤ 6) (protocol : Protocol) :
    Within (readFrom protocol readBuf readFrame) ↔ LongEnough protocol readBuf readFrame := by
  cases protocol with
  | ID003 =>
    rw [readFrom, LongEnough]
    split
    · rename_i start
      rw [within_readCrc near (UInt8.toNat_lt _) (by decide), two_le_iff]
      exact ⟨fun long _ => long, fun long => long start⟩
    · rename_i other
      exact iff_of_true (within_start near _) fun start => absurd start other
  | CCNET =>
    rw [readFrom, LongEnough]
    split
    · rename_i start
      rw [within_readCrc near (UInt8.toNat_lt _) (by decide), two_le_iff]
      exact ⟨fun long _ => long, fun long => long start⟩
    · rename_i other
      exact iff_of_true (within_start near _) fun start => absurd start other
  | EBDS =>
    rw [readFrom, LongEnough]
    refine iff_of_true ?_ trivial
    split
    · refine within_readXor near ?_
      rw [toNat_and_7F]
      omega
    · exact within_start near _

/-! ## The frames of a validator -/

theorem returned_iff (protocol : Protocol) {cmd : UInt8} {data : List UInt8}
    (holds : Holds readBuf (readFrame + 4) (jcmWrite protocol cmd data)) :
    Returned (readBuf readFrame) cmd data (readFrom protocol readBuf readFrame) ↔
      Readable protocol cmd data := by
  cases protocol with
  | ID003 => exact returned_id003 holds
  | CCNET => exact returned_ccnet holds
  | EBDS => exact returned_ebds holds

/-- A frame is read as it was written, and tells its length, just in case it fits in the byte,
or the data tell it; and what is received is read within the buffer just in case it has two
bytes. -/
theorem framing (protocol : Protocol) (cmd : UInt8) (data : List UInt8) :
    (∀ (frame : SafeBoxComm.Reading) (readFrame : Nat), frame.answer = .pointer readFrame →
      Holds frame.readBuf (readFrame + 4) (jcmWrite protocol cmd data) →
      (Returned (frame.readBuf readFrame) cmd data (jcmRead protocol frame) ↔
        Readable protocol cmd data)) ∧
    (Described protocol (jcmWrite protocol cmd data) ↔ Counted protocol data) ∧
    ∀ (readBuf : Nat → UInt8) (line : Line) (readFrame : Nat),
      (safeBoxCommRead readBuf line).answer = .pointer readFrame →
      (Within (jcmRead protocol (safeBoxCommRead readBuf line)) ↔
        LongEnough protocol (safeBoxCommRead readBuf line).readBuf readFrame) := by
  refine ⟨?_, described_iff protocol cmd data, ?_⟩
  · intro frame readFrame answer holds
    rw [jcmRead, answer]
    exact returned_iff protocol holds
  · intro readBuf line readFrame answer
    rw [jcmRead, answer]
    exact within_readFrom (pointer_le answer) protocol

/-- The answer to a poll, in the frame of the safe board. -/
def pollAnswer : Line := ⟨safeBoxCommWrite 0 0 (jcmWrite .CCNET 0x14 []), fun _ => 300⟩

/-- The answer comes in the buffer with the length and is read within it. -/
theorem framing_pollAnswer :
    Returned 0 0x14 [] (jcmRead .CCNET (safeBoxCommRead (fun _ => 0) pollAnswer)) ∧
      Described .CCNET (jcmWrite .CCNET 0x14 []) ∧
      Within (jcmRead .CCNET (safeBoxCommRead (fun _ => 0) pollAnswer)) := by
  have answer : (safeBoxCommRead (fun _ => 0) pollAnswer).answer = .pointer 1 := by
    decide +kernel
  have holds : Holds (safeBoxCommRead (fun _ => 0) pollAnswer).readBuf (1 + 4)
      (jcmWrite .CCNET 0x14 []) := by
    unfold Holds
    decide +kernel
  obtain ⟨returned, described, within⟩ := framing .CCNET 0x14 []
  refine ⟨?_, described.2 (.inl (by decide)), (within _ _ 1 answer).2 fun _ => by decide +kernel⟩
  exact (returned _ 1 answer holds).2 (Nat.zero_le _)

/-- The header of 245 bytes of a firmware, and these. -/
def lastBlock : List UInt8 := [0x02, 0x01, 0x01, 0, 0, 0] ++ List.replicate 245 0xFF

/-- The frame of 257 bytes with the last block of a firmware tells the length 1. -/
theorem framing_lastBlock :
    ¬∀ (protocol : Protocol) (cmd : UInt8) (data : List UInt8),
      Described protocol (jcmWrite protocol cmd data) := by
  intro described
  have counted := (described_iff .CCNET 0x50 lastBlock).1 (described .CCNET 0x50 lastBlock)
  have length : lastBlock.length = 251 := by
    rw [lastBlock, length_append, length_replicate]
    rfl
  rw [Counted, length] at counted
  omega

end CimArm.JcmBillAcceptorComm
