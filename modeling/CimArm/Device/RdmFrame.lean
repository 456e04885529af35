import CimArm.Lib.Stuffing

/-!
# Frames of the RDM

A frame to the RDM is a header, the data with every DLE twice, `DLE ETX`, and a
checksum; a frame from it is the same behind the device's own header.  `rdmWriteFrame`
builds the one, `rdmReadFrame` reads the other: it takes the doubled DLEs out of the
receive buffer in place, looking for the end mark as it goes, and compares the
checksum.  Both compute the checksum with `makeCRC`, which reads two DLEs in a row as
one: on the doubled data when writing, on the data when reading.

The receive buffer is static memory, so behind the bytes just read stands what earlier
frames left there.

* `rdmReadFrame_deviceFrame`: a device frame is read back, when no DLE of its data
  stands directly before another or before an ETX.
* `rdmReadFrame_rdmWriteFrame`: the driver never reads a frame of its own.
-/

namespace CimArm.Rdm

open Stuffing

def DLE : UInt8 := 0x10
def ETX : UInt8 := 0x03

def etxCmd : List UInt8 := [0x10, 0x03]
def eotCmd : List UInt8 := [0x10, 0x04]
def rcvdFrameEnc : List UInt8 := [0x10, 0x02, 0x30, 0x41]
def sntFrameEnc : List UInt8 := [0x10, 0x02, 0x41, 0x30]

/-! ## The checksum -/

def m_Crc1Tbl : List UInt8 :=
  [
    0x00, 0x89, 0x12, 0x9b, 0x24, 0xad, 0x36, 0xbf, 0x48, 0xc1, 0x5a, 0xd3, 0x6c, 0xe5, 0x7e, 0xf7,
    0x81, 0x08, 0x93, 0x1a, 0xa5, 0x2c, 0xb7, 0x3e, 0xc9, 0x40, 0xdb, 0x52, 0xed, 0x64, 0xff, 0x76,
    0x02, 0x8b, 0x10, 0x99, 0x26, 0xaf, 0x34, 0xbd, 0x4a, 0xc3, 0x58, 0xd1, 0x6e, 0xe7, 0x7c, 0xf5,
    0x83, 0x0a, 0x91, 0x18, 0xa7, 0x2e, 0xb5, 0x3c, 0xcb, 0x42, 0xd9, 0x50, 0xef, 0x66, 0xfd, 0x74,
    0x04, 0x8d, 0x16, 0x9f, 0x20, 0xa9, 0x32, 0xbb, 0x4c, 0xc5, 0x5e, 0xd7, 0x68, 0xe1, 0x7a, 0xf3,
    0x85, 0x0c, 0x97, 0x1e, 0xa1, 0x28, 0xb3, 0x3a, 0xcd, 0x44, 0xdf, 0x56, 0xe9, 0x60, 0xfb, 0x72,
    0x06, 0x8f, 0x14, 0x9d, 0x22, 0xab, 0x30, 0xb9, 0x4e, 0xc7, 0x5c, 0xd5, 0x6a, 0xe3, 0x78, 0xf1,
    0x87, 0x0e, 0x95, 0x1c, 0xa3, 0x2a, 0xb1, 0x38, 0xcf, 0x46, 0xdd, 0x54, 0xeb, 0x62, 0xf9, 0x70,
    0x08, 0x81, 0x1a, 0x93, 0x2c, 0xa5, 0x3e, 0xb7, 0x40, 0xc9, 0x52, 0xdb, 0x64, 0xed, 0x76, 0xff,
    0x89, 0x00, 0x9b, 0x12, 0xad, 0x24, 0xbf, 0x36, 0xc1, 0x48, 0xd3, 0x5a, 0xe5, 0x6c, 0xf7, 0x7e,
    0x0a, 0x83, 0x18, 0x91, 0x2e, 0xa7, 0x3c, 0xb5, 0x42, 0xcb, 0x50, 0xd9, 0x66, 0xef, 0x74, 0xfd,
    0x8b, 0x02, 0x99, 0x10, 0xaf, 0x26, 0xbd, 0x34, 0xc3, 0x4a, 0xd1, 0x58, 0xe7, 0x6e, 0xf5, 0x7c,
    0x0c, 0x85, 0x1e, 0x97, 0x28, 0xa1, 0x3a, 0xb3, 0x44, 0xcd, 0x56, 0xdf, 0x60, 0xe9, 0x72, 0xfb,
    0x8d, 0x04, 0x9f, 0x16, 0xa9, 0x20, 0xbb, 0x32, 0xc5, 0x4c, 0xd7, 0x5e, 0xe1, 0x68, 0xf3, 0x7a,
    0x0e, 0x87, 0x1c, 0x95, 0x2a, 0xa3, 0x38, 0xb1, 0x46, 0xcf, 0x54, 0xdd, 0x62, 0xeb, 0x70, 0xf9,
    0x8f, 0x06, 0x9d, 0x14, 0xab, 0x22, 0xb9, 0x30, 0xc7, 0x4e, 0xd5, 0x5c, 0xe3, 0x6a, 0xf1, 0x78
  ]

def m_Crc2Tbl : List UInt8 :=
  [
    0x00, 0x11, 0x23, 0x32, 0x46, 0x57, 0x65, 0x74, 0x8c, 0x9d, 0xaf, 0xbe, 0xca, 0xdb, 0xe9, 0xf8,
    0x10, 0x01, 0x33, 0x22, 0x56, 0x47, 0x75, 0x64, 0x9c, 0x8d, 0xbf, 0xae, 0xda, 0xcb, 0xf9, 0xe8,
    0x21, 0x30, 0x02, 0x13, 0x67, 0x76, 0x44, 0x55, 0xad, 0xbc, 0x8e, 0x9f, 0xeb, 0xfa, 0xc8, 0xd9,
    0x31, 0x20, 0x12, 0x03, 0x77, 0x66, 0x54, 0x45, 0xbd, 0xac, 0x9e, 0x8f, 0xfb, 0xea, 0xd8, 0xc9,
    0x42, 0x53, 0x61, 0x70, 0x04, 0x15, 0x27, 0x36, 0xce, 0xdf, 0xed, 0xfc, 0x88, 0x99, 0xab, 0xba,
    0x52, 0x43, 0x71, 0x60, 0x14, 0x05, 0x37, 0x26, 0xde, 0xcf, 0xfd, 0xec, 0x98, 0x89, 0xbb, 0xaa,
    0x63, 0x72, 0x40, 0x51, 0x25, 0x34, 0x06, 0x17, 0xef, 0xfe, 0xcc, 0xdd, 0xa9, 0xb8, 0x8a, 0x9b,
    0x73, 0x62, 0x50, 0x41, 0x35, 0x24, 0x16, 0x07, 0xff, 0xee, 0xdc, 0xcd, 0xb9, 0xa8, 0x9a, 0x8b,
    0x84, 0x95, 0xa7, 0xb6, 0xc2, 0xd3, 0xe1, 0xf0, 0x08, 0x19, 0x2b, 0x3a, 0x4e, 0x5f, 0x6d, 0x7c,
    0x94, 0x85, 0xb7, 0xa6, 0xd2, 0xc3, 0xf1, 0xe0, 0x18, 0x09, 0x3b, 0x2a, 0x5e, 0x4f, 0x7d, 0x6c,
    0xa5, 0xb4, 0x86, 0x97, 0xe3, 0xf2, 0xc0, 0xd1, 0x29, 0x38, 0x0a, 0x1b, 0x6f, 0x7e, 0x4c, 0x5d,
    0xb5, 0xa4, 0x96, 0x87, 0xf3, 0xe2, 0xd0, 0xc1, 0x39, 0x28, 0x1a, 0x0b, 0x7f, 0x6e, 0x5c, 0x4d,
    0xc6, 0xd7, 0xe5, 0xf4, 0x80, 0x91, 0xa3, 0xb2, 0x4a, 0x5b, 0x69, 0x78, 0x0c, 0x1d, 0x2f, 0x3e,
    0xd6, 0xc7, 0xf5, 0xe4, 0x90, 0x81, 0xb3, 0xa2, 0x5a, 0x4b, 0x79, 0x68, 0x1c, 0x0d, 0x3f, 0x2e,
    0xe7, 0xf6, 0xc4, 0xd5, 0xa1, 0xb0, 0x82, 0x93, 0x6b, 0x7a, 0x48, 0x59, 0x2d, 0x3c, 0x0e, 0x1f,
    0xf7, 0xe6, 0xd4, 0xc5, 0xb1, 0xa0, 0x92, 0x83, 0x7b, 0x6a, 0x58, 0x49, 0x3d, 0x2c, 0x1e, 0x0f
  ]

/-- One byte into the checksum. -/
def crcStep (m_Crc16work : UInt16) (temp : UInt8) : UInt16 :=
  let work := temp ^^^ (m_Crc16work >>> 8).toUInt8
  ((m_Crc16work ^^^ (m_Crc1Tbl.getD work.toNat 0).toUInt16) <<< 8) |||
    (m_Crc2Tbl.getD work.toNat 0).toUInt16

/-- The loop over `len` bytes; of two DLEs in a row the first is skipped. -/
def crcLoop (m_Crc16work : UInt16) : Nat → List UInt8 → UInt16
  | len + 1, a :: b :: pbuf =>
    if a = DLE ∧ b = DLE then crcLoop (crcStep m_Crc16work b) (len - 1) pbuf
    else crcLoop (crcStep m_Crc16work a) len (b :: pbuf)
  | _ + 1, [a] => crcStep m_Crc16work a
  | _, _ => m_Crc16work

def makeCRC (pbuf : List UInt8) (len : Nat) : UInt16 := crcLoop 0 len pbuf

/-! ## Writing -/

/-- The bytes of a little-endian value. -/
def shortToLEndian (n : UInt16) : List UInt8 := [n.toUInt8, (n >>> 8).toUInt8]

/-- What `rdmWriteFrame` puts in `writeBuf`, behind a header. -/
def writeBuf (frameEnc data : List UInt8) : List UInt8 :=
  let buf := frameEnc ++ stuff DLE data ++ [ETX]
  let crcval := makeCRC (buf.drop 2) ((stuff DLE data).length + 3)
  frameEnc ++ stuff DLE data ++ etxCmd ++ shortToLEndian crcval

def rdmWriteFrame (data : List UInt8) : List UInt8 := writeBuf sntFrameEnc data

/-- The frame the device sends with these data. -/
def deviceFrame (data : List UInt8) : List UInt8 := writeBuf rcvdFrameEnc data

/-! ## Reading -/

/-- Move the bytes from the second on down by one, up to the first `DLE ETX` and four
bytes from there. -/
def moveDown : List UInt8 → List UInt8
  | a :: b :: mem =>
    if a = DLE ∧ b = ETX then ((a :: b :: mem).drop 1).take 4 ++ (a :: b :: mem).drop 4
    else b :: moveDown (b :: mem)
  | mem => mem

/-- The loop that looks for `DLE ETX` among `qty` bytes and takes out the first of two
DLEs in a row: the bytes passed, the memory from the pointer on, and the bytes left. -/
def findEtx : Nat → Nat → List UInt8 → List UInt8 × List UInt8 × Nat
  | 0, qty, mem => ([], mem, qty)
  | fuel + 1, qty, mem =>
    if qty = 0 ∨ mem.take 2 = etxCmd then ([], mem, qty)
    else
      let (qty, mem) := if mem.take 2 = [DLE, DLE] then (qty - 1, moveDown mem) else (qty, mem)
      match mem with
      | [] => ([], [], 0)
      | c :: mem =>
        let (passed, mem, qty) := findEtx fuel (qty - 1) mem
        (c :: passed, mem, qty)

/-- The second half of `rdmReadFrame`: check the header and the checksum of a frame of
`frameLen` bytes up to its end mark, with `qty` bytes left from there on. -/
def checkFrame (bufPtr : List UInt8) (frameLen qty : Nat) : Option (List UInt8) :=
  if 0 < qty ∧ 8 < frameLen then
    if bufPtr.take 4 = rcvdFrameEnc then
      let bufPtr := bufPtr.set frameLen ETX
      let crcval := makeCRC (bufPtr.drop 2) (frameLen - 1)
      if (bufPtr.drop (frameLen + 2)).take 2 = shortToLEndian crcval then some (bufPtr.drop 4)
      else none
    else none
  else none

/-- Read one frame from the bytes on the line, over what the buffer held: the memory from
the block number on, or `none` where the source returns `NULL`. -/
def rdmReadFrame (readBuf : Vector UInt8 570) (line : List UInt8) : Option (List UInt8) :=
  let qty := (line.take 300).length
  let buf := line.take 300 ++ readBuf.toList.drop qty
  if 2 ≤ qty then
    let (bufPtr, qty) := if buf.take 2 = eotCmd then (buf.drop 2, qty - 2) else (buf, qty)
    let (passed, mem, qty) := findEtx qty qty bufPtr
    checkFrame (passed ++ mem) passed.length qty
  else none

/-! ## What the checksum covers -/

/-- The checksum of a list that ends in another byte than a DLE is that of its bytes with
the doubled DLEs taken as one, whatever follows it in memory. -/
theorem crcLoop_eq {e : UInt8} (he : e ≠ DLE) (more : List UInt8) :
    ∀ (l : List UInt8) (crc : UInt16),
      crcLoop crc (l.length + 1) (l ++ e :: more) = (collapse DLE (l ++ [e])).foldl crcStep crc
  | [], crc => by
    cases more with
    | nil => rfl
    | cons b more =>
      change crcLoop crc 1 (e :: b :: more) = _
      rw [crcLoop, if_neg fun h => he h.1]
      cases more <;> rfl
  | [a], crc => by
    have plain : ¬ (a = DLE ∧ e = DLE) := fun h => he h.2
    change crcLoop crc 2 (a :: e :: more) = (collapse DLE [a, e]).foldl crcStep crc
    rw [crcLoop, if_neg plain, collapse, if_neg plain]
    exact crcLoop_eq he more [] (crcStep crc a)
  | a :: b :: l, crc => by
    change crcLoop crc (l.length + 3) (a :: b :: (l ++ e :: more)) =
      (collapse DLE (a :: b :: (l ++ [e]))).foldl crcStep crc
    rw [crcLoop, collapse]
    split_ifs with dles
    · exact crcLoop_eq he more l (crcStep crc b)
    · exact crcLoop_eq he more (b :: l) (crcStep crc a)

theorem makeCRC_eq {e : UInt8} (he : e ≠ DLE) (l more : List UInt8) :
    makeCRC (l ++ e :: more) (l.length + 1) = (collapse DLE (l ++ [e])).foldl crcStep 0 :=
  crcLoop_eq he more l 0

theorem makeCRC_stuff {h₀ h₁ : UInt8} (hh₀ : h₀ ≠ DLE) (hh₁ : h₁ ≠ DLE) (data : List UInt8) :
    makeCRC (h₀ :: h₁ :: stuff DLE data ++ [ETX]) ((stuff DLE data).length + 3) =
      (h₀ :: h₁ :: data ++ [ETX]).foldl crcStep 0 := by
  have covered := makeCRC_eq (e := ETX) (by decide) (h₀ :: h₁ :: stuff DLE data) []
  refine covered.trans ?_
  change (collapse DLE (h₀ :: h₁ :: (stuff DLE data ++ [ETX]))).foldl crcStep 0 = _
  rw [collapse_cons_of_ne hh₀, collapse_cons_of_ne hh₁, collapse_stuff]
  rfl

theorem makeCRC_apart {h₀ h₁ : UInt8} (hh₀ : h₀ ≠ DLE) (hh₁ : h₁ ≠ DLE) {data : List UInt8}
    (apart : Apart DLE ETX data) (more : List UInt8) :
    makeCRC (h₀ :: h₁ :: data ++ ETX :: more) (data.length + 3) =
      (h₀ :: h₁ :: data ++ [ETX]).foldl crcStep 0 := by
  refine (makeCRC_eq (e := ETX) (by decide) (h₀ :: h₁ :: data) more).trans ?_
  change (collapse DLE (h₀ :: h₁ :: (data ++ [ETX]))).foldl crcStep 0 = _
  rw [collapse_cons_of_ne hh₀, collapse_cons_of_ne hh₁, collapse_of_apart apart (by decide)]
  rfl

/-! ## Finding the end of a frame -/

/-- Moving down takes out the first byte of memory without an end mark before its end. -/
theorem moveDown_eq (c₀ c₁ j : UInt8) (junk : List UInt8) :
    ∀ {l : List UInt8}, NoMark DLE ETX (l ++ [DLE]) →
      moveDown (l ++ DLE :: ETX :: c₀ :: c₁ :: j :: junk) =
        (l ++ [DLE]).tail ++ ETX :: c₀ :: c₁ :: j :: j :: junk
  | [], _ => rfl
  | a :: l, none_yet => by
    have next : (l ++ DLE :: ETX :: c₀ :: c₁ :: j :: junk) =
        (l ++ [DLE]) ++ ETX :: c₀ :: c₁ :: j :: junk := by simp
    have rest := moveDown_eq c₀ c₁ j junk (List.IsChain.tail none_yet)
    rcases hl : l ++ [DLE] with _ | ⟨b, tail⟩
    · simp at hl
    have no_mark : ¬ (a = DLE ∧ b = ETX) := none_yet.rel_head? (y := b) (by
      change b ∈ (l ++ [DLE]).head?
      rw [hl]
      rfl)
    rw [next, hl] at rest
    change moveDown (a :: (l ++ DLE :: ETX :: c₀ :: c₁ :: j :: junk)) = (l ++ [DLE]) ++ _
    rw [next, hl]
    change moveDown (a :: b :: (tail ++ ETX :: c₀ :: c₁ :: j :: junk)) = _
    rw [moveDown, if_neg no_mark]
    exact congrArg (b :: ·) rest

theorem findEtx_pass {fuel qty : Nat} {c : UInt8} {mem : List UInt8} (some_left : 0 < qty)
    (mark : (c :: mem).take 2 ≠ etxCmd) (pair : (c :: mem).take 2 ≠ [DLE, DLE]) :
    findEtx (fuel + 1) qty (c :: mem) =
      (c :: (findEtx fuel (qty - 1) mem).1, (findEtx fuel (qty - 1) mem).2) := by
  rw [findEtx, if_neg (not_or.2 ⟨by omega, mark⟩)]
  simp only [if_neg pair]

theorem findEtx_stuff (c₀ c₁ : UInt8) :
    ∀ {data : List UInt8}, Apart DLE ETX data → ∀ (fuel qty : Nat) (j : UInt8) (junk : List UInt8),
      (stuff DLE data).length < qty → (stuff DLE data).length ≤ fuel →
      ∃ junk', findEtx (fuel + 1) qty (stuff DLE data ++ DLE :: ETX :: c₀ :: c₁ :: j :: junk) =
        (data, DLE :: ETX :: c₀ :: c₁ :: junk', qty - (stuff DLE data).length)
  | [], _, fuel, qty, j, junk, _, _ => by
    refine ⟨j :: junk, ?_⟩
    rw [findEtx, if_pos (.inr rfl)]
    rfl
  | a :: data, apart, fuel, qty, j, junk, left, fueled => by
    by_cases dles : a = DLE
    · subst dles
      rw [stuff_cons_dle] at left fueled ⊢
      simp only [List.length_cons] at left fueled ⊢
      obtain ⟨fuel, rfl⟩ : ∃ n, fuel = n + 1 := ⟨fuel - 1, by omega⟩
      -- the pair is taken out, then its one DLE is passed
      have no_mark : NoMark DLE ETX (DLE :: DLE :: stuff DLE data ++ [DLE]) := by
        have whole := noMark_stuff (by decide) apart
        rwa [stuff_cons_dle] at whole
      have down := moveDown_eq c₀ c₁ j junk no_mark
      have rest : (DLE :: DLE :: stuff DLE data ++ [DLE]).tail ++ ETX :: c₀ :: c₁ :: j :: j :: junk =
          DLE :: (stuff DLE data ++ DLE :: ETX :: c₀ :: c₁ :: j :: j :: junk) := by simp
      rcases findEtx_stuff c₀ c₁ apart.tail fuel (qty - 2) j (j :: junk)
        (by omega) (by omega) with ⟨junk', found⟩
      refine ⟨junk', ?_⟩
      rw [findEtx, if_neg (by simp [etxCmd, DLE]; omega)]
      simp only [List.cons_append, List.take_succ_cons, List.take_zero, if_true]
      rw [← List.cons_append, ← List.cons_append, down, rest]
      have step : qty - 1 - 1 = qty - 2 := by omega
      have count : qty - ((stuff DLE data).length + 1 + 1) =
          qty - 2 - (stuff DLE data).length := by omega
      simp only [step, found, count]
    · rw [stuff_cons_of_ne dles] at left fueled ⊢
      simp only [List.length_cons] at left fueled ⊢
      obtain ⟨fuel, rfl⟩ : ∃ n, fuel = n + 1 := ⟨fuel - 1, by omega⟩
      rcases findEtx_stuff c₀ c₁ apart.tail fuel (qty - 1) j junk
        (by omega) (by omega) with ⟨junk', found⟩
      refine ⟨junk', ?_⟩
      have count : qty - ((stuff DLE data).length + 1) =
          qty - 1 - (stuff DLE data).length := by omega
      have first {b : UInt8} {mem : List UInt8} : (a :: mem).take 2 ≠ [DLE, b] := by
        cases mem <;> simp [dles]
      rw [List.cons_append, findEtx_pass (by omega) first first, found, count]

/-! ## Reading a device frame -/

theorem writeBuf_length (frameEnc data : List UInt8) :
    (writeBuf frameEnc data).length = frameEnc.length + (stuff DLE data).length + 4 := by
  simp [writeBuf, etxCmd, shortToLEndian]
  omega

variable (readBuf : Vector UInt8 570)

/-- The receive buffer after a whole frame arrived: the frame, and at least one byte that
was there before. -/
theorem received {line : List UInt8} (fits : line.length ≤ 300) :
    ∃ j junk, line.take 300 ++ readBuf.toList.drop (line.take 300).length = line ++ j :: junk := by
  have whole : line.take 300 = line := List.take_of_length_le fits
  have stale : 0 < (readBuf.toList.drop line.length).length := by
    rw [List.length_drop, Vector.length_toList]
    omega
  rcases List.exists_cons_of_length_pos stale with ⟨j, junk, split⟩
  exact ⟨j, junk, by rw [whole, split]⟩

theorem findEtx_header (h₂ h₃ : UInt8) (plain₂ : h₂ ≠ DLE) (plain₃ : h₃ ≠ DLE)
    {fuel qty : Nat} (left : 4 < qty) (mem : List UInt8) :
    findEtx (fuel + 4) qty (0x10 :: 0x02 :: h₂ :: h₃ :: mem) =
      (0x10 :: 0x02 :: h₂ :: h₃ :: (findEtx fuel (qty - 4) mem).1,
        (findEtx fuel (qty - 4) mem).2) := by
  have pass {c : UInt8} (plain : c ≠ DLE) (b : UInt8) (mem : List UInt8) :
      (c :: mem).take 2 ≠ [DLE, b] := by
    cases mem <;> simp [plain]
  rw [findEtx_pass (by omega) (by simp [etxCmd]) (by simp [DLE]),
    findEtx_pass (by omega) (pass (by decide) _ _) (pass (by decide) _ _),
    findEtx_pass (by omega) (pass plain₂ _ _) (pass plain₂ _ _),
    findEtx_pass (by omega) (pass plain₃ _ _) (pass plain₃ _ _)]
  rfl

theorem writeBuf_append (h₂ h₃ : UInt8) (data more : List UInt8) :
    let crcval := makeCRC (h₂ :: h₃ :: stuff DLE data ++ [ETX]) ((stuff DLE data).length + 3)
    writeBuf [0x10, 0x02, h₂, h₃] data ++ more = [0x10, 0x02, h₂, h₃] ++ (stuff DLE data ++
      DLE :: ETX :: crcval.toUInt8 :: (crcval >>> 8).toUInt8 :: more) := by
  simp [writeBuf, etxCmd, shortToLEndian, DLE, ETX]

/-- Reading a frame passes its header, and then its data if no DLE of them stands before
another or before an ETX. -/
theorem rdmReadFrame_writeBuf {h₂ h₃ : UInt8} (plain₂ : h₂ ≠ DLE) (plain₃ : h₃ ≠ DLE)
    {data : List UInt8} (fits : (writeBuf [0x10, 0x02, h₂, h₃] data).length ≤ 300) :
    ∃ passed mem qty, rdmReadFrame readBuf (writeBuf [0x10, 0x02, h₂, h₃] data) =
        checkFrame ([0x10, 0x02, h₂, h₃] ++ (passed ++ mem)) (passed.length + 4) qty ∧
      (Apart DLE ETX data → passed = data ∧ 0 < qty ∧
        ∃ junk, mem = DLE :: ETX :: (shortToLEndian (makeCRC (h₂ :: h₃ :: stuff DLE data ++ [ETX])
          ((stuff DLE data).length + 3)) ++ junk)) := by
  let crcval := makeCRC (h₂ :: h₃ :: stuff DLE data ++ [ETX]) ((stuff DLE data).length + 3)
  have whole : (writeBuf [0x10, 0x02, h₂, h₃] data).take 300 = writeBuf [0x10, 0x02, h₂, h₃] data :=
    List.take_of_length_le fits
  have length : (writeBuf [0x10, 0x02, h₂, h₃] data).length = (stuff DLE data).length + 8 := by
    rw [writeBuf_length]
    simp only [List.length_cons, List.length_nil]
    omega
  rcases received readBuf fits with ⟨j, junk, buf⟩
  let mem := stuff DLE data ++ DLE :: ETX :: crcval.toUInt8 :: (crcval >>> 8).toUInt8 :: j :: junk
  have buf : writeBuf [0x10, 0x02, h₂, h₃] data ++
      readBuf.toList.drop (writeBuf [0x10, 0x02, h₂, h₃] data).length =
        [0x10, 0x02, h₂, h₃] ++ mem := by
    rw [whole] at buf
    rw [buf, writeBuf_append]
  let found := findEtx ((stuff DLE data).length + 4) ((stuff DLE data).length + 4) mem
  have header : findEtx ((stuff DLE data).length + 8) ((stuff DLE data).length + 8)
      ([0x10, 0x02, h₂, h₃] ++ mem) = ([0x10, 0x02, h₂, h₃] ++ found.1, found.2) :=
    findEtx_header h₂ h₃ plain₂ plain₃ (by omega) mem
  have no_eot : ([0x10, 0x02, h₂, h₃] ++ mem).take 2 ≠ eotCmd := by simp [eotCmd]
  refine ⟨found.1, found.2.1, found.2.2, ?_, fun apart => ?_⟩
  · have read : rdmReadFrame readBuf (writeBuf [0x10, 0x02, h₂, h₃] data) =
        let r := findEtx ((stuff DLE data).length + 8) ((stuff DLE data).length + 8)
          ([0x10, 0x02, h₂, h₃] ++ mem)
        checkFrame (r.1 ++ r.2.1) r.1.length r.2.2 := by
      rw [rdmReadFrame]
      simp only [whole, buf]
      rw [length, if_pos (by omega), if_neg no_eot]
    rw [read]
    simp only [header, List.append_assoc, List.length_append, List.length_cons, List.length_nil]
    rw [Nat.add_comm]
  · rcases findEtx_stuff crcval.toUInt8 (crcval >>> 8).toUInt8 apart
      ((stuff DLE data).length + 3) ((stuff DLE data).length + 4) j junk (by omega) (by omega)
      with ⟨junk', result⟩
    have same : found = _ := result
    rw [same]
    exact ⟨rfl, by simp only []; omega, junk', rfl⟩

/-- A frame of the device is read back from the line: at the pointer returned stand
exactly its data, when no DLE of them stands directly before another or before an ETX,
they are at least five bytes and the frame is one the driver reads at once. -/
theorem rdmReadFrame_deviceFrame (readBuf : Vector UInt8 570) (data : List UInt8)
    (apart : Apart DLE ETX data) (filled : 5 ≤ data.length)
    (fits : (deviceFrame data).length ≤ 300) :
    ∃ mem, rdmReadFrame readBuf (deviceFrame data) = some mem ∧ mem.take data.length = data := by
  rcases rdmReadFrame_writeBuf readBuf (by decide) (by decide) fits with
    ⟨passed, mem, qty, read, found⟩
  rcases found apart with ⟨rfl, left, junk, rfl⟩
  have covered := @makeCRC_stuff 0x30 0x41 (by decide) (by decide) passed
  generalize makeCRC (0x30 :: 0x41 :: stuff DLE passed ++ [ETX])
    ((stuff DLE passed).length + 3) = sent at read covered
  have set_etx : ([0x10, 0x02, 0x30, 0x41] ++ (passed ++ DLE :: ETX ::
      (shortToLEndian sent ++ junk))).set (passed.length + 4) ETX =
        [0x10, 0x02, 0x30, 0x41] ++ (passed ++ ETX :: ETX :: (shortToLEndian sent ++ junk)) := by
    simp
  have checked : makeCRC (([0x10, 0x02, 0x30, 0x41] ++ (passed ++ ETX :: ETX ::
      (shortToLEndian sent ++ junk))).drop 2) (passed.length + 4 - 1) = sent :=
    (makeCRC_apart (by decide) (by decide) apart _).trans covered.symm
  have stored : (([0x10, 0x02, 0x30, 0x41] ++ (passed ++ ETX :: ETX ::
      (shortToLEndian sent ++ junk))).drop (passed.length + 4 + 2)).take 2 = shortToLEndian sent := by
    have split : [0x10, 0x02, 0x30, 0x41] ++ (passed ++ ETX :: ETX ::
        (shortToLEndian sent ++ junk)) =
          ([0x10, 0x02, 0x30, 0x41] ++ passed ++ [ETX, ETX]) ++ (shortToLEndian sent ++ junk) := by
      simp
    rw [split, List.drop_left' (by simp)]
    rfl
  have header : ([0x10, 0x02, 0x30, 0x41] ++ (passed ++ DLE :: ETX ::
      (shortToLEndian sent ++ junk))).take 4 = rcvdFrameEnc := rfl
  refine ⟨passed ++ ETX :: ETX :: (shortToLEndian sent ++ junk), ?_, List.take_left⟩
  change rdmReadFrame readBuf (writeBuf [0x10, 0x02, 0x30, 0x41] passed) = _
  rw [read, checkFrame, if_pos ⟨left, by omega⟩, if_pos header]
  simp only [set_etx, checked]
  rw [if_pos stored]
  rfl

/-- Data with a DLE inside and a DLE at the end, before the end mark. -/
theorem rdmReadFrame_deviceFrame_dle :
    ∃ mem, rdmReadFrame (Vector.replicate 570 0x55) (deviceFrame [0x31, 0x42, 0x10, 0x02, 0x03, 0x10]) =
      some mem ∧ mem.take 6 = [0x31, 0x42, 0x10, 0x02, 0x03, 0x10] :=
  rdmReadFrame_deviceFrame _ [0x31, 0x42, 0x10, 0x02, 0x03, 0x10] (by decide) (by decide) (by
    rw [deviceFrame, writeBuf_length]
    decide)

theorem rdmReadFrame_rdmWriteFrame (data : List UInt8) (fits : (rdmWriteFrame data).length ≤ 300) :
    rdmReadFrame readBuf (rdmWriteFrame data) = none := by
  rcases rdmReadFrame_writeBuf readBuf (by decide) (by decide) fits with ⟨passed, mem, qty, read, -⟩
  change rdmReadFrame readBuf (writeBuf [0x10, 0x02, 0x41, 0x30] data) = none
  rw [read, checkFrame]
  split_ifs with counted own
  · change [0x10, 0x02, 0x41, 0x30] = rcvdFrameEnc at own
    exact absurd own (by decide)
  · rfl
  · rfl

/-- Six bytes without control bytes, in a frame of the driver's own. -/
theorem not_roundTrip :
    ¬ ∀ (readBuf : Vector UInt8 570) (data : List UInt8), (rdmWriteFrame data).length ≤ 300 →
      ∃ mem, rdmReadFrame readBuf (rdmWriteFrame data) = some mem ∧
        mem.take data.length = data := by
  intro always
  have fits : (rdmWriteFrame [1, 2, 3, 4, 5, 6]).length ≤ 300 := by
    rw [rdmWriteFrame, writeBuf_length]
    decide
  rcases always (Vector.replicate 570 0) _ fits with ⟨mem, read, -⟩
  rw [rdmReadFrame_rdmWriteFrame _ _ fits] at read
  exact absurd read (by simp)

end CimArm.Rdm
