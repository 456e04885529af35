import CimArm.Lib.Bytes
import Mathlib.Data.List.GetD

/-!
# Frames to and from the safe board

A frame is a start byte, the device, the command, a length in two bytes, so many bytes of data and
a checksum with which all bytes but the first add up to zero.  The reader looks for the start
byte in the first six bytes it gets and reads as many more as came before it; then it reads
the data into its buffer, and returns the place behind the start byte if the checksum is right.

It does not compare the length with its buffer.  And a length that is corrupted only moves the
place of the checksum, so that the frame may be taken for a shorter one.

* `read_framed`: a frame behind fewer than six other bytes is returned as it was written, a
  corrupted byte of it is noticed but for the start and the length, and nothing is stored outside
  the buffer unless the length that came passes it.
* `length_unnoticed`: a corrupted length that is not noticed.
-/

namespace CimArm.SafeBoxComm

open List Function

/-! ## The checksum -/

/-- The bytes but the first, added up in 16 bits, and the complement. -/
def calcChksumC2 (data : Nat → UInt8) (n : Nat) : UInt8 :=
  let sum := (List.range (n - 1)).foldl
    (fun (sum : UInt16) i => sum + (data (i + 1)).toUInt16) 0
  (256 - sum).toUInt8

/-! ## Writing -/

def SHORT_TO_B_ENDIAN (n : Nat) : List UInt8 := [UInt8.ofNat (n / 256), UInt8.ofNat n]

/-- What `safeBoxCommWrite` sends. -/
def safeBoxCommWrite (dev cmd : UInt8) (data : List UInt8) : List UInt8 :=
  let writeBuf := 0xF8 :: dev :: cmd :: (SHORT_TO_B_ENDIAN data.length ++ data)
  writeBuf ++ [calcChksumC2 (fun i => writeBuf.getD i 0) (data.length + 5)]

/-! ## Reading -/

/-- The memory from `readBuf` on, which has 270 bytes. -/
def readBufSize : Nat := 270

/-- Bytes that are stored at some place. -/
def store (readBuf : Nat → UInt8) (bufPtr : Nat) (bytes : List UInt8) : Nat → UInt8 :=
  fun p =>
    if bufPtr ≤ p ∧ p < bufPtr + bytes.length then bytes.getD (p - bufPtr) 0 else readBuf p

/-- The bytes on the line, and how many of them come before each call times out. -/
structure Line : Type where
  bytes : List UInt8
  arrives : Nat → Nat

def com_read (line : Line) (call qty : Nat) : List UInt8 :=
  line.bytes.take (min qty (line.arrives call))

def Line.rest (line : Line) (got : List UInt8) : Line :=
  { line with bytes := line.bytes.drop got.length }

/-- The loop that looks for the start byte, with so many bytes left to look at. -/
def findStart (readBuf : Nat → UInt8) : Nat → Nat → Nat
  | 0, bufPtr => bufPtr
  | left + 1, bufPtr =>
    if readBuf bufPtr ≠ 0xF8 then findStart readBuf left (bufPtr + 1) else bufPtr

inductive Answer : Type
  | null
  | pointer (bufPtr : Nat)
  /-- The counter of `calcChksumC2` has 16 bits. -/
  | endless
  deriving DecidableEq

/-- What a call of `safeBoxCommRead` does: the memory, where it stored how many bytes, and what
it returns. -/
structure Reading : Type where
  readBuf : Nat → UInt8
  stored : List (Nat × Nat)
  answer : Answer

def lengthAt (readBuf : Nat → UInt8) (bufPtr : Nat) : Nat :=
  (readBuf (bufPtr + 3)).toNat * 256 + (readBuf (bufPtr + 4)).toNat

/-- `safeBoxCommRead` from where the start byte was found in the first six bytes. -/
def readData (readBuf : Nat → UInt8) (bufPtr : Nat) (line : Line) : Reading :=
  let second := if bufPtr ≠ 0 then com_read line 1 bufPtr else []
  let readBuf := store readBuf 6 second
  let line := line.rest second
  let len := lengthAt readBuf bufPtr
  let third := com_read line 2 len
  let readBuf := store readBuf (bufPtr + 6) third
  { readBuf := readBuf
    stored := [(0, 6), (6, second.length), (bufPtr + 6, third.length)]
    answer :=
      if len + 5 > 65535 then .endless
      else if calcChksumC2 (fun i => readBuf (bufPtr + i)) (len + 5) = readBuf (bufPtr + len + 5)
      then .pointer (bufPtr + 1)
      else .null }

def safeBoxCommRead (readBuf : Nat → UInt8) (line : Line) : Reading :=
  let first := com_read line 0 6
  let readBuf := store readBuf 0 first
  if first.length = 6 then
    let bufPtr := findStart readBuf 6 0
    if bufPtr < 6 then readData readBuf bufPtr (line.rest first)
    else ⟨readBuf, [(0, first.length)], .null⟩
  else ⟨readBuf, [(0, first.length)], .null⟩

/-! ## What the checksum adds up to -/

/-- So many values added up, in 8 bits. -/
def sumTo (f : Nat → UInt8) : Nat → UInt8
  | 0 => 0
  | n + 1 => sumTo f n + f n

variable {n : Nat} {readBuf : Nat → UInt8} {bufPtr left : Nat}

theorem sumTo_congr {f g : Nat → UInt8} (same : ∀ i < n, f i = g i) : sumTo f n = sumTo g n := by
  induction n with
  | zero => rfl
  | succ n ih =>
    have before : sumTo f n = sumTo g n := ih fun i less => same i (by omega)
    rw [sumTo, sumTo, before, same n (by omega)]

theorem sumTo_update (f : Nat → UInt8) {i : Nat} (inside : i < n) (b : UInt8) :
    sumTo (Function.update f i b) n = sumTo f n + (b - f i) := by
  induction n with
  | zero => omega
  | succ n ih =>
    rcases Nat.lt_or_ge i n with before | last
    · rw [sumTo, sumTo, ih before, update_of_ne (by omega)]
      grind
    · have here : i = n := by omega
      have before : sumTo (Function.update f n b) n = sumTo f n :=
        sumTo_congr fun j less => update_of_ne (by omega) ..
      rw [here, sumTo, sumTo, before, update_self]
      grind

theorem calcChksumC2_eq (data : Nat → UInt8) (n : Nat) :
    calcChksumC2 data (n + 1) = - sumTo (fun i => data (i + 1)) n := by
  have sum : ((List.range n).foldl
      (fun (sum : UInt16) i => sum + (data (i + 1)).toUInt16) 0).toUInt8 =
      sumTo (fun i => data (i + 1)) n := by
    induction n with
    | zero => rfl
    | succ n ih =>
      rw [range_succ, foldl_append, foldl_cons, foldl_nil,
        UInt16.toUInt8_add, ih, sumTo, UInt8.toUInt8_toUInt16]
  rw [calcChksumC2, Nat.add_sub_cancel, UInt16.toUInt8_sub, sum]
  exact UInt8.zero_sub _

theorem calcChksumC2_eq_iff (data : Nat → UInt8) (n : Nat) :
    calcChksumC2 data (n + 1) = data (n + 1) ↔ sumTo (fun i => data (i + 1)) (n + 1) = 0 := by
  rw [calcChksumC2_eq, sumTo]
  grind

/-! ## What the memory holds -/

/-- The memory holds the bytes at the place. -/
def Holds (readBuf : Nat → UInt8) (place : Nat) (bytes : List UInt8) : Prop :=
  ∀ i < bytes.length, readBuf (place + i) = bytes.getD i 0

theorem store_before {p : Nat} {bytes : List UInt8} (before : p < bufPtr) :
    store readBuf bufPtr bytes p = readBuf p :=
  if_neg fun inside => absurd inside.1 (by omega)

theorem Holds.store {bytes : List UInt8} {m : Nat} (holds : Holds readBuf 0 (bytes.take n))
    (enough : n + m ≤ bytes.length) :
    Holds (store readBuf n ((bytes.drop n).take m)) 0 (bytes.take (n + m)) := by
  intro i less
  rw [length_take] at less
  rw [Nat.zero_add]
  rcases Nat.lt_or_ge i n with before | behind
  · have old := holds i (by rw [length_take]; omega)
    rw [Nat.zero_add] at old
    rw [store_before before, old]
    simp only [getD_eq_getElem?_getD, List.getElem?_take]
    rw [if_pos before, if_pos (by omega)]
  · have inside : n ≤ i ∧ i < n + ((bytes.drop n).take m).length := by
      rw [length_take, length_drop]
      omega
    rw [SafeBoxComm.store, if_pos inside]
    simp only [getD_eq_getElem?_getD, List.getElem?_take, List.getElem?_drop]
    rw [if_pos (by omega), if_pos (by omega), Nat.add_sub_cancel' behind]

theorem Holds.behind {first second : List UInt8} (holds : Holds readBuf 0 (first ++ second)) :
    Holds readBuf first.length second := by
  intro i less
  have here := holds (first.length + i) (by rw [length_append]; omega)
  rw [Nat.zero_add] at here
  rw [here, getD_eq_getElem?_getD, getD_eq_getElem?_getD,
    List.getElem?_append_right (by omega), Nat.add_sub_cancel_left]

/-! ## Looking for the start byte -/

theorem findStart_found {k : Nat} (others : ∀ p, bufPtr ≤ p → p < bufPtr + k → readBuf p ≠ 0xF8)
    (start : readBuf (bufPtr + k) = 0xF8) (inside : k < left) :
    findStart readBuf left bufPtr = bufPtr + k := by
  induction left generalizing bufPtr k with
  | zero => omega
  | succ left ih =>
    cases k with
    | zero => exact if_neg (not_not.mpr start)
    | succ k =>
      rw [findStart, if_pos (others bufPtr (by omega) (by omega)),
        ih (k := k) (fun p low high => others p (by omega) (by omega))
          (by rwa [Nat.add_right_comm]) (by omega)]
      omega

theorem findStart_none (others : ∀ p, bufPtr ≤ p → p < bufPtr + left → readBuf p ≠ 0xF8) :
    findStart readBuf left bufPtr = bufPtr + left := by
  induction left generalizing bufPtr with
  | zero => rfl
  | succ left ih =>
    rw [findStart, if_pos (others bufPtr (by omega) (by omega)),
      ih fun p low high => others p (by omega) (by omega)]
    omega

theorem findStart_start (early : findStart readBuf left bufPtr < bufPtr + left) :
    readBuf (findStart readBuf left bufPtr) = 0xF8 := by
  induction left generalizing bufPtr with
  | zero => exact absurd early (Nat.lt_irrefl _)
  | succ left ih =>
    by_cases start : readBuf bufPtr ≠ 0xF8
    · rw [findStart, if_pos start] at early ⊢
      exact ih (by omega)
    · rw [findStart, if_neg start]
      exact not_not.mp start

/-! ## A frame behind noise -/

/-- A frame comes behind fewer than six bytes that do not start one, fits the buffer, and all
its bytes come in time. -/
structure Received (noise frame : List UInt8) (line : Line) : Prop where
  few : noise.length < 6
  others : ∀ b ∈ noise, b ≠ 0xF8
  sent : noise ++ frame <+: line.bytes
  inTime : ∀ call, noise.length + frame.length ≤ line.arrives call
  fits : noise.length + frame.length ≤ readBufSize

section

variable {noise frame : List UInt8} {line : Line}

theorem com_read_inTime {call n : Nat} (inTime : n ≤ line.arrives call) :
    com_read line call n = line.bytes.take n := by
  rw [com_read, Nat.min_eq_left inTime]

theorem rest_take {line : Line} {n : Nat} (enough : n ≤ line.bytes.length) :
    (line.rest (line.bytes.take n)).bytes = line.bytes.drop n := by
  rw [Line.rest, length_take, Nat.min_eq_left enough]

theorem Received.long (received : Received noise frame line) :
    noise.length + frame.length ≤ line.bytes.length := by
  have length := received.sent.length_le
  rwa [length_append] at length

/-- The second call reads as many bytes as there is noise, also where there is none. -/
theorem Received.secondCall (received : Received noise frame line) (six : 6 ≤ frame.length) :
    (if noise.length ≠ 0 then com_read (line.rest (line.bytes.take 6)) 1 noise.length else []) =
      (line.bytes.drop 6).take noise.length := by
  have long := received.long
  have inTime : noise.length ≤ (line.rest (line.bytes.take 6)).arrives 1 :=
    (Nat.le_add_right ..).trans (received.inTime 1)
  split
  · rw [com_read_inTime inTime, rest_take (by omega)]
  · next none => rw [not_not.mp none, take_zero]

theorem Received.thirdCall (received : Received noise frame line) {len : Nat}
    (size : frame.length = len + 6) :
    com_read ((line.rest (line.bytes.take 6)).rest ((line.bytes.drop 6).take noise.length)) 2 len =
      (line.bytes.drop (6 + noise.length)).take len := by
  have long := received.long
  have enough : 6 ≤ line.bytes.length := by omega
  have rest := rest_take enough
  have inTime : len ≤ ((line.rest (line.bytes.take 6)).rest
      ((line.bytes.drop 6).take noise.length)).arrives 2 := by
    have third := received.inTime 2
    change len ≤ line.arrives 2
    omega
  rw [com_read_inTime inTime, ← rest, rest_take (by rw [rest, length_drop]; omega), rest, drop_drop]

theorem Received.holdsLength (received : Received noise frame line) (six : 6 ≤ frame.length)
    {buffer : Nat → UInt8} (held : Holds buffer 0 (line.bytes.take (6 + noise.length)))
    {i : Nat} (less : i < 6) : buffer (noise.length + i) = frame.getD i 0 := by
  have long := received.long
  obtain ⟨after, bytes⟩ := received.sent
  have here := held (noise.length + i) (by rw [length_take]; omega)
  rw [Nat.zero_add] at here
  rw [here, ← bytes]
  simp only [getD_eq_getElem?_getD, List.getElem?_take, append_assoc]
  rw [if_pos (by omega), List.getElem?_append_right (by omega), Nat.add_sub_cancel_left,
    List.getElem?_append_left (by omega)]

/-- The three calls together read the noise and the frame, and the checksum decides. -/
theorem Received.readData (received : Received noise frame line) {len : Nat}
    (size : frame.length = len + 6)
    (announced : (frame.getD 3 0).toNat * 256 + (frame.getD 4 0).toNat = len)
    {readBuf : Nat → UInt8} (first : Holds readBuf 0 (line.bytes.take 6)) :
    let r := readData readBuf noise.length (line.rest (line.bytes.take 6))
    Holds r.readBuf noise.length frame ∧
      r.answer = if sumTo (fun i => frame.getD (i + 1) 0) (len + 5) = 0
        then .pointer (noise.length + 1) else .null := by
  have long := received.long
  have fits := received.fits
  unfold readBufSize at fits
  have six : 6 ≤ frame.length := by omega
  have secondLength : ((line.bytes.drop 6).take noise.length).length = noise.length := by
    rw [length_take, length_drop]
    omega
  have held := first.store (m := noise.length) (by omega)
  have all := held.store (m := len) (by omega)
  have whole : line.bytes.take (6 + noise.length + len) = noise ++ frame := by
    obtain ⟨after, bytes⟩ := received.sent
    rw [← bytes, show 6 + noise.length + len = (noise ++ frame).length by
      rw [length_append]; omega]
    exact take_left
  rw [whole] at all
  have len_eq : lengthAt (store readBuf 6 ((line.bytes.drop 6).take noise.length))
      noise.length = len := by
    rw [lengthAt, received.holdsLength six held (by omega),
      received.holdsLength six held (by omega), announced]
  have third := received.thirdCall size
  generalize last : store (store readBuf 6 ((line.bytes.drop 6).take noise.length))
    (6 + noise.length) ((line.bytes.drop (6 + noise.length)).take len) = buffer at all
  have holds := all.behind
  have check := calcChksumC2_eq_iff (fun i => buffer (noise.length + i)) (len + 4)
  rw [sumTo_congr (n := len + 4 + 1) (g := fun i => frame.getD (i + 1) 0)
    fun i less => holds (i + 1) (by omega)] at check
  have bound : ¬ len + 5 > 65535 := by omega
  unfold SafeBoxComm.readData
  dsimp only
  rw [received.secondCall six, len_eq, third, Nat.add_comm noise.length 6, last, if_neg bound,
    Nat.add_assoc noise.length len 5]
  exact ⟨holds, if_congr check rfl rfl⟩

theorem Received.safeBoxCommRead (received : Received noise frame line) {len : Nat}
    (size : frame.length = len + 6) (start : frame.getD 0 0 = 0xF8)
    (announced : (frame.getD 3 0).toNat * 256 + (frame.getD 4 0).toNat = len)
    (readBuf : Nat → UInt8) :
    let r := safeBoxCommRead readBuf line
    Holds r.readBuf noise.length frame ∧
      r.answer = if sumTo (fun i => frame.getD (i + 1) 0) (len + 5) = 0
        then .pointer (noise.length + 1) else .null := by
  have few := received.few
  have long := received.long
  have inTime : 6 ≤ line.arrives 0 := by
    have all := received.inTime 0
    omega
  have six : (line.bytes.take 6).length = 6 := by
    rw [length_take]
    omega
  have first : Holds (store readBuf 0 (line.bytes.take 6)) 0 (line.bytes.take 6) := by
    have none : Holds readBuf 0 (line.bytes.take 0) := fun i less => absurd less (by simp)
    have stored := none.store (m := 6) (by omega)
    rwa [Nat.zero_add] at stored
  have head (p : Nat) (less : p < 6) :
      store readBuf 0 (line.bytes.take 6) p = (noise ++ frame).getD p 0 := by
    obtain ⟨after, bytes⟩ := received.sent
    have here := first p (by omega)
    rw [Nat.zero_add] at here
    rw [here, ← bytes]
    simp only [getD_eq_getElem?_getD, List.getElem?_take]
    rw [if_pos less, List.getElem?_append_left (by rw [length_append]; omega)]
  have found : findStart (store readBuf 0 (line.bytes.take 6)) 6 0 = noise.length := by
    refine (findStart_found ?_ ?_ few).trans (Nat.zero_add _)
    · intro p _ less
      rw [head p (by omega), getD_eq_getElem?_getD,
        List.getElem?_append_left (by omega), List.getElem?_eq_getElem (by omega)]
      exact received.others _ (getElem_mem _)
    · rw [Nat.zero_add, head noise.length few, getD_eq_getElem?_getD,
        List.getElem?_append_right (Nat.le_refl _), Nat.sub_self, ← getD_eq_getElem?_getD, start]
  unfold SafeBoxComm.safeBoxCommRead
  dsimp only
  rw [com_read_inTime inTime, if_pos six, found, if_pos few]
  exact received.readData size announced first

end

/-! ## The frames that are written -/

section

variable (dev cmd : UInt8) (data : List UInt8)

/-- A frame without its checksum. -/
def frameBody : List UInt8 := 0xF8 :: dev :: cmd :: (SHORT_TO_B_ENDIAN data.length ++ data)

@[simp] theorem length_frameBody : (frameBody dev cmd data).length = data.length + 5 := by
  simp [frameBody, SHORT_TO_B_ENDIAN]

theorem safeBoxCommWrite_eq : safeBoxCommWrite dev cmd data = frameBody dev cmd data ++
    [calcChksumC2 (fun i => (frameBody dev cmd data).getD i 0) (data.length + 5)] :=
  rfl

@[simp] theorem length_safeBoxCommWrite :
    (safeBoxCommWrite dev cmd data).length = data.length + 6 := by
  rw [safeBoxCommWrite_eq, length_append, length_frameBody]
  rfl

theorem sumTo_safeBoxCommWrite :
    sumTo (fun i => (safeBoxCommWrite dev cmd data).getD (i + 1) 0) (data.length + 5) = 0 := by
  refine (calcChksumC2_eq_iff (fun i => (safeBoxCommWrite dev cmd data).getD i 0)
    (data.length + 4)).mp ?_
  have body : sumTo (fun i => (safeBoxCommWrite dev cmd data).getD (i + 1) 0) (data.length + 4) =
      sumTo (fun i => (frameBody dev cmd data).getD (i + 1) 0) (data.length + 4) := by
    refine sumTo_congr fun i less => ?_
    rw [safeBoxCommWrite_eq, getD_append _ _ _ _ (by rw [length_frameBody]; omega)]
  have last : (safeBoxCommWrite dev cmd data).getD (data.length + 4 + 1) 0 =
      calcChksumC2 (fun i => (frameBody dev cmd data).getD i 0) (data.length + 5) := by
    rw [safeBoxCommWrite_eq, getD_append_right _ _ _ _ (by rw [length_frameBody]),
      length_frameBody, Nat.sub_self]
    rfl
  rw [calcChksumC2_eq, body, last, calcChksumC2_eq]

theorem announced_safeBoxCommWrite (fits : data.length < 65536) :
    ((safeBoxCommWrite dev cmd data).getD 3 0).toNat * 256 +
      ((safeBoxCommWrite dev cmd data).getD 4 0).toNat = data.length := by
  change (UInt8.ofNat (data.length / 256)).toNat * 256 + (UInt8.ofNat data.length).toNat =
    data.length
  rw [UInt8.toNat_ofNat', UInt8.toNat_ofNat']
  omega

theorem payload_safeBoxCommWrite {i : Nat} (inside : i < data.length) :
    (safeBoxCommWrite dev cmd data).getD (i + 5) 0 = data.getD i 0 := by
  change (data ++ [_]).getD i 0 = data.getD i 0
  exact getD_append _ _ _ _ inside

end

theorem sumTo_set {frame : List UInt8} {n i : Nat} {b : UInt8} (size : frame.length = n + 1)
    (inside : i < n) (changed : b ≠ frame.getD (i + 1) 0)
    (zero : sumTo (fun i => frame.getD (i + 1) 0) n = 0) :
    sumTo (fun j => (frame.set (i + 1) b).getD (j + 1) 0) n ≠ 0 := by
  have same : sumTo (fun j => (frame.set (i + 1) b).getD (j + 1) 0) n =
      sumTo (Function.update (fun j => frame.getD (j + 1) 0) i b) n := by
    refine sumTo_congr fun j less => ?_
    rw [getD_eq_getElem?_getD, List.getElem?_set]
    by_cases here : i = j
    · rw [if_pos (by omega), if_pos (by omega), here, update_self]
      rfl
    · rw [if_neg (by omega), update_of_ne (Ne.symm here), getD_eq_getElem?_getD]
  rw [same, sumTo_update _ inside, zero]
  grind

/-! ## What may be stored -/

theorem length_com_read_le (line : Line) (call qty : Nat) :
    (com_read line call qty).length ≤ qty := by
  rw [com_read, length_take]
  omega

theorem lengthAt_store (readBuf : Nat → UInt8) (bufPtr : Nat) (bytes : List UInt8) :
    lengthAt (store readBuf (bufPtr + 6) bytes) bufPtr = lengthAt readBuf bufPtr := by
  rw [lengthAt, lengthAt, store_before (by omega), store_before (by omega)]

/-- Only the data can be stored outside the buffer, and only where their length passes it. -/
theorem stored_outside (readBuf : Nat → UInt8) (line : Line) {place : Nat × Nat}
    (stored : place ∈ (safeBoxCommRead readBuf line).stored)
    (outside : readBufSize < place.1 + place.2) :
    ∃ k < 6, (safeBoxCommRead readBuf line).readBuf k = 0xF8 ∧
      place.1 = k + 6 ∧ place.2 ≤ lengthAt (safeBoxCommRead readBuf line).readBuf k := by
  unfold readBufSize at outside
  have first := length_com_read_le line 0 6
  unfold safeBoxCommRead at stored ⊢
  dsimp only at stored ⊢
  generalize com_read line 0 6 = got at first stored ⊢
  generalize found : findStart (store readBuf 0 got) 6 0 = k at stored ⊢
  have none (only : place ∈ [(0, got.length)]) : False := by
    rw [mem_singleton] at only
    rw [only] at outside
    dsimp only at outside
    omega
  split at stored
  · next six =>
    split at stored
    · next early =>
      have start : store readBuf 0 got k = 0xF8 := by
        rw [← found]
        exact findStart_start (by rw [found]; omega)
      rw [if_pos six, if_pos early]
      unfold readData at stored ⊢
      dsimp only at stored ⊢
      have second : (if k ≠ 0 then com_read (line.rest got) 1 k else []).length ≤ k := by
        split
        · exact length_com_read_le ..
        · exact Nat.zero_le _
      generalize (if k ≠ 0 then com_read (line.rest got) 1 k else []) = noise at second stored ⊢
      have third := length_com_read_le ((line.rest got).rest noise) 2
        (lengthAt (store (store readBuf 0 got) 6 noise) k)
      generalize com_read ((line.rest got).rest noise) 2
        (lengthAt (store (store readBuf 0 got) 6 noise) k) = bytes at third stored ⊢
      simp only [mem_cons, not_mem_nil, or_false] at stored
      rcases stored with here | here | here
      · rw [here] at outside
        dsimp only at outside
        omega
      · rw [here] at outside
        dsimp only at outside
        omega
      · refine ⟨k, early, ?_, by rw [here], ?_⟩
        · rw [store_before (by omega), store_before early, start]
        · rw [lengthAt_store, here]
          exact third
    · exact (none stored).elim
  · exact (none stored).elim

/-! ## Frames -/

theorem safeBoxCommRead_noStart {line : Line} (none : ∀ b ∈ line.bytes.take 6, b ≠ 0xF8)
    (readBuf : Nat → UInt8) : (safeBoxCommRead readBuf line).answer = .null := by
  have first : com_read line 0 6 <+: line.bytes.take 6 := by
    rw [com_read, ← Nat.min_comm, ← take_take]
    exact take_prefix ..
  unfold safeBoxCommRead
  dsimp only
  generalize com_read line 0 6 = got at first ⊢
  split
  · next six =>
    have others (p : Nat) (_ : 0 ≤ p) (less : p < 0 + 6) : store readBuf 0 got p ≠ 0xF8 := by
      rw [store, if_pos ⟨Nat.zero_le _, by omega⟩, Nat.sub_zero, getD_eq_getElem _ _ (by omega)]
      exact none _ (first.subset (getElem_mem _))
    rw [findStart_none others, if_neg (by omega)]
  · rfl

/-- A frame behind noise is returned as it was written.  Another byte in it is noticed, but for
the length, and for the start byte where a byte behind it looks like one.  And nothing is
stored outside the buffer unless the length that came passes it. -/
theorem read_framed :
    (∀ (dev cmd : UInt8) (data noise : List UInt8) (line : Line) (readBuf : Nat → UInt8),
      Received noise (safeBoxCommWrite dev cmd data) line →
        let r := safeBoxCommRead readBuf line
        r.answer = .pointer (noise.length + 1) ∧ r.readBuf (noise.length + 1) = dev ∧
          r.readBuf (noise.length + 2) = cmd ∧
          lengthAt r.readBuf noise.length = data.length ∧
          ∀ i < data.length, r.readBuf (noise.length + 5 + i) = data.getD i 0) ∧
    (∀ (dev cmd : UInt8) (data noise : List UInt8) (line : Line) (readBuf : Nat → UInt8)
      (i : Nat) (b : UInt8), i < data.length + 6 → i ≠ 0 → i ≠ 3 → i ≠ 4 →
      b ≠ (safeBoxCommWrite dev cmd data).getD i 0 →
      Received noise ((safeBoxCommWrite dev cmd data).set i b) line →
        (safeBoxCommRead readBuf line).answer = .null) ∧
    (∀ (dev cmd : UInt8) (data noise : List UInt8) (line : Line) (readBuf : Nat → UInt8)
      (b : UInt8), Received noise ((safeBoxCommWrite dev cmd data).set 0 b) line →
      (∀ c ∈ (noise ++ (safeBoxCommWrite dev cmd data).set 0 b).take 6, c ≠ 0xF8) →
        (safeBoxCommRead readBuf line).answer = .null) ∧
    ∀ (readBuf : Nat → UInt8) (line : Line),
      ∀ place ∈ (safeBoxCommRead readBuf line).stored, readBufSize < place.1 + place.2 →
        ∃ k < 6, (safeBoxCommRead readBuf line).readBuf k = 0xF8 ∧
          place.1 = k + 6 ∧ place.2 ≤ lengthAt (safeBoxCommRead readBuf line).readBuf k := by
  refine ⟨?_, ?_, ?_, fun readBuf line place stored outside =>
    stored_outside readBuf line stored outside⟩
  · intro dev cmd data noise line readBuf received r
    have fits := received.fits
    rw [length_safeBoxCommWrite, readBufSize] at fits
    have announced := announced_safeBoxCommWrite dev cmd data (by omega)
    obtain ⟨holds, answer⟩ := received.safeBoxCommRead (length_safeBoxCommWrite dev cmd data)
      rfl announced readBuf
    rw [if_pos (sumTo_safeBoxCommWrite dev cmd data)] at answer
    have at_frame (i : Nat) (less : i < data.length + 6) :
        r.readBuf (noise.length + i) = (safeBoxCommWrite dev cmd data).getD i 0 :=
      holds i (by rwa [length_safeBoxCommWrite])
    refine ⟨answer, at_frame 1 (by omega), at_frame 2 (by omega), ?_, ?_⟩
    · rw [lengthAt, at_frame 3 (by omega), at_frame 4 (by omega), announced]
    · intro i less
      rw [Nat.add_assoc, Nat.add_comm 5, at_frame (i + 5) (by omega),
        payload_safeBoxCommWrite dev cmd data less]
  · intro dev cmd data noise line readBuf i b inside notStart notHigh notLow changed received
    have fits := received.fits
    rw [length_set, length_safeBoxCommWrite, readBufSize] at fits
    have kept (j : Nat) (other : i ≠ j) : ((safeBoxCommWrite dev cmd data).set i b).getD j 0 =
        (safeBoxCommWrite dev cmd data).getD j 0 := by
      rw [getD_eq_getElem?_getD, List.getElem?_set, if_neg other, ← getD_eq_getElem?_getD]
    have size := length_safeBoxCommWrite dev cmd data
    have sizeSet : ((safeBoxCommWrite dev cmd data).set i b).length = data.length + 6 := by
      rw [length_set, size]
    obtain ⟨_, answer⟩ := received.safeBoxCommRead sizeSet (by rw [kept 0 notStart]; rfl)
      (by rw [kept 3 notHigh, kept 4 notLow, announced_safeBoxCommWrite dev cmd data (by omega)])
      readBuf
    obtain ⟨j, rfl⟩ := Nat.exists_eq_succ_of_ne_zero notStart
    rwa [if_neg (sumTo_set size (by omega) changed (sumTo_safeBoxCommWrite dev cmd data))] at answer
  · intro dev cmd data noise line readBuf b received none
    refine safeBoxCommRead_noStart (fun c among => none c ?_) readBuf
    obtain ⟨after, bytes⟩ := received.sent
    have six : 6 ≤ (noise ++ (safeBoxCommWrite dev cmd data).set 0 b).length := by
      rw [length_append, length_set, length_safeBoxCommWrite]
      omega
    rwa [← bytes, take_append_of_le_length six] at among

/-- A frame behind two other bytes. -/
theorem read_framed_behind :
    Received [0, 0] (safeBoxCommWrite 1 2 [0xF8, 7])
      ⟨[0, 0] ++ safeBoxCommWrite 1 2 [0xF8, 7], fun _ => 270⟩ ∧
    (safeBoxCommRead (fun _ => 0)
      ⟨[0, 0] ++ safeBoxCommWrite 1 2 [0xF8, 7], fun _ => 270⟩).answer = .pointer 3 := by
  have received : Received [0, 0] (safeBoxCommWrite 1 2 [0xF8, 7])
      ⟨[0, 0] ++ safeBoxCommWrite 1 2 [0xF8, 7], fun _ => 270⟩ :=
    { few := by decide
      others := Bytes.forall_mem_of_all rfl
      sent := prefix_refl _
      inTime := fun _ => Nat.le_of_ble_eq_true rfl
      fits := by decide }
  exact ⟨received, (read_framed.1 1 2 [0xF8, 7] [0, 0] _ (fun _ => 0) received).1⟩

/-- A frame of one byte of data whose length becomes zero is taken for one without data. -/
theorem length_unnoticed :
    ¬ ∀ (dev cmd : UInt8) (data noise : List UInt8) (line : Line) (readBuf : Nat → UInt8)
      (i : Nat) (b : UInt8), i < data.length + 6 →
      b ≠ (safeBoxCommWrite dev cmd data).getD i 0 →
      Received noise ((safeBoxCommWrite dev cmd data).set i b) line →
        (safeBoxCommRead readBuf line).answer = .null := by
  intro always
  have received : Received [] ((safeBoxCommWrite 0 0 [0]).set 4 0)
      ⟨(safeBoxCommWrite 0 0 [0]).set 4 0, fun _ => 270⟩ :=
    { few := by decide
      others := fun _ among => absurd among not_mem_nil
      sent := prefix_refl _
      inTime := fun _ => Nat.le_of_ble_eq_true rfl
      fits := by decide }
  have answer := always 0 0 [0] [] _ (fun _ => 0) 4 0 (by decide) (by decide) received
  revert answer
  decide +kernel

end CimArm.SafeBoxComm
