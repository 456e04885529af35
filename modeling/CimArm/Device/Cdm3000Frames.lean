import CimArm.Device.Cdm3000
import CimArm.Lib.Buffer
import Mathlib.Data.UInt

/-!
# The buffers of the coin counter

A command is built in a buffer of 100 bytes and a reply is read into one of 400.  Here a byte
outside its buffer is neither stored nor read: a function that meets one answers nothing.

The length of a reply is three digits, decoded into one byte, so that a reply always fits.  The
rest of the reply is asked for with that length, but how many bytes came is not looked at: what is
missing is taken from the frame that was in the buffer before.

* `cdmCommRead_eq`: the reader stays inside its buffer, whatever comes.
* `cdmCommWrite_eq`: so does the writer, if the data fit.
* `framed_iff`: frames are built and read as they should be, but for a reply that is cut short
  and whose checksum comes out right with the bytes that were in the buffer.
-/

namespace CimArm.Cdm3000.Frames

open SafeBoxComm (sumTo store Holds)

/-! ## Buffers -/

def writeBufSize : Nat := 100
def readBufSize : Nat := 400

section

variable {n : Nat}

/-- Bytes are copied to a place, if they are in the buffer. -/
def copyIn (buf : Vector UInt8 n) (place : Nat) (bytes : List UInt8) : Option (Vector UInt8 n) :=
  if place + bytes.length ≤ n then some (Buffer.copy buf place bytes) else none

/-- The sum of the bytes from 1 on, in seven bits. -/
def calcBCC (data : Vector UInt8 n) (size : Nat) : Option UInt8 :=
  ((List.range' 1 (size - 1)).foldlM (fun sum i => (data[i]?).map (sum + ·)) 0).map (· &&& 0x7F)

/-- `com_read`: bytes that have come are stored, in a room that has to be in the buffer. -/
def comRead (buf : Vector UInt8 n) (place size : Nat) (come : List UInt8) :
    Option (Vector UInt8 n) :=
  if place + size ≤ n then some (Buffer.copy buf place (come.take size)) else none

/-- The digits of the length, from the last one on. -/
def writeLength (writeBuf : Vector UInt8 n) (idx len : Nat) : Option (Vector UInt8 n) :=
  if len = 0 then some writeBuf
  else
    (copyIn writeBuf idx [Decimal.digit (len % 10)]).bind fun writeBuf =>
      writeLength writeBuf (idx - 1) (len / 10)
termination_by len

end

/-- What `cdmCommWrite` leaves in its buffer, and what it sends. -/
def cdmCommWrite (writeBuf : Vector UInt8 writeBufSize) (devId : Int) (cmd : UInt8)
    (data : List UInt8) : Option (Vector UInt8 writeBufSize × List UInt8) := do
  let writeBuf ← copyIn writeBuf 0 [0x02, UInt8.ofInt devId, cmd]
  let writeBuf ← copyIn writeBuf 3 [0x30, 0x30, 0x30]
  let writeBuf ← writeLength writeBuf 5 data.length
  let writeBuf ← copyIn writeBuf 6 data
  let writeBuf ← copyIn writeBuf (6 + data.length) [0x03]
  let bcc ← calcBCC writeBuf (7 + data.length)
  let writeBuf ← copyIn writeBuf (7 + data.length) [bcc]
  return (writeBuf, Buffer.read writeBuf 0 (data.length + 8))

/-- What a call leaves in `readBuf`, how many bytes it received, and whether it returns the
frame. -/
structure Reading : Type where
  readBuf : Vector UInt8 readBufSize
  qty : Nat
  accepted : Bool

/-- `com_read` gives what comes `first`, within the timeout, up to 8 bytes; then what is left of
it and comes `later`, up to the length. -/
def cdmCommRead (readBuf : Vector UInt8 readBufSize) (first later : List UInt8) :
    Option Reading := do
  let readBuf ← comRead readBuf 0 8 first
  let start ← readBuf[0]?
  if 8 ≤ first.length ∧ start = 0x02 then
    let hundreds ← readBuf[3]?
    let tens ← readBuf[4]?
    let units ← readBuf[5]?
    let len := ((hundreds - 0x30) * 100 + (tens - 0x30) * 10 + (units - 0x30)).toNat
    let come := first.drop 8 ++ later
    let readBuf ← comRead readBuf 8 len come
    let bcc ← calcBCC readBuf (len + 7)
    let sent ← readBuf[len + 7]?
    return ⟨readBuf, 8 + (come.take len).length, bcc == sent⟩
  else return ⟨readBuf, (first.take 8).length, false⟩

/-! ## What a buffer holds -/

section

variable {n : Nat}

/-- A buffer as memory. -/
def view (buf : Vector UInt8 n) (i : Nat) : UInt8 := buf[i]?.getD 0

theorem getElem?_eq_view (buf : Vector UInt8 n) {i : Nat} (inside : i < n) :
    buf[i]? = some (view buf i) := by
  rw [view, Vector.getElem?_eq_getElem inside]
  rfl

theorem view_copy (buf : Vector UInt8 n) {place : Nat} {bytes : List UInt8}
    (inside : place + bytes.length ≤ n) :
    view (Buffer.copy buf place bytes) = store (view buf) place bytes := by
  funext i
  rw [store, view]
  by_cases within : i < n
  · rw [Vector.getElem?_eq_getElem within, Option.getD_some, Buffer.copy_getElem]
    split
    · rfl
    · rw [view, Vector.getElem?_eq_getElem within]
      rfl
  · rw [if_neg (by omega), view, Vector.getElem?_eq_none (by omega),
      Vector.getElem?_eq_none (by omega)]

theorem copyIn_eq (buf : Vector UInt8 n) {place : Nat} {bytes : List UInt8}
    (inside : place + bytes.length ≤ n) :
    ∃ buf', copyIn buf place bytes = some buf' ∧ view buf' = store (view buf) place bytes :=
  ⟨_, if_pos inside, view_copy buf inside⟩

theorem comRead_eq (buf : Vector UInt8 n) {place size : Nat} (come : List UInt8)
    (inside : place + size ≤ n) :
    ∃ buf', comRead buf place size come = some buf' ∧
      view buf' = store (view buf) place (come.take size) := by
  refine ⟨_, if_pos inside, view_copy buf ?_⟩
  rw [List.length_take]
  omega

theorem calcBCC_eq (data : Vector UInt8 n) {size : Nat} (inside : size ≤ n) :
    calcBCC data size = some (Cdm3000.calcBCC (view data) size) := by
  have sums (k : Nat) (within : k < n) :
      (List.range' 1 k).foldlM (fun sum i => (data[i]?).map (sum + ·)) 0 =
        some (sumTo (fun i => view data (i + 1)) k) := by
    induction k with
    | zero => rfl
    | succ k ih =>
      rw [List.range'_1_concat, List.foldlM_append, ih (by omega)]
      have byte := getElem?_eq_view data within
      simp [sumTo, Nat.add_comm 1 k, byte]
  rcases Nat.eq_zero_or_pos size with rfl | positive
  · rfl
  · rw [calcBCC, sums (size - 1) (by omega)]
    rfl

end

/-! ## The reader -/

/-- The length that a reply announces. -/
def announced (first : List UInt8) : Nat :=
  ((first.getD 3 0 - 0x30) * 100 + (first.getD 4 0 - 0x30) * 10 + (first.getD 5 0 - 0x30)).toNat

/-- The bytes of a reply that come, up to its length. -/
def body (first later : List UInt8) : List UInt8 := (first.drop 8 ++ later).take (announced first)

theorem announced_lt (first : List UInt8) : announced first < 256 := UInt8.toNat_lt _

theorem store_take {readBuf : Nat → UInt8} {first : List UInt8} {i : Nat} (early : i < 8)
    (come : i < first.length) : store readBuf 0 (first.take 8) i = first.getD i 0 := by
  have inside : 0 ≤ i ∧ i < 0 + (first.take 8).length := by
    rw [List.length_take]
    omega
  rw [store, if_pos inside, List.getD_eq_getElem?_getD, List.getD_eq_getElem?_getD, Nat.sub_zero,
    List.getElem?_take, if_pos early]

/-- The reader stays inside its buffer, and reads as the one that has memory without end. -/
theorem cdmCommRead_eq (readBuf : Vector UInt8 readBufSize) (first later : List UInt8) :
    ∃ reading, cdmCommRead readBuf first later = some reading ∧
      reading.accepted =
        (Cdm3000.cdmCommRead (view readBuf) first (first.drop 8 ++ later)).ok ∧
      view reading.readBuf =
        (Cdm3000.cdmCommRead (view readBuf) first (first.drop 8 ++ later)).readBuf ∧
      (reading.accepted = true → reading.qty = 8 + (body first later).length) := by
  obtain ⟨buf, read, held⟩ := @comRead_eq _ readBuf 0 8 first (by decide)
  have start := getElem?_eq_view buf (i := 0) (by decide)
  rw [cdmCommRead, Cdm3000.cdmCommRead, read]
  dsimp only [bind, Option.bind]
  rw [start]
  dsimp only
  rw [← held]
  by_cases begins : 8 ≤ first.length ∧ view buf 0 = 0x02
  · rw [if_pos begins, if_pos begins]
    have digit (i : Nat) (early : i < 8) : buf[i]? = some (first.getD i 0) := by
      have inside : i < readBufSize := Nat.lt_trans early (by decide)
      rw [getElem?_eq_view buf inside, held, store_take early (by omega)]
    have len : ((view buf 3 - 0x30) * 100 + (view buf 4 - 0x30) * 10 + (view buf 5 - 0x30)).toNat =
        announced first := by
      rw [held, store_take (by decide) (by omega), store_take (by decide) (by omega),
        store_take (by decide) (by omega)]
      rfl
    have short := announced_lt first
    have room : 8 + announced first ≤ readBufSize :=
      Nat.le_trans (Nat.add_le_add_left (Nat.le_of_lt short) 8) (by decide)
    obtain ⟨whole, reads, holds⟩ := comRead_eq buf (first.drop 8 ++ later) room
    have covered : announced first + 7 < readBufSize :=
      Nat.lt_trans (Nat.add_lt_add_right short 7) (by decide)
    rw [digit 3 (by decide), digit 4 (by decide), digit 5 (by decide)]
    dsimp only
    rw [len, ← announced, reads]
    dsimp only
    rw [calcBCC_eq whole (Nat.le_of_lt covered)]
    dsimp only
    rw [getElem?_eq_view whole covered, ← holds]
    exact ⟨_, rfl, rfl, rfl, fun _ => rfl⟩
  · rw [if_neg begins, if_neg begins]
    exact ⟨_, rfl, rfl, rfl, fun accepted => by cases accepted⟩

/-! ## The writer -/

section

variable {n : Nat} {buf : Vector UInt8 n} {front : List UInt8}

theorem holds_store {data : Nat → UInt8} {front old new rest : List UInt8}
    (holds : Holds data 0 (front ++ old ++ rest)) (same : old.length = new.length) :
    Holds (store data front.length new) 0 (front ++ new ++ rest) := by
  intro i less
  have length : (front ++ new ++ rest).length = (front ++ old ++ rest).length := by
    simp only [List.length_append, same]
  have before := holds i (by omega)
  rw [Nat.zero_add] at before ⊢
  rw [List.getD_eq_getElem?_getD] at before ⊢
  rw [store]
  by_cases inside : front.length ≤ i ∧ i < front.length + new.length
  · rw [if_pos inside, List.append_assoc, List.getElem?_append_right inside.1,
      List.getElem?_append_left (by omega), List.getD_eq_getElem?_getD]
  · rw [if_neg inside, before]
    by_cases early : i < front.length
    · rw [List.append_assoc, List.append_assoc, List.getElem?_append_left early,
        List.getElem?_append_left early]
    · rw [List.getElem?_append_right, List.getElem?_append_right, List.length_append,
        List.length_append, same]
      · rw [List.length_append]
        omega
      · rw [List.length_append]
        omega

theorem holds_behind {data : Nat → UInt8} (holds : Holds data 0 front) (bytes : List UInt8) :
    Holds (store data front.length bytes) 0 (front ++ bytes) := by
  intro i less
  rw [List.length_append] at less
  rw [Nat.zero_add, store]
  by_cases early : i < front.length
  · have before := holds i early
    rw [Nat.zero_add] at before
    rw [if_neg (by omega), before, List.getD_eq_getElem?_getD, List.getD_eq_getElem?_getD,
      List.getElem?_append_left early]
  · rw [if_pos (by omega), List.getD_eq_getElem?_getD, List.getD_eq_getElem?_getD,
      List.getElem?_append_right (Nat.not_lt.1 early)]

theorem holds_copyIn (holds : Holds (view buf) 0 front) {place : Nat}
    (behind : front.length = place) {bytes : List UInt8} (room : place + bytes.length ≤ n) :
    ∃ buf', copyIn buf place bytes = some buf' ∧ Holds (view buf') 0 (front ++ bytes) := by
  obtain ⟨buf', copied, held⟩ := copyIn_eq buf room
  refine ⟨buf', copied, ?_⟩
  rw [held, ← behind]
  exact holds_behind holds bytes

theorem holds_writeLength {k len : Nat} {rest : List UInt8} (small : len < 10 ^ k)
    (holds : Holds (view buf) 0 (front ++ Decimal.fixed k 0 ++ rest))
    (room : front.length + k ≤ n) :
    ∃ buf', writeLength buf (front.length + k - 1) len = some buf' ∧
      Holds (view buf') 0 (front ++ Decimal.fixed k len ++ rest) := by
  induction k generalizing buf len rest with
  | zero =>
    obtain rfl : len = 0 := by omega
    rw [writeLength, if_pos rfl]
    exact ⟨buf, rfl, holds⟩
  | succ k ih =>
    by_cases none : len = 0
    · rw [writeLength, if_pos none, none]
      exact ⟨buf, rfl, holds⟩
    · have place : front.length + (k + 1) - 1 = (front ++ Decimal.fixed k 0).length := by
        rw [List.length_append, Decimal.length_fixed]
        omega
      have old : front ++ Decimal.fixed (k + 1) 0 ++ rest =
          (front ++ Decimal.fixed k 0) ++ [Decimal.digit 0] ++ rest := by
        rw [Decimal.fixed]
        simp
      rw [old] at holds
      have inside :
          (front ++ Decimal.fixed k 0).length + [Decimal.digit (len % 10)].length ≤ n := by
        rw [← place, List.length_singleton]
        omega
      obtain ⟨next, copied, held⟩ := copyIn_eq buf inside
      have same : [Decimal.digit 0].length = [Decimal.digit (len % 10)].length := rfl
      have written := holds_store holds same
      rw [← held, List.append_assoc (front ++ _)] at written
      have small : len / 10 < 10 ^ k := by omega
      obtain ⟨buf', digits, done⟩ := ih small written (by omega)
      refine ⟨buf', ?_, ?_⟩
      · rw [writeLength, if_neg none, place, copied]
        dsimp only [Option.bind]
        have step : (front ++ Decimal.fixed k 0).length - 1 = front.length + k - 1 := by
          rw [List.length_append, Decimal.length_fixed]
        rw [step]
        exact digits
      · rw [Decimal.fixed]
        simpa using done

end

theorem read_of_holds {n : Nat} {buf : Vector UInt8 n} {bytes : List UInt8}
    (holds : Holds (view buf) 0 bytes) (place len : Nat) (inside : place + len ≤ bytes.length) :
    Buffer.read buf place len = (bytes.drop place).take len := by
  apply List.ext_getElem?
  intro j
  rw [Buffer.read, List.getElem?_take, List.getElem?_drop]
  by_cases before : j < len
  · have here := holds (place + j) (by omega)
    rw [Nat.zero_add, List.getD_eq_getElem?_getD, List.getElem?_eq_getElem (by omega)] at here
    rw [if_pos before, List.getElem?_map, List.getElem?_range before,
      List.getElem?_eq_getElem (by omega)]
    exact congrArg some here
  · rw [if_neg before, List.getElem?_eq_none]
    simpa using before

theorem cdmCommWrite_eq (writeBuf : Vector UInt8 writeBufSize) (devId : Int) (cmd : UInt8)
    {data : List UInt8} (fits : data.length + 8 ≤ writeBufSize) :
    ∃ buf, cdmCommWrite writeBuf devId cmd data =
      some (buf, Cdm3000.cdmCommWrite (UInt8.ofInt devId) cmd data) := by
  have size : writeBufSize = 100 := rfl
  have empty : Holds (view writeBuf) 0 [] := fun i less => absurd less (Nat.not_lt_zero i)
  obtain ⟨head, length, isHead⟩ : ∃ head : List UInt8, head.length = 3 ∧
      head = [0x02, UInt8.ofInt devId, cmd] := ⟨_, rfl, rfl⟩
  have digits (k : Nat) : (head ++ Decimal.fixed 3 k).length = 6 := by
    rw [List.length_append, Decimal.length_fixed, length]
  have payload : (head ++ Decimal.fixed 3 data.length ++ data).length = 6 + data.length := by
    rw [List.length_append, digits]
  have closed : (head ++ Decimal.fixed 3 data.length ++ data ++ [0x03]).length =
      7 + data.length := by
    rw [List.length_append, payload, List.length_singleton]
    omega
  have ofDigits (k : Nat) : (Decimal.fixed 3 k).length = 3 := Decimal.length_fixed 3 k
  -- each of the copies in turn
  obtain ⟨b1, write1, holds⟩ := @holds_copyIn _ _ _ empty 0 rfl head (by omega)
  obtain ⟨b2, write2, holds⟩ := @holds_copyIn _ _ _ holds 3 length (Decimal.fixed 3 0)
    (by rw [ofDigits]; omega)
  rw [← List.append_nil ([] ++ head ++ _), List.nil_append] at holds
  have small : data.length < 10 ^ 3 := by omega
  obtain ⟨b3, write3, holds⟩ := holds_writeLength small holds (by omega)
  rw [List.append_nil] at holds
  obtain ⟨b4, write4, holds⟩ := @holds_copyIn _ _ _ holds 6 (digits _) data (by omega)
  obtain ⟨b5, write5, filled⟩ := @holds_copyIn _ _ _ holds (6 + data.length) payload [0x03]
    (by rw [List.length_singleton]; omega)
  have sum := @calcBCC_eq _ b5 (7 + data.length) (by omega)
  obtain ⟨b6, write6, holds⟩ := @holds_copyIn _ _ _ filled (7 + data.length) closed
    [Cdm3000.calcBCC (view b5) (7 + data.length)] (by rw [List.length_singleton]; omega)
  refine ⟨b6, ?_⟩
  have whole : head ++ Decimal.fixed 3 data.length ++ data ++ [0x03] =
      frameBody (UInt8.ofInt devId) cmd data := by
    rw [isHead, frameBody]
    simp
  have checked : Cdm3000.calcBCC (view b5) (7 + data.length) =
      Cdm3000.calcBCC (fun i => (frameBody (UInt8.ofInt devId) cmd data).getD i 0)
        (7 + data.length) := by
    apply calcBCC_congr
    intro i less
    rw [← whole, ← filled i (by omega), Nat.zero_add]
  rw [checked, whole, ← Cdm3000.cdmCommWrite_eq] at holds
  have sent := length_cdmCommWrite (UInt8.ofInt devId) cmd data
  have sends := read_of_holds holds 0 (data.length + 8) (by omega)
  rw [List.drop_zero, List.take_of_length_le (by omega)] at sends
  have zeros : [0x30, 0x30, 0x30] = Decimal.fixed 3 0 := rfl
  rw [length] at write3
  rw [cdmCommWrite, ← isHead, zeros]
  simp only [Option.bind_eq_bind, Option.bind_some, write1, write2, write3, write4, write5, sum,
    write6, sends]
  rfl

/-! ## Frames -/

/-- A reply is cut short, and its checksum is right with bytes that were in the buffer. -/
structure Patched (readBuf : Vector UInt8 readBufSize) (first later : List UInt8) : Prop where
  begins : 8 ≤ first.length ∧ first.head? = some 0x02
  short : (first ++ later).length < announced first + 7
  checksum : ((first ++ later).tail.sum +
      (Buffer.read readBuf (first ++ later).length
        (announced first + 7 - (first ++ later).length)).sum) &&& 0x7F =
    view readBuf (announced first + 7)

/-- What writing and reading frames should do. -/
structure Framed (readBuf : Vector UInt8 readBufSize) (first later : List UInt8) : Prop where
  roundTrip : ∀ (writeBuf : Vector UInt8 writeBufSize) (devId : Int) (cmd : UInt8)
    (data : List UInt8), data.length + 8 ≤ writeBufSize →
    ∃ buf frame, cdmCommWrite writeBuf devId cmd data = some (buf, frame) ∧
      ∀ cut ≥ 8, ∃ reading, cdmCommRead readBuf (frame.take cut) (frame.drop cut) = some reading ∧
        reading.accepted = true ∧ Buffer.read reading.readBuf 1 (5 + data.length) =
          UInt8.ofInt devId :: cmd :: (Decimal.fixed 3 data.length ++ data)
  inBounds : (cdmCommRead readBuf first later).isSome = true
  /-- The checksum is that of the bytes in front of it, from 1 on. -/
  received : ∀ reading, cdmCommRead readBuf first later = some reading →
    reading.accepted = true → ∀ i < announced first + 7, i < reading.qty

theorem roundTrip (readBuf : Vector UInt8 readBufSize) (writeBuf : Vector UInt8 writeBufSize)
    (devId : Int) (cmd : UInt8) (data : List UInt8) (fits : data.length + 8 ≤ writeBufSize) :
    ∃ buf frame, cdmCommWrite writeBuf devId cmd data = some (buf, frame) ∧
      ∀ cut ≥ 8, ∃ reading, cdmCommRead readBuf (frame.take cut) (frame.drop cut) = some reading ∧
        reading.accepted = true ∧ Buffer.read reading.readBuf 1 (5 + data.length) =
          UInt8.ofInt devId :: cmd :: (Decimal.fixed 3 data.length ++ data) := by
  have size : writeBufSize = 100 := rfl
  obtain ⟨buf, written⟩ := cdmCommWrite_eq writeBuf devId cmd fits
  have length := length_cdmCommWrite (UInt8.ofInt devId) cmd data
  obtain ⟨accepted, holds⟩ := cdmCommRead_frame (UInt8.ofInt devId) cmd data (view readBuf)
    (by omega)
  generalize frame_eq : Cdm3000.cdmCommWrite (UInt8.ofInt devId) cmd data = frame
    at written length accepted holds
  refine ⟨buf, frame, written, ?_⟩
  intro cut atLeast
  obtain ⟨reading, read, ok, held, -⟩ := cdmCommRead_eq readBuf (frame.take cut) (frame.drop cut)
  have rest : (frame.take cut).drop 8 ++ frame.drop cut = frame.drop 8 := by
    rw [← List.drop_append_of_le_length, List.take_append_drop]
    rw [List.length_take]
    omega
  have same (b : Nat → UInt8) (later : List UInt8) :
      Cdm3000.cdmCommRead b (frame.take cut) later =
        Cdm3000.cdmCommRead b (frame.take 8) later := by
    have front : (frame.take cut).take 8 = (frame.take 8).take 8 := by
      rw [List.take_take, List.take_take, Nat.min_eq_left atLeast, Nat.min_self]
    have enough : 8 ≤ (frame.take cut).length ↔ 8 ≤ (frame.take 8).length := by
      rw [List.length_take, List.length_take]
      omega
    simp only [Cdm3000.cdmCommRead, front, enough]
  rw [rest, same] at ok held
  refine ⟨reading, read, ok.trans accepted, ?_⟩
  rw [← held] at holds
  obtain ⟨ending, pieces⟩ : ∃ ending, frame =
      0x02 :: ((UInt8.ofInt devId :: cmd :: (Decimal.fixed 3 data.length ++ data)) ++ ending) := by
    rw [← frame_eq, Cdm3000.cdmCommWrite_eq]
    generalize Cdm3000.calcBCC _ _ = bcc
    rw [frameBody]
    exact ⟨[0x03, bcc], by simp⟩
  rw [read_of_holds holds 1 (5 + data.length) (by omega), pieces, List.drop_one, List.tail_cons,
    List.take_left']
  rw [List.length_cons, List.length_cons, List.length_append, Decimal.length_fixed]
  omega

theorem sumTo_eq (f : Nat → UInt8) (n : Nat) : sumTo f n = ((List.range n).map f).sum := by
  induction n with
  | zero => rfl
  | succ n ih => rw [sumTo, ih, List.range_succ, List.map_append, List.sum_append]; simp

theorem calcBCC_short (readBuf : Vector UInt8 readBufSize) {come : List UInt8} {size : Nat}
    {data : Nat → UInt8} (holds : Holds data 0 come)
    (old : ∀ i, come.length ≤ i → data i = view readBuf i) (some_ : come ≠ [])
    (short : come.length ≤ size) :
    Cdm3000.calcBCC data size = (come.tail.sum +
      (Buffer.read readBuf come.length (size - come.length)).sum) &&& 0x7F := by
  have bytes : (List.range (size - 1)).map (fun i => data (i + 1)) =
      come.tail ++ Buffer.read readBuf come.length (size - come.length) := by
    have positive := List.length_pos_iff.2 some_
    apply List.ext_getElem?
    intro i
    rw [List.getElem?_map]
    by_cases early : i + 1 < come.length
    · have here := holds (i + 1) early
      rw [Nat.zero_add, List.getD_eq_getElem?_getD, List.getElem?_eq_getElem early] at here
      rw [List.getElem?_range (by omega),
        List.getElem?_append_left (by rw [List.length_tail]; omega), List.getElem?_tail,
        List.getElem?_eq_getElem early]
      exact congrArg some here
    · rw [List.getElem?_append_right (by rw [List.length_tail]; omega), List.length_tail,
        Buffer.read, List.getElem?_map]
      by_cases before : i < size - 1
      · have place : come.length + (i - (come.length - 1)) = i + 1 := by omega
        rw [List.getElem?_range before, List.getElem?_range (by omega)]
        dsimp only [Option.map]
        rw [place, old (i + 1) (by omega)]
        rfl
      · rw [List.getElem?_eq_none (by rw [List.length_range]; omega),
          List.getElem?_eq_none (by rw [List.length_range]; omega)]
        rfl
  rw [Cdm3000.calcBCC, sumTo_eq, bytes, List.sum_append]

theorem ok_iff (data : Nat → UInt8) (first rest : List UInt8) :
    (Cdm3000.cdmCommRead data first rest).ok = true ↔
      (8 ≤ first.length ∧ first.head? = some 0x02) ∧
        let buf := store (store data 0 (first.take 8)) 8 (rest.take (announced first))
        Cdm3000.calcBCC buf (announced first + 7) = buf (announced first + 7) := by
  rw [Cdm3000.cdmCommRead]
  by_cases enough : 8 ≤ first.length
  · have byte (i : Nat) (early : i < 8) : store data 0 (first.take 8) i = first.getD i 0 :=
      store_take early (by omega)
    have head : first.head? = some (first.getD 0 0) := by
      rw [List.head?_eq_getElem?, List.getD_eq_getElem?_getD,
        List.getElem?_eq_getElem (by omega : 0 < first.length)]
      rfl
    have len : ((store data 0 (first.take 8) 3 - 0x30) * 100 +
        (store data 0 (first.take 8) 4 - 0x30) * 10 +
        (store data 0 (first.take 8) 5 - 0x30)).toNat = announced first := by
      rw [byte 3 (by decide), byte 4 (by decide), byte 5 (by decide)]
      rfl
    rw [head, ← byte 0 (by decide)]
    dsimp only
    rw [len]
    by_cases begins : store data 0 (first.take 8) 0 = 0x02
    · rw [if_pos ⟨enough, begins⟩, begins]
      simp [enough]
    · rw [if_neg (fun both => begins both.2)]
      simp [begins]
  · dsimp only
    rw [if_neg (fun both => enough both.1)]
    simp [enough]

theorem checked_short {readBuf : Vector UInt8 readBufSize} {first later : List UInt8}
    (enough : 8 ≤ first.length) (short : (first ++ later).length < announced first + 7) :
    let buf := store (store (view readBuf) 0 (first.take 8)) 8
      ((first.drop 8 ++ later).take (announced first))
    Cdm3000.calcBCC buf (announced first + 7) = ((first ++ later).tail.sum +
        (Buffer.read readBuf (first ++ later).length
          (announced first + 7 - (first ++ later).length)).sum) &&& 0x7F ∧
      buf (announced first + 7) = view readBuf (announced first + 7) := by
  intro buf
  have length : (first.take 8).length = 8 := by
    rw [List.length_take]
    omega
  have whole : first.take 8 ++ (first.drop 8 ++ later) = first ++ later := by
    rw [← List.append_assoc, List.take_append_drop]
  have all : (first.drop 8 ++ later).take (announced first) = first.drop 8 ++ later := by
    apply List.take_of_length_le
    rw [List.length_append, List.length_drop]
    rw [List.length_append] at short
    omega
  have empty : Holds (view readBuf) 0 [] := fun i less => absurd less (Nat.not_lt_zero i)
  have begin : Holds (store (view readBuf) 0 (first.take 8)) 0 (first.take 8) :=
    holds_behind empty (first.take 8)
  have holds : Holds buf 0 (first ++ later) := by
    have behind := holds_behind begin (first.drop 8 ++ later)
    rw [whole, length, ← all] at behind
    exact behind
  have old (i : Nat) (after : (first ++ later).length ≤ i) : buf i = view readBuf i := by
    rw [← whole, List.length_append, length] at after
    have second : ¬(8 ≤ i ∧ i < 8 + (first.drop 8 ++ later).length) := by omega
    have initial : ¬(0 ≤ i ∧ i < 0 + (first.take 8).length) := by omega
    show store _ 8 ((first.drop 8 ++ later).take (announced first)) i = _
    rw [all, store, if_neg second, store, if_neg initial]
  have some_ : first ++ later ≠ [] := by
    intro none
    rw [List.append_eq_nil_iff] at none
    rw [none.1] at enough
    cases enough
  exact ⟨calcBCC_short readBuf holds old some_ (Nat.le_of_lt short), old _ (Nat.le_of_lt short)⟩

theorem ok_short_iff {readBuf : Vector UInt8 readBufSize} {first later : List UInt8}
    (short : (first ++ later).length < announced first + 7) :
    (Cdm3000.cdmCommRead (view readBuf) first (first.drop 8 ++ later)).ok = true ↔
      Patched readBuf first later := by
  rw [ok_iff]
  constructor
  · intro ok
    obtain ⟨begins, checked⟩ := ok
    obtain ⟨sum, last⟩ := @checked_short readBuf first later begins.1 short
    dsimp only at checked
    rw [sum, last] at checked
    exact ⟨begins, short, checked⟩
  · intro patched
    obtain ⟨begins, -, checksum⟩ := patched
    obtain ⟨sum, last⟩ := @checked_short readBuf first later begins.1 short
    refine ⟨begins, ?_⟩
    dsimp only
    rw [sum, last]
    exact checksum

theorem framed_iff (readBuf : Vector UInt8 readBufSize) (first later : List UInt8) :
    Framed readBuf first later ↔ ¬Patched readBuf first later := by
  obtain ⟨reading, read, ok, -, qty⟩ := cdmCommRead_eq readBuf first later
  constructor
  · intro framed patched
    have accepted := ok.trans ((ok_short_iff patched.short).2 patched)
    have received := framed.received reading read accepted
    have short := patched.short
    have enough := patched.begins.1
    have count := qty accepted
    have few : (body first later).length ≤ (first.drop 8 ++ later).length := by
      rw [body, List.length_take]
      exact Nat.min_le_right _ _
    rw [List.length_append, List.length_drop] at few
    rw [List.length_append] at short
    have := received (announced first + 6) (by omega)
    omega
  · intro whole
    refine ⟨roundTrip readBuf, by rw [read]; rfl, ?_⟩
    intro other same accepted i covered
    rw [read] at same
    cases same
    have count := qty accepted
    by_cases short : (first ++ later).length < announced first + 7
    · exact absurd ((ok_short_iff short).1 (ok.symm.trans accepted)) whole
    · have enough := ((ok_iff _ _ _).1 (ok.symm.trans accepted)).1.1
      rw [List.length_append] at short
      rw [body, List.length_take, List.length_append, List.length_drop] at count
      omega

/-- A reply of the counter. -/
def reply : List UInt8 := Cdm3000.cdmCommWrite 1 0x16 [0x30, 0x31, 0x30, 0x30, 0x30]

/-- The reply is in the buffer, and comes again but is cut short after its first 8 bytes. -/
theorem not_framed :
    ¬Framed (Buffer.copy (Vector.replicate readBufSize 0) 0 reply) (reply.take 8) [] := by
  intro framed
  have computed : (cdmCommRead (Buffer.copy (Vector.replicate readBufSize 0) 0 reply)
      (reply.take 8) []).map (fun reading => (reading.accepted, reading.qty)) = some (true, 8) := by
    decide +kernel
  obtain ⟨reading, read, both⟩ := Option.map_eq_some_iff.1 computed
  obtain ⟨accepted, qty⟩ := Prod.mk.inj both
  have received := framed.received reading read accepted 8 (by decide)
  omega

end CimArm.Cdm3000.Frames
