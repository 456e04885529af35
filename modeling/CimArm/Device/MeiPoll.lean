import CimArm.Lib.Trace
import Mathlib.Data.List.Basic
import Mathlib.Tactic.IntervalCases

/-!
# Polling an MEI validator

The driver polls an MEI validator over the EBDS protocol: it sends a frame with its
acknowledge bit, reads one answer, and hands it to the state machine when the answer
carries the same bit, which it then flips (`meiAcceptWriteRead`).  Executing the state
machine may poll again; these polls follow the flip, so a run of the driver is a
sequence of polls, with any commands.

The validator answers a poll with the poll's bit, and repeats its last answer when the
bit repeats.  Frames travel through the board of the safe box, which puts four bytes
before an answer.  A poll or an answer may get lost, and a corrupted answer is any frame
that `jcmRead` rejects.

* `jcmRead_frame`: `jcmRead` returns the content of an intact frame.
* `processesOnce_iff`: every run processes the validator's messages once each and in
  order, if and only if the driver starts with `0` or `1` in `ackVal`.
-/

namespace CimArm.Mei

/-! ## Frames -/

/-- Exclusive or of the bytes from `index` to `n`. -/
def calcChksumXor (data : List UInt8) (n index : Nat) : UInt8 :=
  ((data.drop (index + 1)).take (n - index)).foldl (· ^^^ ·) (data.getD index 0)

/-- Clear the high bit of the bytes up to position `len`. -/
def convertTo7Bit (data : List UInt8) (len : Nat) : List UInt8 :=
  (data.take (len + 1)).map (· &&& 0x7F) ++ data.drop (len + 1)

/-- The frame that `jcmWrite` puts in `sendBuf`; the validator builds its own alike. -/
def jcmWrite (cmd : UInt8) (data : List UInt8) : List UInt8 :=
  let sendBuf := 0x02 :: UInt8.ofNat (5 + data.length) :: cmd :: data ++ [0x03]
  sendBuf ++ [calcChksumXor sendBuf (data.length + 2) 1]

/-- Read one frame of the validator: the memory from its control byte on and the length
of its data.  The frame starts at the fifth byte of what the board sends. -/
def jcmRead (readFrame : List UInt8) : Option (List UInt8 × Int) :=
  let rawData := readFrame.drop 4
  if rawData.getD 0 0 &&& 0x7F = 0x02 then
    let len := (rawData.getD 1 0 &&& 0x7F).toNat
    let readFrame := readFrame.take 4 ++ convertTo7Bit rawData len
    if calcChksumXor (readFrame.drop 4) (len - 3) 1 = readFrame.getD (len + 3) 0 then
      some (readFrame.drop 6, (len : Int) - 5)
    else none
  else none

/-! ## The driver -/

def EVT_CURRENCY : UInt8 := 0x89
def EVT_POLLSTATUS : UInt8 := 0x8A
def EVT_PROCESSBILL : UInt8 := 0x8B
def ID003_COMM_ERROR : UInt8 := 0x4A

/-- The fields of the validator's record that a poll reads or writes. -/
structure JcmBillAcceptData : Type where
  ackVal : UInt8
  commErrQty : UInt8
  errorCause : UInt8
  downloadMode : UInt8

/-- What a poll hands on: an answer, with the position its data start at, to
`processStatus` or to the state machine, or a communication error. -/
inductive Call
  | processStatus (answer : List UInt8) (dataEvPtr : Nat) (cmd : UInt8)
  | executeStateMachine (answer : List UInt8) (dataEvPtr : Nat) (event : UInt8)
  | commError

/-- The answer that a call processes. -/
def Call.answer? : Call → Option (List UInt8)
  | .processStatus answer _ _ => some answer
  | .executeStateMachine answer _ _ => some answer
  | .commError => none

/-- The frame a poll sends: the driver's bit goes into the command byte. -/
def pollFrame (self : JcmBillAcceptData) (cmdHeader : UInt8) (data : List UInt8) : List UInt8 :=
  jcmWrite ((cmdHeader &&& 0xF0) ||| self.ackVal) data

/-- The rest of a poll, from what the board read: `none` where nothing came. -/
def meiAcceptWriteRead (self : JcmBillAcceptData) (cmd : UInt8) (readFrame : Option (List UInt8)) :
    JcmBillAcceptData × List Call :=
  match readFrame.bind jcmRead with
  | some (answer, _) =>
    let msjTypeAnsw := answer.getD 0 0 &&& 0xF0
    if self.ackVal = answer.getD 0 0 &&& 1 then
      let self := { self with ackVal := ~~~self.ackVal &&& 1 }
      let dataEvPtr := if msjTypeAnsw = 0x70 then 2 else 1
      let self := { self with commErrQty := 0 }
      let self :=
        if msjTypeAnsw = 0x50 then
          if cmd = 0x50 then
            { self with downloadMode := (answer.getD (dataEvPtr + 3) 0 &&& 0x02) >>> 1 }
          else { self with downloadMode := 1 }
        else self
      if cmd = EVT_POLLSTATUS ∨ cmd = EVT_PROCESSBILL then
        (self, [.processStatus answer dataEvPtr cmd])
      else (self, [.executeStateMachine answer dataEvPtr cmd])
    else if msjTypeAnsw = 0x50 then ({ self with downloadMode := 1 }, [.commError])
    else (self, [])
  | none =>
    let self := { self with commErrQty := self.commErrQty + 1 }
    if self.commErrQty > 3 then ({ self with errorCause := ID003_COMM_ERROR }, [.commError])
    else (self, [])

/-! ## The validator and the line -/

/-- A message of the validator: the bits of its control byte apart from the acknowledge
bit, and its data, in bytes of seven bits and short enough for the length byte. -/
structure Message : Type where
  control : UInt8
  data : List UInt8
  ack_clear : control &&& 1 = 0
  control_7bit : control &&& 0x7F = control
  data_7bit : ∀ b ∈ data, b &&& 0x7F = b
  fits : data.length ≤ 122

/-- The content that carries a message: the control byte with the bit, the data, and the
frame's last two bytes. -/
def Message.content (m : Message) (bit : UInt8) : List UInt8 :=
  (jcmWrite (m.control ||| bit) m.data).drop 2

/-- The validator: how many messages it has answered with, and the last of them with the
bit of the poll it answered. -/
structure Slave : Type where
  sent : Nat
  last : Option (UInt8 × List UInt8)

/-- Answer a poll: repeat the last answer to the same bit, go on to the next message at a
new one. -/
def Slave.reply (msgs : Nat → Message) (self : Slave) (poll : List UInt8) :
    List UInt8 × Slave :=
  let bit := poll.getD 2 0 &&& 1
  let next := jcmWrite ((msgs self.sent).control ||| bit) (msgs self.sent).data
  match self.last with
  | some (lastBit, answer) =>
    if lastBit = bit then (answer, self) else (next, ⟨self.sent + 1, some (bit, next)⟩)
  | none => (next, ⟨self.sent + 1, some (bit, next)⟩)

/-- What becomes of a poll and its answer on the line.  A poll that arrives corrupted is
not answered, like one that is lost. -/
inductive Line
  | through (board : Vector UInt8 4)
  | pollLost
  | answerLost
  | answerCorrupted (readFrame : List UInt8) (rejected : jcmRead readFrame = none)

/-- A poll the driver makes and what the line does to it. -/
structure Poll : Type where
  cmd : UInt8
  cmdHeader : UInt8
  data : List UInt8
  line : Line

/-- The two parties, and the answers that the driver has processed so far. -/
structure State : Type where
  driver : JcmBillAcceptData
  slave : Slave
  processed : List (List UInt8)

/-- One poll. -/
def exchange (msgs : Nat → Message) (p : Poll) (s : State) : State :=
  let poll := pollFrame s.driver p.cmdHeader p.data
  let (answer, slave) := s.slave.reply msgs poll
  let (slave, readFrame) := match p.line with
    | .through board => (slave, some (board.toList ++ answer))
    | .pollLost => (s.slave, none)
    | .answerLost => (slave, none)
    | .answerCorrupted readFrame _ => (slave, some readFrame)
  let (driver, calls) := meiAcceptWriteRead s.driver p.cmd readFrame
  ⟨driver, slave, s.processed ++ calls.filterMap Call.answer?⟩

/-! ## Reading an intact frame -/

variable {a : UInt8} {data : List UInt8} {bit : UInt8}

theorem xor_7bit {b : UInt8} (ha : a &&& 0x7F = a) (hb : b &&& 0x7F = b) :
    (a ^^^ b) &&& 0x7F = a ^^^ b := by
  have spread : (a ^^^ b) &&& 0x7F = (a &&& 0x7F) ^^^ (b &&& 0x7F) := by
    apply UInt8.toBitVec_inj.1
    ext i _
    simp [Bool.and_xor_distrib_right]
  rw [spread, ha, hb]

theorem or_7bit {b : UInt8} (ha : a &&& 0x7F = a) (hb : b &&& 0x7F = b) :
    (a ||| b) &&& 0x7F = a ||| b := by
  have spread : (a ||| b) &&& 0x7F = (a &&& 0x7F) ||| (b &&& 0x7F) := by
    apply UInt8.toBitVec_inj.1
    ext i _
    simp [Bool.and_or_distrib_right]
  rw [spread, ha, hb]

theorem length_7bit {n : Nat} (fits : n ≤ 122) :
    UInt8.ofNat (5 + n) &&& 0x7F = UInt8.ofNat (5 + n) ∧ (UInt8.ofNat (5 + n)).toNat = 5 + n := by
  have value : (UInt8.ofNat (5 + n)).toNat = 5 + n := by
    rw [UInt8.toNat_ofNat']
    omega
  refine ⟨?_, value⟩
  apply UInt8.toNat_inj.1
  rw [UInt8.toNat_and, value]
  change (5 + n) &&& (2 ^ 7 - 1) = 5 + n
  rw [Nat.and_two_pow_sub_one_eq_mod]
  omega

theorem foldl_xor_7bit {l : List UInt8} (all : ∀ b ∈ l, b &&& 0x7F = b) (ha : a &&& 0x7F = a) :
    l.foldl (· ^^^ ·) a &&& 0x7F = l.foldl (· ^^^ ·) a := by
  induction l generalizing a with
  | nil => exact ha
  | cons b l ih =>
    exact ih (fun c hc => all c (.tail _ hc)) (xor_7bit ha (all b (.head _)))

theorem calcChksumXor_7bit (all : ∀ b ∈ data, b &&& 0x7F = b) (n index : Nat) :
    calcChksumXor data n index &&& 0x7F = calcChksumXor data n index := by
  refine foldl_xor_7bit (fun b hb => all b (List.mem_of_mem_drop (List.mem_of_mem_take hb))) ?_
  rw [List.getD_eq_getElem?_getD]
  cases found : data[index]? with
  | none => rfl
  | some b => exact all b (List.mem_of_getElem? found)

theorem calcChksumXor_append {n : Nat} (inside : n < data.length) (hn : 1 ≤ n) (more : List UInt8) :
    calcChksumXor (data ++ more) n 1 = calcChksumXor data n 1 := by
  have first : (data ++ more).getD 1 0 = data.getD 1 0 := by
    rw [List.getD_eq_getElem?_getD, List.getD_eq_getElem?_getD,
      List.getElem?_append_left (by omega)]
  have rest : ((data ++ more).drop 2).take (n - 1) = (data.drop 2).take (n - 1) := by
    rw [List.drop_append_of_le_length (by omega), List.take_append_of_le_length]
    rw [List.length_drop]
    omega
  rw [calcChksumXor, calcChksumXor, first, rest]

theorem convertTo7Bit_7bit (all : ∀ b ∈ data, b &&& 0x7F = b) (len : Nat) :
    convertTo7Bit data len = data := by
  have same : (data.take (len + 1)).map (· &&& 0x7F) = data.take (len + 1) := by
    conv_rhs => rw [← List.map_id (data.take (len + 1))]
    exact List.map_congr_left fun b hb => all b (List.mem_of_mem_take hb)
  rw [convertTo7Bit, same, List.take_append_drop]

theorem jcmWrite_7bit {cmd : UInt8} (hcmd : cmd &&& 0x7F = cmd) (all : ∀ b ∈ data, b &&& 0x7F = b)
    (fits : data.length ≤ 122) : ∀ b ∈ jcmWrite cmd data, b &&& 0x7F = b := by
  have body : ∀ b ∈ 0x02 :: UInt8.ofNat (5 + data.length) :: cmd :: data ++ [0x03],
      b &&& 0x7F = b := by
    intro b hb
    simp only [List.cons_append, List.mem_cons, List.mem_append, List.not_mem_nil, or_false] at hb
    rcases hb with rfl | rfl | rfl | hb | rfl
    · rfl
    · exact (length_7bit fits).1
    · exact hcmd
    · exact all b hb
    · rfl
  intro b hb
  rcases List.mem_append.1 hb with hb | hb
  · exact body b hb
  · rw [List.mem_singleton.1 hb]
    exact calcChksumXor_7bit body _ _

/-- An intact frame is read back: its bytes from the command on, and its data's length. -/
theorem jcmRead_frame {cmd : UInt8} (hcmd : cmd &&& 0x7F = cmd) (all : ∀ b ∈ data, b &&& 0x7F = b)
    (fits : data.length ≤ 122) (board : Vector UInt8 4) :
    jcmRead (board.toList ++ jcmWrite cmd data) =
      some ((jcmWrite cmd data).drop 2, (data.length : Int)) := by
  have before : board.toList.length = 4 := board.length_toList
  have raw : (board.toList ++ jcmWrite cmd data).drop 4 = jcmWrite cmd data := by
    rw [List.drop_left' before]
  have front : (board.toList ++ jcmWrite cmd data).take 4 = board.toList := by
    rw [List.take_left' before]
  have len : ((jcmWrite cmd data).getD 1 0 &&& 0x7F).toNat = data.length + 5 := by
    have second : (jcmWrite cmd data).getD 1 0 = UInt8.ofNat (5 + data.length) := rfl
    rw [second, (length_7bit fits).1, (length_7bit fits).2, Nat.add_comm]
  have sum : calcChksumXor (jcmWrite cmd data) (data.length + 2) 1 =
      (board.toList ++ jcmWrite cmd data).getD (data.length + 5 + 3) 0 := by
    have last : (board.toList ++ jcmWrite cmd data)[data.length + 5 + 3]? =
        some (calcChksumXor (0x02 :: UInt8.ofNat (5 + data.length) :: cmd :: data ++ [0x03])
          (data.length + 2) 1) := by
      rw [List.getElem?_append_right (by omega), before, jcmWrite]
      rw [List.getElem?_append_right (by simp)]
      simp
    rw [List.getD_eq_getElem?_getD, last, jcmWrite]
    exact calcChksumXor_append (by simp) (by omega) _
  have skip : (board.toList ++ jcmWrite cmd data).drop 6 = (jcmWrite cmd data).drop 2 := by
    rw [List.drop_append, List.drop_eq_nil_of_le (by omega), before]
    rfl
  have start : (jcmWrite cmd data).getD 0 0 &&& 0x7F = 0x02 := by
    change (0x02 : UInt8) &&& 0x7F = 0x02
    decide
  rw [jcmRead]
  simp only [raw, front, len, convertTo7Bit_7bit (jcmWrite_7bit hcmd all fits), skip]
  rw [if_pos start, if_pos (by simpa using sum)]
  simp

/-! ## The driver's bit -/

/-- The driver's next bit. -/
def flip (bit : UInt8) : UInt8 := ~~~bit &&& 1

/-- The bit of the `n`th message when the first is `bit`. -/
def bitAt (bit : UInt8) : Nat → UInt8
  | 0 => bit
  | n + 1 => flip (bitAt bit n)

theorem and_one_eq (a : UInt8) : a &&& 1 = 0 ∨ a &&& 1 = 1 := by
  have value : (a &&& 1).toNat = a.toNat % 2 := by
    rw [UInt8.toNat_and]
    exact Nat.and_one_is_mod a.toNat
  rcases Nat.mod_two_eq_zero_or_one a.toNat with even | odd
  · exact .inl (UInt8.toNat_inj.1 (value.trans even))
  · exact .inr (UInt8.toNat_inj.1 (value.trans odd))

theorem bitAt_eq (hbit : bit = 0 ∨ bit = 1) (n : Nat) : bitAt bit n = 0 ∨ bitAt bit n = 1 := by
  cases n with
  | zero => exact hbit
  | succ n => exact and_one_eq _

theorem bitAt_succ_ne (hbit : bit = 0 ∨ bit = 1) (n : Nat) : bitAt bit n ≠ bitAt bit (n + 1) := by
  rw [bitAt]
  rcases bitAt_eq hbit n with h | h <;> rw [h] <;> decide

/-- The acknowledge bit of a command byte is the last bit of what was merged into it. -/
theorem ack_of_or {head : UInt8} (clear : head &&& 1 = 0) (bit : UInt8) :
    (head ||| bit) &&& 1 = bit &&& 1 := by
  have spread : (head ||| bit) &&& 1 = (head &&& 1) ||| (bit &&& 1) := by
    apply UInt8.toBitVec_inj.1
    ext i _
    simp [Bool.and_or_distrib_right]
  rw [spread, clear, UInt8.zero_or]

theorem ack_of_bit (hbit : bit = 0 ∨ bit = 1) : bit &&& 1 = bit := by
  rcases hbit with rfl | rfl <;> decide

theorem pollFrame_ack (self : JcmBillAcceptData) (cmdHeader : UInt8) (data : List UInt8) :
    (pollFrame self cmdHeader data).getD 2 0 &&& 1 = self.ackVal &&& 1 := by
  have clear : cmdHeader &&& 0xF0 &&& 1 = 0 := by
    have bits : (0xF0 : UInt8) &&& 1 = 0 := by decide
    rw [UInt8.and_assoc, bits, UInt8.and_zero]
  exact ack_of_or clear self.ackVal

/-! ## One poll -/

variable (msgs : Nat → Message)

variable {readFrame : Option (List UInt8)} {bit : UInt8} {n : Nat} {s : State}

theorem meiAcceptWriteRead_none (self : JcmBillAcceptData) (cmd : UInt8)
    (nothing : readFrame.bind jcmRead = none) :
    (meiAcceptWriteRead self cmd readFrame).1.ackVal = self.ackVal ∧
      (meiAcceptWriteRead self cmd readFrame).2.filterMap Call.answer? = [] := by
  simp only [meiAcceptWriteRead, nothing]
  split_ifs <;> exact ⟨rfl, rfl⟩

theorem meiAcceptWriteRead_match {self : JcmBillAcceptData} (cmd : UInt8) {answer : List UInt8}
    {len : Int} (read : readFrame.bind jcmRead = some (answer, len))
    (ack : self.ackVal = answer.getD 0 0 &&& 1) :
    (meiAcceptWriteRead self cmd readFrame).1.ackVal = flip self.ackVal ∧
      (meiAcceptWriteRead self cmd readFrame).2.filterMap Call.answer? = [answer] := by
  simp only [meiAcceptWriteRead, read, if_pos ack]
  split_ifs <;> exact ⟨rfl, rfl⟩

theorem meiAcceptWriteRead_mismatch {self : JcmBillAcceptData} (cmd : UInt8) {answer : List UInt8}
    {len : Int} (read : readFrame.bind jcmRead = some (answer, len))
    (ack : self.ackVal ≠ answer.getD 0 0 &&& 1) :
    (meiAcceptWriteRead self cmd readFrame).2.filterMap Call.answer? = [] := by
  simp only [meiAcceptWriteRead, read, if_neg ack]
  split_ifs <;> rfl

/-- The frame of message `n`, when the first is sent with `bit`. -/
def frameAt (bit : UInt8) (n : Nat) : List UInt8 :=
  jcmWrite ((msgs n).control ||| bitAt bit n) (msgs n).data

/-- The validator after sending `n` messages, the first with `bit`. -/
def slaveAfter (bit : UInt8) : Nat → Slave
  | 0 => ⟨0, none⟩
  | n + 1 => ⟨n + 1, some (bitAt bit n, frameAt msgs bit n)⟩

theorem jcmRead_frameAt (hbit : bit = 0 ∨ bit = 1) (n : Nat) (board : Vector UInt8 4) :
    jcmRead (board.toList ++ frameAt msgs bit n) =
      some ((msgs n).content (bitAt bit n), ((msgs n).data.length : Int)) := by
  have bit_7bit : bitAt bit n &&& 0x7F = bitAt bit n := by
    rcases bitAt_eq hbit n with h | h <;> rw [h] <;> decide
  exact jcmRead_frame (or_7bit (msgs n).control_7bit bit_7bit) (msgs n).data_7bit (msgs n).fits board

theorem content_ack (hbit : bit = 0 ∨ bit = 1) (n : Nat) :
    ((msgs n).content (bitAt bit n)).getD 0 0 &&& 1 = bitAt bit n :=
  (ack_of_or (msgs n).ack_clear _).trans (ack_of_bit (bitAt_eq hbit n))

/-- Polled with the bit of message `n`, the validator that has sent `n` messages or that
one too answers with message `n`. -/
theorem reply_slaveAfter (hbit : bit = 0 ∨ bit = 1) {sent : Nat} (hsent : sent = n ∨ sent = n + 1)
    {poll : List UInt8} (ack : poll.getD 2 0 &&& 1 = bitAt bit n) :
    (slaveAfter msgs bit sent).reply msgs poll = (frameAt msgs bit n, slaveAfter msgs bit (n + 1)) := by
  rcases hsent with rfl | rfl
  · cases sent with
    | zero =>
      simp only [slaveAfter, Slave.reply, ack]
      rfl
    | succ k =>
      simp only [slaveAfter, Slave.reply, ack]
      rw [if_neg (bitAt_succ_ne hbit k)]
      rfl
  · simp only [slaveAfter, Slave.reply, ack, if_true]

/-- The parties after processing `n` messages: the driver waits for message `n`, which
the validator may have sent already. -/
structure Linked (bit : UInt8) (n : Nat) (s : State) : Prop where
  ack : s.driver.ackVal = bitAt bit n
  processed : s.processed = (List.range n).map fun k => (msgs k).content (bitAt bit k)
  slave : ∃ sent, (sent = n ∨ sent = n + 1) ∧ s.slave = slaveAfter msgs bit sent

theorem Linked.through (hbit : bit = 0 ∨ bit = 1) (linked : Linked msgs bit n s) {p : Poll}
    {board : Vector UInt8 4} (line : p.line = .through board) :
    Linked msgs bit (n + 1) (exchange msgs p s) ∧ (exchange msgs p s).slave.sent = n + 1 := by
  rcases linked.slave with ⟨sent, hsent, slave⟩
  have poll : (pollFrame s.driver p.cmdHeader p.data).getD 2 0 &&& 1 = bitAt bit n := by
    rw [pollFrame_ack, linked.ack, ack_of_bit (bitAt_eq hbit n)]
  have answered := reply_slaveAfter msgs hbit hsent poll
  have read : (some (board.toList ++ frameAt msgs bit n)).bind jcmRead =
      some ((msgs n).content (bitAt bit n), ((msgs n).data.length : Int)) :=
    jcmRead_frameAt msgs hbit n board
  have matched : s.driver.ackVal = ((msgs n).content (bitAt bit n)).getD 0 0 &&& 1 := by
    rw [content_ack msgs hbit, linked.ack]
  rcases meiAcceptWriteRead_match p.cmd read matched with ⟨ack, calls⟩
  have result : exchange msgs p s =
      ⟨(meiAcceptWriteRead s.driver p.cmd (some (board.toList ++ frameAt msgs bit n))).1,
        slaveAfter msgs bit (n + 1), s.processed ++ [(msgs n).content (bitAt bit n)]⟩ := by
    simp only [exchange, line, slave, answered, calls]
  rw [result]
  refine ⟨⟨?_, ?_, n + 1, .inl rfl, rfl⟩, rfl⟩
  · change _ = flip (bitAt bit n)
    rw [← linked.ack]
    exact ack
  · change s.processed ++ _ = _
    rw [List.range_succ, List.map_append, linked.processed]
    rfl

theorem Linked.fault (hbit : bit = 0 ∨ bit = 1) (linked : Linked msgs bit n s) {p : Poll}
    (line : ∀ board, p.line ≠ .through board) : Linked msgs bit n (exchange msgs p s) := by
  rcases linked.slave with ⟨sent, hsent, slave⟩
  have poll : (pollFrame s.driver p.cmdHeader p.data).getD 2 0 &&& 1 = bitAt bit n := by
    rw [pollFrame_ack, linked.ack, ack_of_bit (bitAt_eq hbit n)]
  have answered := reply_slaveAfter msgs hbit hsent poll
  have unread {readFrame : Option (List UInt8)} (nothing : readFrame.bind jcmRead = none)
      {sent : Nat} (hsent : sent = n ∨ sent = n + 1) :
      Linked msgs bit n ⟨(meiAcceptWriteRead s.driver p.cmd readFrame).1, slaveAfter msgs bit sent,
        s.processed ++ (meiAcceptWriteRead s.driver p.cmd readFrame).2.filterMap Call.answer?⟩ := by
    rcases meiAcceptWriteRead_none s.driver p.cmd nothing with ⟨ack, calls⟩
    refine ⟨ack.trans linked.ack, ?_, sent, hsent, rfl⟩
    rw [calls, List.append_nil]
    exact linked.processed
  cases hline : p.line with
  | through board => exact absurd hline (line board)
  | pollLost =>
    simp only [exchange, hline, slave]
    exact unread rfl hsent
  | answerLost =>
    simp only [exchange, hline, slave, answered]
    exact unread rfl (.inr rfl)
  | answerCorrupted readFrame rejected =>
    simp only [exchange, hline, slave, answered]
    exact @unread (some readFrame) rejected _ (.inr rfl)

/-! ## Runs -/

/-- Every run that starts with this driver and a validator that has sent nothing yet
processes the messages once each and in order: after it the driver has processed the
first so many messages, the validator is at most one ahead, and a poll whose answer
comes back processes the next message and leaves none behind. -/
def ProcessesOnce (driver : JcmBillAcceptData) : Prop :=
  ∀ (msgs : Nat → Message) (polls : List Poll),
    let s := Trace.after (exchange msgs) polls ⟨driver, ⟨0, none⟩, []⟩
    s.processed = ((List.range s.processed.length).map fun k =>
        (msgs k).content (bitAt driver.ackVal k)) ∧
      (s.slave.sent = s.processed.length ∨ s.slave.sent = s.processed.length + 1) ∧
      ∀ (p : Poll) (board : Vector UInt8 4), p.line = .through board →
        (exchange msgs p s).processed.length = s.processed.length + 1 ∧
          (exchange msgs p s).slave.sent = s.processed.length + 1

theorem Linked.exchange (hbit : bit = 0 ∨ bit = 1) (s : State) (p : Poll)
    (linked : ∃ n, Linked msgs bit n s) : ∃ n, Linked msgs bit n (exchange msgs p s) := by
  rcases linked with ⟨n, linked⟩
  cases line : p.line with
  | through board => exact ⟨n + 1, (linked.through msgs hbit line).1⟩
  | pollLost => exact ⟨n, linked.fault msgs hbit fun _ => by simp [line]⟩
  | answerLost => exact ⟨n, linked.fault msgs hbit fun _ => by simp [line]⟩
  | answerCorrupted readFrame rejected =>
    exact ⟨n, linked.fault msgs hbit fun _ => by simp [line]⟩

theorem Linked.length (linked : Linked msgs bit n s) : s.processed.length = n := by
  rw [linked.processed, List.length_map, List.length_range]

theorem processesOnce_of_bit {driver : JcmBillAcceptData}
    (hbit : driver.ackVal = 0 ∨ driver.ackVal = 1) : ProcessesOnce driver := by
  intro msgs polls s
  have start : Linked msgs driver.ackVal 0 ⟨driver, ⟨0, none⟩, []⟩ := ⟨rfl, rfl, 0, .inl rfl, rfl⟩
  rcases Trace.after_of_invariant _ (Linked.exchange msgs hbit) polls ⟨0, start⟩ with ⟨n, linked⟩
  change Linked msgs driver.ackVal n s at linked
  rw [linked.length]
  refine ⟨linked.processed, ?_, ?_⟩
  · rcases linked.slave with ⟨sent, hsent, slave⟩
    rw [slave]
    rcases hsent with rfl | rfl
    · cases sent <;> exact .inl rfl
    · exact .inr rfl
  · intro p board line
    rcases linked.through msgs hbit line with ⟨next, sent⟩
    exact ⟨next.length, sent⟩

theorem not_processesOnce {driver : JcmBillAcceptData}
    (hbit : ¬ (driver.ackVal = 0 ∨ driver.ackVal = 1)) : ¬ ProcessesOnce driver := by
  intro once
  let msg : Message := ⟨0x20, [], by decide, by decide, by simp, by simp⟩
  let poll : Poll := ⟨EVT_POLLSTATUS, 0x10, [], .through (Vector.replicate 4 0)⟩
  let bit := (pollFrame driver 0x10 []).getD 2 0 &&& 1
  have is_bit : bit = 0 ∨ bit = 1 := and_one_eq _
  have read : (some ((Vector.replicate 4 0).toList ++ jcmWrite (0x20 ||| bit) [])).bind jcmRead =
      some ((jcmWrite (0x20 ||| bit) []).drop 2, (0 : Int)) := by
    have bit_7bit : bit &&& 0x7F = bit := by
      rcases is_bit with h | h <;> rw [h] <;> decide
    exact jcmRead_frame (or_7bit msg.control_7bit bit_7bit) msg.data_7bit msg.fits _
  have answer_ack : ((jcmWrite (0x20 ||| bit) []).drop 2).getD 0 0 &&& 1 = bit :=
    (ack_of_or msg.ack_clear _).trans (ack_of_bit is_bit)
  have other : driver.ackVal ≠ ((jcmWrite (0x20 ||| bit) []).drop 2).getD 0 0 &&& 1 := by
    rw [answer_ack]
    intro same
    exact hbit (same ▸ is_bit)
  have none_processed : (exchange (fun _ => msg) poll ⟨driver, ⟨0, none⟩, []⟩).processed = [] :=
    meiAcceptWriteRead_mismatch EVT_POLLSTATUS read other
  have processed := ((once (fun _ => msg) []).2.2 poll _ rfl).1
  change (exchange (fun _ => msg) poll ⟨driver, ⟨0, none⟩, []⟩).processed.length = 1 at processed
  rw [none_processed] at processed
  exact absurd processed (by decide)

/-- The driver processes every message once and in order if and only if it starts with a
bit in `ackVal`. -/
theorem processesOnce_iff (driver : JcmBillAcceptData) :
    ProcessesOnce driver ↔ driver.ackVal = 0 ∨ driver.ackVal = 1 :=
  ⟨fun once => by_contra fun hbit => not_processesOnce hbit once, processesOnce_of_bit⟩

/-- A driver whose record was allocated with `2` in `ackVal`. -/
theorem not_processesOnce_two : ¬ ∀ driver, ProcessesOnce driver :=
  fun always => not_processesOnce (by decide) (always ⟨2, 0, 0, 0⟩)

end CimArm.Mei
