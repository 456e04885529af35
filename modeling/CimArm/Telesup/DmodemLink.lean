import CimArm.Lib.Trace
import CimArm.Telesup.DmodemWrite

/-!
# dmodem: one side writes, the other reads

The two sides over a channel that keeps the order of what it carries, and may lose a
frame or an answer, or corrupt some of its bytes or cut off its end.  The bytes of one
transmission are taken in one step: nothing else moves meanwhile, since a timeout fires only
when nothing is in flight.  A frame of which the reader has a part counts as in flight for
the timers of the writer, which are ten times those between bytes.

Five things break the transport, and all of them end with bytes that were acknowledged and
are not there, or with a repeated frame that is refused for ever: the buffer of the reader
is too small for what one read collects; the number expected is `0`, and the frame before is
repeated; a write begins after one that failed; the bytes of a corrupted frame pass for a
repeated or a whole one; those of a corrupted answer for an acknowledgement.

* `delivered_of_clean`: in every run without these, what the reads return is the beginning of
  what was written, every byte acknowledged has been returned or is in the buffer, and a
  repeated frame is discarded and acknowledged again.
-/

namespace CimArm.Dmodem

open Trace List

/-! ## The channel -/

/-- What becomes of a transmission. -/
inductive Fate : Type
  | lost
  | kept
  | garbled (noise : List UInt8)

/-- A transmission in flight: as it was sent, and its bytes as they arrive. -/
structure Flight : Type where
  sent : List UInt8
  bytes : List UInt8
  deriving DecidableEq

def transmit (fate : Fate) (message : List UInt8) : List Flight :=
  if message = [] then []
  else
    match fate with
    | .lost => []
    | .kept => [⟨message, message⟩]
    | .garbled noise => [⟨message, List.zipWith (· ^^^ ·) message noise⟩]

/-- The two sides and what is between them, with what has been given to `dmodem_write` and
returned by `dmodem_read`. -/
structure Link : Type where
  wrState : WrState
  wr : DMWriteCurrState
  rdState : RdState
  rd : DMReadCurrState
  toReader : List Flight
  toWriter : List Flight
  written : List UInt8
  returned : List UInt8

inductive Op : Type
  | write (buf : List UInt8) (fate : Fate)
  | read (size : Nat)
  /-- The reader takes a transmission. -/
  | receive (fate : Fate)
  /-- The writer takes an answer. -/
  | answer (fate : Fate)
  | rxByteTimeout (fate : Fate)
  | rxUplayerTimeout
  | txFrameTimeout (fate : Fate)
  | txUplayerTimeout

namespace Link

/-- What is left of a transmission. -/
def leftover (f : Flight) (bytes : List UInt8) : List Flight :=
  if bytes = [] then [] else [{ f with bytes := bytes }]

/-- A read that has ended returns as much as it has received. -/
def finishRead (l : Link) : Link :=
  if l.rdState = .exit then
    { l with
      returned := l.returned ++ (rdReadData l.rd.store.sizeReaded l.rd.store).1
      rd := { l.rd with store := (rdReadData l.rd.store.sizeReaded l.rd.store).2 } }
  else l

def readerDone (l : Link) (fate : Fate) (s : RdState × DMReadCurrState) : Link :=
  finishRead { l with
    rdState := s.1, rd := { s.2 with sent := [] }
    toWriter := l.toWriter ++ transmit fate s.2.sent }

def writerDone (l : Link) (fate : Fate) (s : WrState × DMWriteCurrState) : Link :=
  { l with
    wrState := s.1, wr := { s.2 with sent := [] }
    toReader := l.toReader ++ transmit fate s.2.sent }

/-- `dmodem_read`: return what is there if it is enough, or begin to receive. -/
def dmodemRead (conf : DModemConfig) (size : Nat) (l : Link) : Link :=
  if size ≤ l.rd.store.dataCount ∨ l.rd.store.dataCount ≠ 0 ∧ conf.nonblock then
    { l with
      returned := l.returned ++ (rdReadData size l.rd.store).1
      rd := { l.rd with store := (rdReadData size l.rd.store).2, globalError := .noError } }
  else
    { l with
      rdState := .waitSoh
      rd := { l.rd with
        payload := [], retransNo := 0, globalError := .noError
        store := { l.rd.store with sizeReaded := 0, sizeToRead := size } } }

/-- Nothing is in flight. -/
def Quiet (l : Link) : Prop := l.toReader = [] ∧ l.toWriter = []

instance (l : Link) : Decidable l.Quiet := inferInstanceAs (Decidable (_ ∧ _))

/-- The reader is not in the middle of a frame. -/
def Between (l : Link) : Prop := l.rdState = .waitSoh ∨ l.rdState = .exit

instance (l : Link) : Decidable l.Between := inferInstanceAs (Decidable (_ ∨ _))

end Link

section

variable (wconf rconf : DModemConfig)

def step (op : Op) (l : Link) : Link :=
  match op with
  | .write buf fate =>
    if l.wrState = .exit then
      { l with written := l.written ++ buf }.writerDone fate (dmodemWrite wconf buf l.wr)
    else l
  | .read size => if l.rdState = .exit then l.dmodemRead rconf size else l
  | .receive fate =>
    match l.toReader with
    | [] => l
    | f :: rest =>
      if l.rdState = .exit then l
      else
        { l with
          toReader := Link.leftover f (rdFeed rconf f.bytes (l.rdState, l.rd)).2 ++ rest }.readerDone
            fate (rdFeed rconf f.bytes (l.rdState, l.rd)).1
  | .answer fate =>
    match l.toWriter with
    | [] => l
    | a :: rest =>
      if l.wrState = .exit then l
      else
        { l with
          toWriter := Link.leftover a (wrFeed wconf a.bytes (l.wrState, l.wr)).2 ++ rest }.writerDone
            fate (wrFeed wconf a.bytes (l.wrState, l.wr)).1
  | .rxByteTimeout fate =>
    if l.rdState ≠ .exit ∧ l.Quiet then
      l.readerDone fate (rdEngine rconf .rxByteTo (l.rdState, l.rd))
    else l
  | .rxUplayerTimeout =>
    if l.rdState ≠ .exit ∧ l.Quiet then
      l.readerDone .lost (rdEngine rconf .rxUplayerTo (l.rdState, l.rd))
    else l
  | .txFrameTimeout fate =>
    if l.wrState ≠ .exit ∧ l.Quiet ∧ l.Between then
      l.writerDone fate (wrEngine wconf .txFrameTo (l.wrState, l.wr))
    else l
  | .txUplayerTimeout =>
    if l.wrState ≠ .exit ∧ l.Quiet ∧ l.Between then
      l.writerDone .lost (wrEngine wconf .txUplayerTo (l.wrState, l.wr))
    else l

end

/-- Both sides after `dmodem_open`, whatever the buffer holds. -/
def opened (databuf : Nat → UInt8) : Link :=
  { wrState := .exit
    wr :=
      { pdata := [], currFrameDataSize := 0, currSeqno := 1, retransNo := 0
        globalError := .noError, sent := [], acknowledged := [] }
    rdState := .exit
    rd :=
      { store :=
          { nextSeqno := 1, sizeToRead := 0, sizeReaded := 0, databuf := databuf
            lastDataIndex := 0, firstDataIndex := 0, dataCount := 0 }
        payload := [], currSeqno := 1, byteRcv := 0, currPayloadLen := 0
        currPayloadLenComp := 0, checksum := [], retransNo := 0, globalError := .noError
        sent := [] }
    toReader := [], toWriter := [], written := [], returned := [] }

/-! ## What the transport is for -/

section

variable (wconf rconf : DModemConfig)

/-- The reads return the beginning of what was written, and what was acknowledged is
returned or kept. -/
structure Correct (l : Link) : Prop where
  returned : l.returned <+: l.written
  kept : l.wr.acknowledged <+: l.returned ++ l.rd.store.data

/-- The frame whose data the reader has already: it is discarded, and acknowledged when no
more bytes come. -/
def AcknowledgedAgain (l : Link) (op : Op) : Prop :=
  ∀ (fate : Fate) (f : Flight) (rest : List Flight), op = .receive fate → l.rdState ≠ .exit →
    l.toReader = f :: rest → f.bytes = l.wr.frame wconf →
    l.rd.store.nextSeqno = l.wr.currSeqno + 1 →
      (step wconf rconf op l).rd.store = l.rd.store ∧
      (step wconf rconf op l).returned = l.returned ∧
      ∀ later : Fate,
        (step wconf rconf (.rxByteTimeout later) (step wconf rconf op l)).toWriter =
          transmit later ackBytes

/-! ## The cases that break it -/

/-- There is room for a new frame, and the number after a repeated one is not `0`. -/
def CleanFrame (l : Link) : Prop :=
  (l.rd.store.nextSeqno = l.wr.currSeqno →
      l.rd.store.dataCount + (l.wr.frameData wconf).length ≤ DM_MAX_DATA_READ) ∧
    (l.rd.store.nextSeqno = l.wr.currSeqno + 1 → l.rd.store.nextSeqno ≠ 0)

instance (l : Link) : Decidable (CleanFrame wconf l) := inferInstanceAs (Decidable (_ ∧ _))

/-- The bytes of a corrupted frame are taken neither for a repeated frame nor for a whole
one, nor for the end of the transmission. -/
def Detected (r : RdState × DMReadCurrState) (bytes : List UInt8) : Prop :=
  (rdFeed rconf bytes r).1.1 ≠ .discardRetrans ∧ (rdFeed rconf bytes r).1.1 ≠ .exit ∧
    (rdFeed rconf bytes r).1.2.sent = []

instance (r : RdState × DMReadCurrState) (bytes : List UInt8) :
    Decidable (Detected rconf r bytes) :=
  inferInstanceAs (Decidable (_ ∧ _))

def CleanReceive (l : Link) : List Flight → Prop
  | [] => True
  | f :: _ => l.rdState ≠ .exit →
      (f.bytes = f.sent → CleanFrame wconf l) ∧
        (f.bytes ≠ f.sent → Detected rconf (l.rdState, l.rd) f.bytes)

instance (l : Link) : (flights : List Flight) → Decidable (CleanReceive wconf rconf l flights)
  | [] => isTrue trivial
  | _ :: _ => inferInstanceAs (Decidable (_ → _ ∧ _))

/-- A corrupted answer is not an acknowledgement. -/
def CleanAnswer : List Flight → Prop
  | [] => True
  | a :: _ => a.bytes = ackBytes → a.sent = ackBytes

instance : (flights : List Flight) → Decidable (CleanAnswer flights)
  | [] => isTrue trivial
  | _ :: _ => inferInstanceAs (Decidable (_ → _))

/-- A step that meets none of the cases. -/
def Clean (l : Link) : Op → Prop
  | .write _ _ => l.wrState = .exit → l.wr.globalError = .noError
  | .receive _ => CleanReceive wconf rconf l l.toReader
  | .answer _ => CleanAnswer l.toWriter
  | .read _ | .rxByteTimeout _ | .rxUplayerTimeout | .txFrameTimeout _ | .txUplayerTimeout => True

instance (l : Link) : (op : Op) → Decidable (Clean wconf rconf l op)
  | .write _ _ => inferInstanceAs (Decidable (_ → _))
  | .receive _ => inferInstanceAs (Decidable (CleanReceive _ _ _ _))
  | .answer _ => inferInstanceAs (Decidable (CleanAnswer _))
  | .read _ => isTrue trivial
  | .rxByteTimeout _ => isTrue trivial
  | .rxUplayerTimeout => isTrue trivial
  | .txFrameTimeout _ => isTrue trivial
  | .txUplayerTimeout => isTrue trivial

end

/-! ## What both sides agree on -/

section

variable (wconf : DModemConfig)

/-- Everything the reader has received. -/
def Link.received (l : Link) : List UInt8 := l.returned ++ l.rd.store.data

/-- The reader waits for the frame of the writer. -/
structure Pending (l : Link) : Prop where
  number : l.rd.store.nextSeqno = l.wr.currSeqno
  received : l.received = l.wr.acknowledged

/-- The reader has the frame of the writer, which has not seen it acknowledged. -/
structure Delivered (l : Link) : Prop where
  number : l.rd.store.nextSeqno = l.wr.currSeqno + 1
  received : l.received = l.wr.acknowledged ++ l.wr.frameData wconf
  something : l.wr.frameData wconf ≠ []

structure Agree (l : Link) : Prop where
  written : l.written = l.wr.acknowledged ++ l.wr.pdata
  wellFormed : l.rd.store.WellFormed
  delivery : Pending l ∨ Delivered wconf l

/-- What may be in flight; while the reader is in the middle of a frame the writer waits. -/
inductive InFlight (l : Link) : Prop
  | quiet (toReader : l.toReader = []) (toWriter : l.toWriter = [])
      (idle : l.Between ∨ l.wrState = .frameSended)
  | frame (f : Flight) (toReader : l.toReader = [f]) (toWriter : l.toWriter = [])
      (sent : f.sent = l.wr.frame wconf) (between : l.Between) (waits : l.wrState = .frameSended)
  | answer (a : Flight) (toReader : l.toReader = []) (toWriter : l.toWriter = [a])
      (two : a.bytes.length ≤ 2) (between : l.Between) (waits : l.wrState = .frameSended)
      (kind : a.sent = ackBytes ∧ Delivered wconf l ∨ a.sent = nackBytes)

/-- What holds before every step. -/
structure Invariant (l : Link) : Prop where
  agree : Agree wconf l
  done : l.wrState = .exit → l.wr.globalError = .noError → l.wr.pdata = []
  wrSent : l.wr.sent = []
  rdSent : l.rd.sent = []
  size : l.wrState ≠ .exit → l.wr.currFrameDataSize = (l.wr.frameData wconf).length
  waiting : l.wrState = .exit ∨ l.wrState.Waiting
  count : l.rd.store.dataCount = if l.rdState = .exit then 0 else l.rd.store.sizeReaded
  discarding : l.rdState = .discardRetrans → Delivered wconf l
  flight : InFlight wconf l

end

section

variable {wconf rconf : DModemConfig} {l : Link}

theorem frameData_length_le (w : DMWriteCurrState) :
    (w.frameData wconf).length ≤ DM_MAX_DATA_LEN :=
  Nat.le_trans (length_take_le _ _) wconf.bounded

theorem sendFrame_size (w : DMWriteCurrState) :
    (sendFrame wconf w).currFrameDataSize = (w.frameData wconf).length := by
  rw [sendFrame, DMWriteCurrState.frameData, length_take]
  dsimp only
  split <;> omega

theorem transmit_cases (fate : Fate) (message : List UInt8) :
    transmit fate message = [] ∨
      ∃ bytes : List UInt8, transmit fate message = [⟨message, bytes⟩] ∧
        bytes.length ≤ message.length := by
  unfold transmit
  split
  · exact .inl rfl
  · cases fate with
    | lost => exact .inl rfl
    | kept => exact .inr ⟨message, rfl, Nat.le_refl _⟩
    | garbled noise =>
      refine .inr ⟨_, rfl, ?_⟩
      rw [length_zipWith]
      exact Nat.min_le_left _ _

theorem rdFeed_leftover {bytes : List UInt8} {s : RdState × DMReadCurrState}
    (running : (rdFeed rconf bytes s).1.1 ≠ .exit) : (rdFeed rconf bytes s).2 = [] := by
  induction bytes generalizing s with
  | nil => rfl
  | cons b rest ih =>
    have split : rdFeed rconf (b :: rest) s =
        if (rdByte rconf b s).1 = .exit then (rdByte rconf b s, rest)
        else rdFeed rconf rest (rdByte rconf b s) := rfl
    rw [split] at running ⊢
    by_cases ends : (rdByte rconf b s).1 = .exit
    · rw [if_pos ends] at running
      exact absurd ends running
    · rw [if_neg ends] at running ⊢
      exact ih running

variable {l' : Link}

theorem Delivered.congr (delivered : Delivered wconf l)
    (number : l'.rd.store.nextSeqno = l.rd.store.nextSeqno) (received : l'.received = l.received)
    (seqno : l'.wr.currSeqno = l.wr.currSeqno)
    (acknowledged : l'.wr.acknowledged = l.wr.acknowledged) (pdata : l'.wr.pdata = l.wr.pdata) :
    Delivered wconf l' := by
  have frameData : l'.wr.frameData wconf = l.wr.frameData wconf := by
    rw [DMWriteCurrState.frameData, pdata]
    rfl
  refine ⟨?_, ?_, ?_⟩
  · rw [number, seqno]
    exact delivered.number
  · rw [received, acknowledged, frameData]
    exact delivered.received
  · rw [frameData]
    exact delivered.something

theorem Agree.congr (agree : Agree wconf l) (written : l'.written = l.written)
    (wellFormed : l'.rd.store.WellFormed) (number : l'.rd.store.nextSeqno = l.rd.store.nextSeqno)
    (received : l'.received = l.received) (seqno : l'.wr.currSeqno = l.wr.currSeqno)
    (acknowledged : l'.wr.acknowledged = l.wr.acknowledged) (pdata : l'.wr.pdata = l.wr.pdata) :
    Agree wconf l' := by
  refine ⟨?_, wellFormed, ?_⟩
  · rw [written, acknowledged, pdata]
    exact agree.written
  · rcases agree.delivery with pending | delivered
    · refine .inl ⟨?_, ?_⟩
      · rw [number, seqno]
        exact pending.number
      · rw [received, acknowledged]
        exact pending.received
    · exact .inr (delivered.congr number received seqno acknowledged pdata)

/-! ## The writer moves -/

theorem writerDone_sends {w : DMWriteCurrState} (fate : Fate)
    (agree : Agree wconf { l with wr := w }) (wrSent : w.sent = []) (rdSent : l.rd.sent = [])
    (count : l.rd.store.dataCount = if l.rdState = .exit then 0 else l.rd.store.sizeReaded)
    (quiet : l.Quiet) (between : l.Between) :
    Invariant wconf (l.writerDone fate (.frameSended, sendFrame wconf w)) := by
  have sent : (sendFrame wconf w).sent = w.frame wconf := by
    rw [sendFrame]
    dsimp only
    rw [wrSent, nil_append]
  refine
    { agree := ⟨agree.written, agree.wellFormed, ?_⟩
      done := nofun
      wrSent := rfl
      rdSent := rdSent
      size := fun _ => sendFrame_size w
      waiting := .inr (.inl rfl)
      count := count
      discarding := ?_
      flight := ?_ }
  · rcases agree.delivery with pending | delivered
    · exact .inl ⟨pending.number, pending.received⟩
    · exact .inr (delivered.congr rfl rfl rfl rfl rfl)
  · intro discards
    rcases between with soh | exit
    · exact nomatch (soh.symm.trans discards)
    · exact nomatch (exit.symm.trans discards)
  · have toReader : (l.writerDone fate (.frameSended, sendFrame wconf w)).toReader =
        transmit fate (w.frame wconf) := by
      rw [Link.writerDone]
      dsimp only
      rw [quiet.1, sent, nil_append]
    rcases transmit_cases fate (w.frame wconf) with lost | ⟨bytes, arrives, _⟩
    · exact .quiet (toReader.trans lost) quiet.2 (.inl between)
    · exact .frame ⟨_, bytes⟩ (toReader.trans arrives) quiet.2 rfl between rfl

theorem Invariant.unacknowledged (fate : Fate) (agree : Agree wconf l) (wrSent : l.wr.sent = [])
    (rdSent : l.rd.sent = []) (size : l.wr.currFrameDataSize = (l.wr.frameData wconf).length)
    (count : l.rd.store.dataCount = if l.rdState = .exit then 0 else l.rd.store.sizeReaded)
    (quiet : l.Quiet) (between : l.Between) {s : WrState × DMWriteCurrState}
    (outcome : Unacknowledged wconf l.wr s) : Invariant wconf (l.writerDone fate s) := by
  have discarding : l.rdState = .discardRetrans → Delivered wconf l := by
    intro discards
    rcases between with soh | exit
    · exact nomatch (soh.symm.trans discards)
    · exact nomatch (exit.symm.trans discards)
  have none : l.toReader ++ transmit fate l.wr.sent = [] := by
    rw [quiet.1, wrSent]
    rfl
  cases outcome with
  | waits state waiting =>
    exact
      { agree := agree.congr rfl agree.wellFormed rfl rfl rfl rfl rfl
        done := fun exit => by
          rcases waiting with rfl | rfl | rfl <;> exact WrState.noConfusion exit
        wrSent := rfl
        rdSent := rdSent
        size := fun _ => size
        waiting := .inr waiting
        count := count
        discarding := fun discards => (discarding discards).congr rfl rfl rfl rfl rfl
        flight := .quiet none quiet.2 (.inl between) }
  | resends =>
    exact writerDone_sends fate (agree.congr rfl agree.wellFormed rfl rfl rfl rfl rfl) wrSent
      rdSent count quiet between
  | fails error retransNo failed =>
    exact
      { agree := agree.congr rfl agree.wellFormed rfl rfl rfl rfl rfl
        done := fun _ ok => absurd ok failed
        wrSent := rfl
        rdSent := rdSent
        size := fun running => absurd rfl running
        waiting := .inl rfl
        count := count
        discarding := fun discards => (discarding discards).congr rfl rfl rfl rfl rfl
        flight := .quiet none quiet.2 (.inl between) }

/-! ## The reader moves -/

theorem InFlight.congr (flight : InFlight wconf l) (toReader : l'.toReader = l.toReader)
    (toWriter : l'.toWriter = l.toWriter) (rdState : l'.rdState = l.rdState)
    (wrState : l'.wrState = l.wrState) (wr : l'.wr = l.wr)
    (number : l'.rd.store.nextSeqno = l.rd.store.nextSeqno) (received : l'.received = l.received) :
    InFlight wconf l' := by
  have between : l.Between → l'.Between := by
    intro between
    unfold Link.Between
    rw [rdState]
    exact between
  cases flight with
  | quiet read write idle =>
    refine .quiet (toReader.trans read) (toWriter.trans write) ?_
    rcases idle with here | waits
    · exact .inl (between here)
    · exact .inr (wrState.trans waits)
  | frame f read write sent here waits =>
    exact .frame f (toReader.trans read) (toWriter.trans write) (wr ▸ sent) (between here)
      (wrState.trans waits)
  | answer a read write two here waits kind =>
    refine .answer a (toReader.trans read) (toWriter.trans write) two (between here)
      (wrState.trans waits) ?_
    rcases kind with ⟨ack, delivered⟩ | nack
    · exact .inl ⟨ack, delivered.congr number received (congrArg _ wr) (congrArg _ wr)
        (congrArg _ wr)⟩
    · exact .inr nack

theorem Invariant.finishRead (agree : Agree wconf l)
    (done : l.wrState = .exit → l.wr.globalError = .noError → l.wr.pdata = [])
    (wrSent : l.wr.sent = []) (rdSent : l.rd.sent = [])
    (size : l.wrState ≠ .exit → l.wr.currFrameDataSize = (l.wr.frameData wconf).length)
    (waiting : l.wrState = .exit ∨ l.wrState.Waiting)
    (count : l.rd.store.dataCount = l.rd.store.sizeReaded)
    (discarding : l.rdState = .discardRetrans → Delivered wconf l) (flight : InFlight wconf l) :
    Invariant wconf l.finishRead := by
  by_cases exit : l.rdState = .exit
  · rcases rdReadData_data _ agree.wellFormed count with ⟨read, empty, wellFormed, number⟩
    have nothing : (rdReadData l.rd.store.sizeReaded l.rd.store).2.data = [] :=
      eq_nil_of_length_eq_zero ((ReadStore.data_length _).trans empty)
    have finished : l.finishRead =
        { l with
          returned := l.returned ++ (rdReadData l.rd.store.sizeReaded l.rd.store).1
          rd := { l.rd with store := (rdReadData l.rd.store.sizeReaded l.rd.store).2 } } :=
      if_pos exit
    have received : l.finishRead.received = l.received := by
      rw [finished, Link.received, Link.received]
      dsimp only
      rw [nothing, read, append_nil]
    rw [finished] at received ⊢
    exact
      { agree := agree.congr rfl wellFormed number received rfl rfl rfl
        done := done
        wrSent := wrSent
        rdSent := rdSent
        size := size
        waiting := waiting
        count := empty.trans (if_pos exit).symm
        discarding := fun discards => nomatch (exit.symm.trans discards)
        flight := flight.congr rfl rfl rfl rfl rfl number received }
  · have finished : l.finishRead = l := if_neg exit
    rw [finished]
    exact ⟨agree, done, wrSent, rdSent, size, waiting, count.trans (if_neg exit).symm,
      discarding, flight⟩

namespace Invariant

theorem reading (invariant : Invariant wconf l) (running : l.rdState ≠ .exit) :
    l.rd.store.dataCount = l.rd.store.sizeReaded :=
  invariant.count.trans (if_neg running)

variable {after : DMReadCurrState}

theorem readerDone_neutral (invariant : Invariant wconf l) (fate : Fate)
    (running : l.rdState ≠ .exit) (toReader : l.toReader = []) (toWriter : l.toWriter = [])
    {state : RdState} (store : after.store = l.rd.store) (sent : after.sent = [])
    (discards : state = .discardRetrans → Delivered wconf l)
    (idle : (state = .waitSoh ∨ state = .exit) ∨ l.wrState = .frameSended) :
    Invariant wconf (l.readerDone fate (state, after)) := by
  have silent : l.toWriter ++ transmit fate after.sent = [] := by
    rw [toWriter, sent]
    rfl
  have number : after.store.nextSeqno = l.rd.store.nextSeqno := congrArg _ store
  have received : l.returned ++ after.store.data = l.received :=
    congrArg (fun store => l.returned ++ ReadStore.data store) store
  apply Invariant.finishRead
  · exact invariant.agree.congr rfl (store ▸ invariant.agree.wellFormed) number received rfl rfl
      rfl
  · exact invariant.done
  · exact invariant.wrSent
  · rfl
  · exact invariant.size
  · exact invariant.waiting
  · dsimp only
    rw [store]
    exact invariant.reading running
  · exact fun now => (discards now).congr number received rfl rfl rfl
  · exact .quiet toReader silent idle

theorem readerDone_answers (invariant : Invariant wconf l) (fate : Fate)
    (running : l.rdState ≠ .exit) (toReader : l.toReader = []) (toWriter : l.toWriter = [])
    (waits : l.wrState = .frameSended) {answer : List UInt8} (store : after.store = l.rd.store)
    (sent : after.sent = answer) (two : answer.length ≤ 2)
    (kind : answer = ackBytes ∧ Delivered wconf l ∨ answer = nackBytes) :
    Invariant wconf (l.readerDone fate (.waitSoh, after)) := by
  have number : after.store.nextSeqno = l.rd.store.nextSeqno := congrArg _ store
  have received : l.returned ++ after.store.data = l.received :=
    congrArg (fun store => l.returned ++ ReadStore.data store) store
  have answers : l.toWriter ++ transmit fate after.sent = transmit fate answer := by
    rw [toWriter, sent, nil_append]
  apply Invariant.finishRead
  · exact invariant.agree.congr rfl (store ▸ invariant.agree.wellFormed) number received rfl rfl
      rfl
  · exact invariant.done
  · exact invariant.wrSent
  · rfl
  · exact invariant.size
  · exact invariant.waiting
  · dsimp only
    rw [store]
    exact invariant.reading running
  · exact nofun
  · rcases transmit_cases fate answer with lost | ⟨bytes, arrives, short⟩
    · exact .quiet toReader (answers.trans lost) (.inl (.inl rfl))
    · refine .answer ⟨answer, bytes⟩ toReader (answers.trans arrives) (Nat.le_trans short two)
        (.inl rfl) waits ?_
      rcases kind with ⟨ack, delivered⟩ | nack
      · exact .inl ⟨ack, delivered.congr number received rfl rfl rfl⟩
      · exact .inr nack

theorem idle (invariant : Invariant wconf l) (exit : l.wrState = .exit) : l.Quiet ∧ l.Between := by
  cases invariant.flight with
  | quiet read write idle =>
    rcases idle with here | waits
    · exact ⟨⟨read, write⟩, here⟩
    · exact nomatch (exit.symm.trans waits)
  | frame _ _ _ _ _ waits => exact nomatch (exit.symm.trans waits)
  | answer _ _ _ _ _ waits => exact nomatch (exit.symm.trans waits)

/-! ## One step -/

theorem write (invariant : Invariant wconf l) (buf : List UInt8) (fate : Fate)
    (exit : l.wrState = .exit) (ok : l.wr.globalError = .noError) :
    Invariant wconf
      ({ l with written := l.written ++ buf }.writerDone fate (dmodemWrite wconf buf l.wr)) := by
  rcases invariant.idle exit with ⟨quiet, between⟩
  have empty := invariant.done exit ok
  have pending : Pending l := by
    rcases invariant.agree.delivery with pending | delivered
    · exact pending
    · refine absurd ?_ delivered.something
      rw [DMWriteCurrState.frameData, empty, take_nil]
  refine writerDone_sends fate ⟨?_, invariant.agree.wellFormed, .inl ⟨pending.number,
    pending.received⟩⟩ invariant.wrSent invariant.rdSent invariant.count quiet between
  have written := invariant.agree.written
  rw [empty, append_nil] at written
  exact congrArg (· ++ buf) written

theorem read (invariant : Invariant wconf l) (size : Nat) (exit : l.rdState = .exit) :
    Invariant wconf (l.dmodemRead rconf size) := by
  have empty : l.rd.store.dataCount = 0 := invariant.count.trans (if_pos exit)
  unfold Link.dmodemRead
  rw [empty]
  by_cases nothing : size = 0
  · subst nothing
    rw [if_pos (.inl (Nat.le_refl 0))]
    have same : { l with
        returned := l.returned ++ (rdReadData 0 l.rd.store).1
        rd := { l.rd with store := (rdReadData 0 l.rd.store).2, globalError := .noError } } =
          { l with rd := { l.rd with globalError := .noError } } := by
      rw [rdReadData, append_nil]
    rw [same]
    exact
      { agree := invariant.agree.congr rfl invariant.agree.wellFormed rfl rfl rfl rfl rfl
        done := invariant.done
        wrSent := invariant.wrSent
        rdSent := invariant.rdSent
        size := invariant.size
        waiting := invariant.waiting
        count := invariant.count
        discarding := fun discards =>
          (invariant.discarding discards).congr rfl rfl rfl rfl rfl
        flight := invariant.flight.congr rfl rfl rfl rfl rfl rfl rfl }
  · have begins : ¬ (size ≤ 0 ∨ 0 ≠ 0 ∧ rconf.nonblock = true) := by
      rintro (le | both)
      · exact nothing (Nat.le_zero.1 le)
      · exact both.1 rfl
    rw [if_neg begins]
    have flight : InFlight wconf l := invariant.flight
    exact
      { agree := invariant.agree.congr rfl ⟨invariant.agree.wellFormed.first,
          invariant.agree.wellFormed.last⟩ rfl rfl rfl rfl rfl
        done := invariant.done
        wrSent := invariant.wrSent
        rdSent := invariant.rdSent
        size := invariant.size
        waiting := invariant.waiting
        count := empty
        discarding := nofun
        flight := by
          cases flight with
          | quiet read write _ => exact .quiet read write (.inl (.inl rfl))
          | frame f read write sent _ waits => exact .frame f read write sent (.inl rfl) waits
          | answer a read write two _ waits kind =>
            refine .answer a read write two (.inl rfl) waits ?_
            rcases kind with ⟨ack, delivered⟩ | nack
            · exact .inl ⟨ack, delivered.congr rfl rfl rfl rfl rfl⟩
            · exact .inr nack }

theorem receive_expected (invariant : Invariant wconf l) (fate : Fate) (soh : l.rdState = .waitSoh)
    (toWriter : l.toWriter = []) (waits : l.wrState = .frameSended) (pending : Pending l)
    (something : l.wr.frameData wconf ≠ [])
    (room : l.rd.store.dataCount + (l.wr.frameData wconf).length ≤ DM_MAX_DATA_READ)
    {state : RdState} (ends : state = .exit ∨ state = .waitSoh)
    (store : after.store = accepted (l.wr.frameData wconf) l.rd.store)
    (sent : after.sent = l.rd.sent ++ ackBytes) :
    Invariant wconf ({ l with toReader := [] }.readerDone fate (state, after)) := by
  rcases rdWriteData_data (l.wr.frameData wconf) invariant.agree.wellFormed room with
    ⟨data, wellFormed⟩
  have running : l.rdState ≠ .exit := fun exit => nomatch (soh.symm.trans exit)
  have appended : after.store.data = l.rd.store.data ++ l.wr.frameData wconf := by
    rw [store]
    exact data
  have delivered : Delivered wconf { l with
      toReader := [], rdState := state, rd := { after with sent := [] }
      toWriter := l.toWriter ++ transmit fate after.sent } := by
    refine ⟨?_, ?_, something⟩
    · have number : after.store.nextSeqno = l.rd.store.nextSeqno + 1 := congrArg _ store
      exact number.trans (congrArg (· + 1) pending.number)
    · rw [Link.received]
      dsimp only
      rw [appended, ← append_assoc]
      exact congrArg (· ++ l.wr.frameData wconf) pending.received
  have answers : l.toWriter ++ transmit fate after.sent = transmit fate ackBytes := by
    rw [toWriter, sent, invariant.rdSent]
    rfl
  have between : state = .waitSoh ∨ state = .exit := ends.symm
  apply Invariant.finishRead
  · exact ⟨invariant.agree.written, store ▸ ⟨wellFormed.first, wellFormed.last⟩, .inr delivered⟩
  · exact invariant.done
  · exact invariant.wrSent
  · rfl
  · exact invariant.size
  · exact invariant.waiting
  · have count := congrArg List.length appended
    rw [ReadStore.data_length, length_append, ReadStore.data_length] at count
    have readed : after.store.sizeReaded =
        l.rd.store.sizeReaded + (l.wr.frameData wconf).length := congrArg _ store
    dsimp only
    rw [count, readed, invariant.reading running]
  · exact fun _ => delivered
  · rcases transmit_cases fate ackBytes with lost | ⟨bytes, arrives, short⟩
    · exact .quiet rfl (answers.trans lost) (.inl between)
    · exact .answer ⟨ackBytes, bytes⟩ rfl (answers.trans arrives) short between waits
        (.inl ⟨rfl, delivered⟩)

theorem taken (invariant : Invariant wconf l) (soh : l.rdState = .waitSoh)
    (toWriter : l.toWriter = []) (waits : l.wrState = .frameSended) :
    Invariant wconf { l with toReader := [] } :=
  { agree := invariant.agree.congr rfl invariant.agree.wellFormed rfl rfl rfl rfl rfl
    done := invariant.done
    wrSent := invariant.wrSent
    rdSent := invariant.rdSent
    size := invariant.size
    waiting := invariant.waiting
    count := invariant.count
    discarding := fun discards => nomatch (soh.symm.trans discards)
    flight := .quiet rfl toWriter (.inr waits) }

theorem receive_frame (invariant : Invariant wconf l) (fate : Fate) (soh : l.rdState = .waitSoh)
    (toWriter : l.toWriter = []) (waits : l.wrState = .frameSended) (clean : CleanFrame wconf l) :
    Invariant wconf ({ l with
      toReader := Link.leftover ⟨l.wr.frame wconf, l.wr.frame wconf⟩
        (rdFeed rconf (l.wr.frame wconf) (l.rdState, l.rd)).2 ++ [] }.readerDone fate
          (rdFeed rconf (l.wr.frame wconf) (l.rdState, l.rd)).1) := by
  have running : l.rdState ≠ .exit := fun exit => nomatch (soh.symm.trans exit)
  have taken := invariant.taken soh toWriter waits
  rw [soh]
  rcases invariant.agree.delivery with pending | delivered
  · by_cases nothing : l.wr.frameData wconf = []
    · rw [DMWriteCurrState.frame, nothing]
      rcases @rdFeed_empty rconf l.rd DM_CTRL_BYTE_0 DM_CTRL_BYTE_1 _ pending.number.symm with
        ⟨after, fed, store, sent⟩
      rw [fed]
      exact taken.readerDone_neutral fate running rfl toWriter store
        (sent.trans invariant.rdSent) nofun
        (.inr waits)
    · rcases @rdFeed_expected rconf l.rd DM_CTRL_BYTE_0 DM_CTRL_BYTE_1 _ _ pending.number.symm
        nothing (frameData_length_le l.wr) with ⟨state, after, fed, ends, store, sent⟩
      rw [DMWriteCurrState.frame, fed]
      exact invariant.receive_expected fate soh toWriter waits pending nothing
        (clean.1 pending.number) ends store sent
  · have before : l.wr.currSeqno = l.rd.store.nextSeqno - 1 := by
      rw [delivered.number]
      exact (UInt8.add_sub_cancel _ _).symm
    rcases @rdFeed_repeated rconf l.rd DM_CTRL_BYTE_0 DM_CTRL_BYTE_1 _
      (l.wr.frameData wconf) (clean.2 delivered.number) before with ⟨after, fed, store, sent⟩
    rw [DMWriteCurrState.frame, fed]
    exact taken.readerDone_neutral fate running rfl toWriter store (sent.trans invariant.rdSent)
      (fun _ => delivered.congr rfl rfl rfl rfl rfl) (.inr waits)

theorem receive_garbled (invariant : Invariant wconf l) (fate : Fate) (soh : l.rdState = .waitSoh)
    (toWriter : l.toWriter = []) (waits : l.wrState = .frameSended) (f : Flight)
    (detected : Detected rconf (l.rdState, l.rd) f.bytes) :
    Invariant wconf ({ l with
      toReader := Link.leftover f (rdFeed rconf f.bytes (l.rdState, l.rd)).2 ++ [] }.readerDone
        fate (rdFeed rconf f.bytes (l.rdState, l.rd)).1) := by
  have running : l.rdState ≠ .exit := fun exit => nomatch (soh.symm.trans exit)
  have taken := invariant.taken soh toWriter waits
  rcases detected with ⟨notRepeated, running', silent⟩
  rcases rdFeed_neutral rconf l.rd f.bytes l.rdState with ⟨answer, sent, quiet⟩
  have none : answer = [] := by
    rw [silent, invariant.rdSent] at sent
    exact sent.symm
  rw [rdFeed_leftover running']
  exact taken.readerDone_neutral fate running rfl toWriter (quiet none) silent
    (fun discards => absurd discards notRepeated) (.inr waits)

theorem receive (invariant : Invariant wconf l) (fate : Fate)
    (clean : CleanReceive wconf rconf l l.toReader) :
    Invariant wconf (step wconf rconf (.receive fate) l) := by
  unfold step
  by_cases exit : l.rdState = .exit
  · cases l.toReader with
    | nil => exact invariant
    | cons f rest =>
      dsimp only
      rw [if_pos exit]
      exact invariant
  · cases invariant.flight with
    | quiet read _ _ =>
      rw [read]
      exact invariant
    | answer _ read _ _ _ _ _ =>
      rw [read]
      exact invariant
    | frame f read write sent between waits =>
      have soh : l.rdState = .waitSoh := between.resolve_right exit
      rw [read] at clean ⊢
      rcases clean exit with ⟨whole, garbled⟩
      dsimp only
      rw [if_neg exit]
      by_cases same : f.bytes = f.sent
      · have frame : f = ⟨l.wr.frame wconf, l.wr.frame wconf⟩ := by
          cases f with
          | mk fsent bytes =>
            cases same
            cases sent
            rfl
        subst frame
        exact invariant.receive_frame fate soh write waits (whole same)
      · exact invariant.receive_garbled fate soh write waits f (garbled same)

/-- An acknowledgement arrives: the frame that was acknowledged is the one delivered. -/
theorem answer_ack (invariant : Invariant wconf l) (fate : Fate) (toReader : l.toReader = [])
    (between : l.Between) (waits : l.wrState = .frameSended) (delivered : Delivered wconf l) :
    Invariant wconf ({ l with
      toWriter := [] }.writerDone fate (wrFeed wconf ackBytes (l.wrState, l.wr)).1) := by
  have size := invariant.size fun exit => nomatch (waits.symm.trans exit)
  have data : l.wr.pdata.take l.wr.currFrameDataSize = l.wr.frameData wconf := by
    rw [size, DMWriteCurrState.frameData, length_take, ← take_take, take_length]
  have agree : Agree wconf { l with toWriter := [], wr := nextFrame l.wr } := by
    refine ⟨?_, invariant.agree.wellFormed, .inl ⟨delivered.number, ?_⟩⟩
    · rw [nextFrame]
      dsimp only
      rw [append_assoc, take_append_drop]
      exact invariant.agree.written
    · rw [nextFrame]
      dsimp only
      rw [data]
      exact delivered.received
  rw [waits, wrFeed_ack]
  by_cases more : (nextFrame l.wr).pdata ≠ []
  · rw [if_pos more]
    exact @writerDone_sends wconf { l with toWriter := [] } _ fate agree invariant.wrSent
      invariant.rdSent invariant.count ⟨toReader, rfl⟩ between
  · rw [if_neg more]
    have none : l.toReader ++ transmit fate l.wr.sent = [] := by
      rw [toReader, invariant.wrSent]
      rfl
    exact
      { agree := agree.congr rfl agree.wellFormed rfl rfl rfl rfl rfl
        done := fun _ _ => not_not.1 more
        wrSent := rfl
        rdSent := invariant.rdSent
        size := fun running => absurd rfl running
        waiting := .inl rfl
        count := invariant.count
        discarding := fun discards => by
          rcases between with soh | exit
          · exact nomatch (soh.symm.trans discards)
          · exact nomatch (exit.symm.trans discards)
        flight := .quiet none rfl (.inl between) }

theorem answer (invariant : Invariant wconf l) (fate : Fate) (clean : CleanAnswer l.toWriter) :
    Invariant wconf (step wconf rconf (.answer fate) l) := by
  unfold step
  cases invariant.flight with
  | quiet _ write _ =>
    rw [write]
    exact invariant
  | frame _ _ write _ _ _ =>
    rw [write]
    exact invariant
  | answer a read write two between waits kind =>
    have running : l.wrState ≠ .exit := fun exit => nomatch (waits.symm.trans exit)
    rw [write] at clean ⊢
    dsimp only
    rw [if_neg running]
    by_cases ack : a.bytes = ackBytes
    · rcases kind with ⟨_, delivered⟩ | nack
      · rw [ack]
        have rest : (wrFeed wconf ackBytes (l.wrState, l.wr)).2 = [] := by
          rw [waits, wrFeed_ack]
        rw [rest]
        exact invariant.answer_ack fate read between waits delivered
      · exact absurd (nack.symm.trans (clean ack)) (by decide)
    · rcases wrFeed_unacknowledged wconf l.wr two ack with ⟨s, fed, outcome⟩
      rw [waits, fed]
      exact @Invariant.unacknowledged wconf { l with toWriter := [] } fate
        (invariant.agree.congr rfl invariant.agree.wellFormed rfl rfl rfl rfl rfl)
        invariant.wrSent invariant.rdSent (invariant.size running) invariant.count ⟨read, rfl⟩
        between _ outcome

theorem rxByteTimeout (invariant : Invariant wconf l) (fate : Fate) :
    Invariant wconf (step wconf rconf (.rxByteTimeout fate) l) := by
  unfold step
  by_cases fires : l.rdState ≠ .exit ∧ l.Quiet
  · rcases fires with ⟨running, read, write⟩
    dsimp only
    rw [if_pos ⟨running, read, write⟩]
    by_cases soh : l.rdState = .waitSoh
    · rw [soh]
      exact invariant.readerDone_neutral fate running read write rfl invariant.rdSent
        nofun (.inl (.inl rfl))
    · have waits : l.wrState = .frameSended := by
        cases invariant.flight with
        | quiet _ _ idle =>
          rcases idle with between | waits
          · rcases between with here | exit
            · exact absurd here soh
            · exact absurd exit running
          · exact waits
        | frame _ flying _ _ _ _ => exact absurd (read.symm.trans flying) (cons_ne_nil _ _).symm
        | answer _ _ flying _ _ _ _ =>
          exact absurd (write.symm.trans flying) (cons_ne_nil _ _).symm
      rcases rdEngine_rxByteTo rconf l.rd l.rdState with
        ⟨discards, run⟩ | ⟨_, run⟩ | ⟨next, after, run, notRepeated, neutral⟩
      · rw [run]
        refine invariant.readerDone_answers fate running read write waits rfl ?_
          (show ackBytes.length ≤ 2 from Nat.le_refl 2)
          (.inl ⟨rfl, invariant.discarding discards⟩)
        rw [sendAck, invariant.rdSent]
        rfl
      · rw [run]
        refine invariant.readerDone_answers fate running read write waits rfl ?_
          (show nackBytes.length ≤ 2 from Nat.le_refl 2) (.inr rfl)
        rw [sendNack, invariant.rdSent]
        rfl
      · rw [run]
        exact invariant.readerDone_neutral fate running read write neutral.store
          (neutral.sent.trans invariant.rdSent)
          (fun discards => absurd discards notRepeated) (.inr waits)
  · dsimp only
    rw [if_neg fires]
    exact invariant

theorem rxUplayerTimeout (invariant : Invariant wconf l) :
    Invariant wconf (step wconf rconf .rxUplayerTimeout l) := by
  unfold step
  by_cases fires : l.rdState ≠ .exit ∧ l.Quiet
  · rcases fires with ⟨running, read, write⟩
    dsimp only
    rw [if_pos ⟨running, read, write⟩, rdEngine_rxUplayerTo _ _ running]
    exact invariant.readerDone_neutral .lost running read write rfl invariant.rdSent
      nofun (.inl (.inr rfl))
  · dsimp only
    rw [if_neg fires]
    exact invariant

theorem txTimeout (invariant : Invariant wconf l) (fate : Fate) {event : WrEvent}
    (outcome : l.wrState.Waiting →
      Unacknowledged wconf l.wr (wrEngine wconf event (l.wrState, l.wr))) :
    Invariant wconf
      (if l.wrState ≠ .exit ∧ l.Quiet ∧ l.Between then
        l.writerDone fate (wrEngine wconf event (l.wrState, l.wr)) else l) := by
  by_cases fires : l.wrState ≠ .exit ∧ l.Quiet ∧ l.Between
  · rcases fires with ⟨running, quiet, between⟩
    rw [if_pos ⟨running, quiet, between⟩]
    exact Invariant.unacknowledged fate invariant.agree invariant.wrSent invariant.rdSent
      (invariant.size running) invariant.count quiet between
      (outcome (invariant.waiting.resolve_left running))
  · rw [if_neg fires]
    exact invariant

theorem step (invariant : Invariant wconf l) {op : Op} (clean : Clean wconf rconf l op) :
    Invariant wconf (step wconf rconf op l) := by
  cases op with
  | write buf fate =>
    unfold Dmodem.step
    by_cases exit : l.wrState = .exit
    · dsimp only
      rw [if_pos exit]
      exact invariant.write buf fate exit (clean exit)
    · dsimp only
      rw [if_neg exit]
      exact invariant
  | read size =>
    unfold Dmodem.step
    by_cases exit : l.rdState = .exit
    · dsimp only
      rw [if_pos exit]
      exact invariant.read size exit
    · dsimp only
      rw [if_neg exit]
      exact invariant
  | receive fate => exact invariant.receive fate clean
  | answer fate => exact invariant.answer fate clean
  | rxByteTimeout fate => exact invariant.rxByteTimeout fate
  | rxUplayerTimeout => exact invariant.rxUplayerTimeout
  | txFrameTimeout fate => exact invariant.txTimeout fate (wrEngine_txFrameTo wconf l.wr)
  | txUplayerTimeout => exact invariant.txTimeout .lost (wrEngine_txUplayerTo wconf l.wr)

theorem opened (databuf : Nat → UInt8) : Invariant wconf (opened databuf) where
  agree := ⟨rfl, ⟨Nat.zero_lt_succ 1023, rfl⟩, .inl ⟨rfl, rfl⟩⟩
  done := fun _ _ => rfl
  wrSent := rfl
  rdSent := rfl
  size := fun running => absurd rfl running
  waiting := .inl rfl
  count := rfl
  discarding := nofun
  flight := .quiet rfl rfl (.inl (.inr rfl))

/-! ## Runs -/

theorem correct (invariant : Invariant wconf l) : Correct l := by
  have written := invariant.agree.written
  have frameData : l.wr.frameData wconf <+: l.wr.pdata := take_prefix _ _
  rcases invariant.agree.delivery with pending | delivered
  · have received := pending.received
    refine ⟨?_, ?_⟩
    · have before : l.returned <+: l.received := prefix_append _ _
      rw [written]
      exact (received ▸ before).trans (prefix_append _ _)
    · have kept : l.wr.acknowledged <+: l.received := received ▸ prefix_rfl
      exact kept
  · have received := delivered.received
    refine ⟨?_, ?_⟩
    · have before : l.returned <+: l.received := prefix_append _ _
      rw [written]
      exact (received ▸ before).trans ((prefix_append_right_inj _).2 frameData)
    · have kept : l.wr.acknowledged <+: l.received := received ▸ prefix_append _ _
      exact kept

theorem acknowledgedAgain (invariant : Invariant wconf l) {op : Op}
    (clean : Clean wconf rconf l op) : AcknowledgedAgain wconf rconf l op := by
  intro fate f rest receives running flying frame number
  subst receives
  cases invariant.flight with
  | quiet none _ _ => exact absurd (none.symm.trans flying) (cons_ne_nil _ _).symm
  | answer _ none _ _ _ _ _ => exact absurd (none.symm.trans flying) (cons_ne_nil _ _).symm
  | frame g alone write sent between waits =>
    have soh : l.rdState = .waitSoh := between.resolve_right running
    have whole : CleanReceive wconf rconf l (f :: rest) := flying ▸ clean
    rw [alone] at flying
    cases flying
    have unwrapped := ((whole running).1 (frame.trans sent.symm)).2 number
    have before : l.wr.currSeqno = l.rd.store.nextSeqno - 1 := by
      rw [number]
      exact (UInt8.add_sub_cancel _ _).symm
    rcases @rdFeed_repeated rconf l.rd DM_CTRL_BYTE_0 DM_CTRL_BYTE_1 _
      (l.wr.frameData wconf) unwrapped before with ⟨after, fed, store, silent⟩
    have discarded : Dmodem.step wconf rconf (.receive fate) l =
        { l with
          toReader := [], rdState := .discardRetrans, rd := { after with sent := [] } } := by
      unfold Dmodem.step
      rw [alone]
      dsimp only
      rw [if_neg running, frame, soh, DMWriteCurrState.frame, fed, Link.readerDone, silent,
        invariant.rdSent, write]
      rfl
    rw [discarded]
    refine ⟨store, rfl, ?_⟩
    intro later
    unfold Dmodem.step
    dsimp only
    rw [if_pos ⟨nofun, rfl, write⟩]
    exact congrArg (· ++ transmit later ackBytes) write

end Invariant

/-- In a run that meets none of the cases the transport is correct, before every step and
after the last. -/
theorem delivered_of_clean (wconf rconf : DModemConfig) (databuf : Nat → UInt8) (ops : List Op)
    (clean : Always (step wconf rconf) (Clean wconf rconf) ops (opened databuf)) :
    Always (step wconf rconf) (fun l op => Correct l ∧ AcknowledgedAgain wconf rconf l op) ops
      (opened databuf) ∧ Correct (after (step wconf rconf) ops (opened databuf)) := by
  have start : Invariant wconf (opened databuf) := .opened databuf
  refine ⟨?_, ?_⟩
  · exact Always.of_invariant (Invariant wconf)
      (fun invariant meets => ⟨invariant.step meets, invariant.correct,
        invariant.acknowledgedAgain meets⟩) start clean
  · have kept : Invariant wconf (after (step wconf rconf) ops (opened databuf)) :=
      clean.after_of_invariant (Invariant wconf) (fun invariant meets => invariant.step meets)
        start
    exact kept.correct

end

/-- Frames of at most 32 bytes, and reads that wait. -/
def frames32 : DModemConfig := ⟨32, false, DMODEM_MAX_RETIRES_DEF, by decide, by decide⟩

/-- A byte whose acknowledgement is lost; its frame is sent again. -/
def repeatedFrame : List Op :=
  [.write [7] .kept, .read 1, .receive .lost, .txFrameTimeout .kept, .read 1, .receive .lost,
    .rxByteTimeout .kept, .answer .lost]

/-- A byte whose frame has one wrong bit, in the sequence number. -/
def wrongNumber : List Op :=
  [.write [7] (.garbled [0, 0, 0, 1, 0, 0, 0, 0, 0, 0, 0, 0, 0, 0]), .read 1, .receive .lost,
    .rxByteTimeout .kept, .answer .lost]

theorem delivered_of_clean_repeated :
    Always (step frames32 frames32)
        (fun l op => Correct l ∧ AcknowledgedAgain frames32 frames32 l op) repeatedFrame
        (opened fun _ => 0) ∧
      Correct (after (step frames32 frames32) repeatedFrame (opened fun _ => 0)) :=
  delivered_of_clean frames32 frames32 (fun _ => 0) repeatedFrame (by decide)

/-- The first frame has the number 1; with the number 0 it passes for a repeated one, and is
acknowledged and discarded. -/
theorem acknowledged_not_kept :
    ¬ ∀ (wconf rconf : DModemConfig) (databuf : Nat → UInt8) (ops : List Op),
      Correct (after (step wconf rconf) ops (opened databuf)) := by
  intro correct
  have kept := (correct frames32 frames32 (fun _ => 0) wrongNumber).kept
  exact absurd kept (by decide)

end CimArm.Dmodem
