import CimArm.Telesup.DmodemRead

/-!
# dmodem: writing

The side of the transport that sends.  A buffer is cut into frames; each is sent, and sent
again after a negative acknowledgement, an answer that breaks off, or a timeout, until it is
acknowledged or the retries of the write are used up.  An acknowledged frame moves the
pointer to the data and counts the sequence number on; a write that fails leaves both.
-/

namespace CimArm.Dmodem

inductive WrState : Type
  | exit
  | start
  | frameSended
  | ctrlMoreFrames
  | ctrlRetrans
  | ackRcv
  | nackRcv
  deriving DecidableEq

inductive WrEvent : Type
  | sendFrame
  | ack
  | ackComp
  | nack
  | nackComp
  | unByte
  | txFrameTo
  | txUplayerTo
  | moreFrames
  | noMoreFrames
  | moreRetrans
  | noMoreRetrans
  | frameSendedErr
  deriving DecidableEq

/-- The state of the writer; `pdata` is what remains from the pointer on, `sent` what it has
given to `send_buf`, and `acknowledged` the data of the frames acknowledged so far. -/
structure DMWriteCurrState : Type where
  pdata : List UInt8
  currFrameDataSize : Nat
  currSeqno : UInt8
  retransNo : Nat
  globalError : DmodemError
  sent : List UInt8
  acknowledged : List UInt8

abbrev WrHandler : Type := DMWriteCurrState → Option WrEvent × DMWriteCurrState

def wrNone : WrHandler := fun w => (none, w)

/-- The data of the frame that is sent. -/
def DMWriteCurrState.frameData (conf : DModemConfig) (w : DMWriteCurrState) : List UInt8 :=
  w.pdata.take conf.maxDataSize

def DMWriteCurrState.frame (conf : DModemConfig) (w : DMWriteCurrState) : List UInt8 :=
  makeDmframe DM_CTRL_BYTE_0 DM_CTRL_BYTE_1 w.currSeqno (w.frameData conf)

def sendFrame (conf : DModemConfig) (w : DMWriteCurrState) : DMWriteCurrState :=
  { w with
    currFrameDataSize :=
      if w.pdata.length ≤ conf.maxDataSize then w.pdata.length else conf.maxDataSize
    sent := w.sent ++ w.frame conf }

/-- `wr_send_frame`, with what `send_buf` answers. -/
def wrSendFrame (conf : DModemConfig) (sendBuf : Bool) : WrHandler := fun w =>
  if sendBuf then (none, sendFrame conf w)
  else (some .frameSendedErr, { sendFrame conf w with sent := w.sent, globalError := .fatal })

/-- The frame is acknowledged: on to what follows it. -/
def nextFrame (w : DMWriteCurrState) : DMWriteCurrState :=
  { w with
    pdata := w.pdata.drop w.currFrameDataSize
    currSeqno := w.currSeqno + 1
    acknowledged := w.acknowledged ++ w.pdata.take w.currFrameDataSize }

def wrPrepareNextFrame : WrHandler := fun w =>
  (if (nextFrame w).pdata ≠ [] then some .moreFrames else some .noMoreFrames, nextFrame w)

def wrPrepareRetrans (conf : DModemConfig) : WrHandler := fun w =>
  (if (w.retransNo + 1 : Int) < conf.maxRetries then some .moreRetrans else some .noMoreRetrans,
    { w with retransNo := w.retransNo + 1 })

def wrExit (error : DmodemError) : WrHandler := fun w => (none, { w with globalError := error })

def wrExitOk : WrHandler := wrExit .noError

def wrExitTxuplayerto : WrHandler := wrExit .txUplayerTo

def wrExitRetrans : WrHandler := wrExit .maxRetries

def wrExitFrameError : WrHandler := wrExit .fatal

def wrTransitions (conf : DModemConfig) (sendBuf : Bool) :
    List (ProtoTransition WrState WrEvent DMWriteCurrState) := [
  ⟨.start, .sendFrame, .frameSended, wrSendFrame conf sendBuf⟩,
  ⟨.frameSended, .ack, .ackRcv, wrNone⟩,
  ⟨.frameSended, .txFrameTo, .ctrlRetrans, wrPrepareRetrans conf⟩,
  ⟨.frameSended, .txUplayerTo, .exit, wrExitTxuplayerto⟩,
  ⟨.frameSended, .nack, .nackRcv, wrNone⟩,
  ⟨.frameSended, .unByte, .frameSended, wrNone⟩,
  ⟨.frameSended, .frameSendedErr, .exit, wrExitFrameError⟩,
  ⟨.ctrlMoreFrames, .moreFrames, .frameSended, wrSendFrame conf sendBuf⟩,
  ⟨.ctrlMoreFrames, .noMoreFrames, .exit, wrExitOk⟩,
  ⟨.ctrlMoreFrames, .txUplayerTo, .exit, wrExitTxuplayerto⟩,
  ⟨.ackRcv, .ackComp, .ctrlMoreFrames, wrPrepareNextFrame⟩,
  ⟨.ackRcv, .unByte, .ctrlRetrans, wrPrepareRetrans conf⟩,
  ⟨.ackRcv, .txFrameTo, .ctrlRetrans, wrPrepareRetrans conf⟩,
  ⟨.ackRcv, .txUplayerTo, .exit, wrExitTxuplayerto⟩,
  ⟨.nackRcv, .nackComp, .ctrlRetrans, wrPrepareRetrans conf⟩,
  ⟨.nackRcv, .unByte, .frameSended, wrNone⟩,
  ⟨.nackRcv, .txFrameTo, .ctrlRetrans, wrPrepareRetrans conf⟩,
  ⟨.nackRcv, .txUplayerTo, .exit, wrExitTxuplayerto⟩,
  ⟨.ctrlRetrans, .moreRetrans, .frameSended, wrSendFrame conf sendBuf⟩,
  ⟨.ctrlRetrans, .noMoreRetrans, .exit, wrExitRetrans⟩,
  ⟨.ctrlRetrans, .txUplayerTo, .exit, wrExitTxuplayerto⟩]

/-- The event of a byte. -/
def wrEventOf (b : UInt8) : WrEvent :=
  if b = DM_ACK then .ack
  else if b = DM_ACK_COMP then .ackComp
  else if b = DM_NACK then .nack
  else if b = DM_NACK_COMP then .nackComp
  else .unByte

theorem wrEventOf_cases (b : UInt8) :
    wrEventOf b = .ack ∨ wrEventOf b = .ackComp ∨ wrEventOf b = .nack ∨ wrEventOf b = .nackComp ∨
      wrEventOf b = .unByte := by
  unfold wrEventOf
  split_ifs <;> simp

/-- The engine over the table, as long as `send_buf` does not fail. -/
def wrEngine (conf : DModemConfig) (event : WrEvent) (s : WrState × DMWriteCurrState) :
    WrState × DMWriteCurrState :=
  protoEngine (wrTransitions conf true) .exit 4 event s

/-- A byte comes in. -/
def wrByte (conf : DModemConfig) (b : UInt8) (s : WrState × DMWriteCurrState) :
    WrState × DMWriteCurrState :=
  wrEngine conf (wrEventOf b) s

/-- The bytes of an answer. -/
def wrFeed (conf : DModemConfig) (bytes : List UInt8) (s : WrState × DMWriteCurrState) :
    (WrState × DMWriteCurrState) × List UInt8 :=
  feed (wrByte conf) .exit bytes s

/-- `dmodem_write` begins: the first frame is sent. -/
def dmodemWrite (conf : DModemConfig) (buf : List UInt8) (w : DMWriteCurrState) :
    WrState × DMWriteCurrState :=
  (.frameSended, sendFrame conf { w with pdata := buf, retransNo := 0, globalError := .noError })

/-! ## What an answer does -/

/-- The states of a writer that waits for an answer. -/
def WrState.Waiting (state : WrState) : Prop :=
  state = .frameSended ∨ state = .ackRcv ∨ state = .nackRcv

/-- What becomes of a frame that is not acknowledged: the writer waits on, sends it again,
or gives up. -/
inductive Unacknowledged (conf : DModemConfig) (w : DMWriteCurrState) :
    WrState × DMWriteCurrState → Prop
  | waits (state : WrState) (waiting : state.Waiting) : Unacknowledged conf w (state, w)
  | resends : Unacknowledged conf w
      (.frameSended, sendFrame conf { w with retransNo := w.retransNo + 1 })
  | fails (error : DmodemError) (retransNo : Nat) (failed : error ≠ .noError) :
      Unacknowledged conf w (.exit, { w with retransNo := retransNo, globalError := error })

section

variable (conf : DModemConfig) (w : DMWriteCurrState)

variable {state : WrState}

theorem ctrlRetrans_unacknowledged {event : WrEvent}
    (found : dmGetTransition (wrTransitions conf true) state event =
      some ⟨state, event, .ctrlRetrans, wrPrepareRetrans conf⟩) :
    Unacknowledged conf w (wrEngine conf event (state, w)) := by
  unfold wrEngine
  by_cases more : (w.retransNo + 1 : Int) < conf.maxRetries
  · have again : (wrPrepareRetrans conf w).1 = some .moreRetrans := if_pos more
    rw [protoEngine_event 3 found WrState.noConfusion again]
    exact .resends
  · have ends : (wrPrepareRetrans conf w).1 = some .noMoreRetrans := if_neg more
    rw [protoEngine_event 3 found WrState.noConfusion ends]
    exact .fails .maxRetries _ nofun

theorem wrEngine_txFrameTo (waiting : state.Waiting) :
    Unacknowledged conf w (wrEngine conf .txFrameTo (state, w)) := by
  rcases waiting with rfl | rfl | rfl
  · exact ctrlRetrans_unacknowledged conf w rfl
  · exact ctrlRetrans_unacknowledged conf w rfl
  · exact ctrlRetrans_unacknowledged conf w rfl

theorem wrEngine_txUplayerTo (waiting : state.Waiting) :
    Unacknowledged conf w (wrEngine conf .txUplayerTo (state, w)) := by
  rcases waiting with rfl | rfl | rfl
  · exact .fails .txUplayerTo _ nofun
  · exact .fails .txUplayerTo _ nofun
  · exact .fails .txUplayerTo _ nofun

theorem wrFeed_cons {b : UInt8} {s : WrState × DMWriteCurrState} {after : DMWriteCurrState}
    (received : wrByte conf b s = (state, after)) (running : state ≠ .exit) (rest : List UInt8) :
    wrFeed conf (b :: rest) s = wrFeed conf rest (state, after) :=
  feed_cons received running rest

theorem wrFeed_last (b : UInt8) (s : WrState × DMWriteCurrState) :
    wrFeed conf [b] s = (wrByte conf b s, []) := by
  unfold wrFeed feed
  split <;> rfl

theorem wrByte_first (b : UInt8) :
    ∃ state : WrState, wrByte conf b (.frameSended, w) = (state, w) ∧
      state.Waiting ∧ (state = .ackRcv → b = DM_ACK) := by
  by_cases ack : b = DM_ACK
  · exact ⟨.ackRcv, by rw [ack]; rfl, .inr (.inl rfl), fun _ => ack⟩
  · by_cases nack : b = DM_NACK
    · exact ⟨.nackRcv, by rw [nack]; rfl, .inr (.inr rfl), nofun⟩
    · refine ⟨.frameSended, ?_, .inl rfl, nofun⟩
      unfold wrByte wrEventOf
      rw [if_neg ack, if_neg nack]
      by_cases ackComp : b = DM_ACK_COMP
      · rw [if_pos ackComp]
        rfl
      · by_cases nackComp : b = DM_NACK_COMP
        · rw [if_neg ackComp, if_pos nackComp]
          rfl
        · rw [if_neg ackComp, if_neg nackComp]
          rfl

theorem wrByte_second (waiting : state.Waiting) (b : UInt8)
    (notAck : state = .ackRcv → b ≠ DM_ACK_COMP) :
    Unacknowledged conf w (wrByte conf b (state, w)) := by
  unfold wrByte
  rcases waiting with rfl | rfl | rfl
  · rcases wrByte_first conf w b with ⟨state, run, waits, _⟩
    change Unacknowledged conf w (wrByte conf b (.frameSended, w))
    rw [run]
    exact .waits state waits
  · have comp : wrEventOf b ≠ .ackComp := by
      intro is
      unfold wrEventOf at is
      split_ifs at is with ack comp
      exact notAck rfl comp
    rcases wrEventOf_cases b with e | e | e | e | e
    · rw [e]; exact .waits _ (.inr (.inl rfl))
    · exact absurd e comp
    · rw [e]; exact .waits _ (.inr (.inl rfl))
    · rw [e]; exact .waits _ (.inr (.inl rfl))
    · rw [e]; exact ctrlRetrans_unacknowledged conf w rfl
  · rcases wrEventOf_cases b with e | e | e | e | e
    · rw [e]; exact .waits _ (.inr (.inr rfl))
    · rw [e]; exact .waits _ (.inr (.inr rfl))
    · rw [e]; exact .waits _ (.inr (.inr rfl))
    · rw [e]; exact ctrlRetrans_unacknowledged conf w rfl
    · rw [e]; exact .waits _ (.inl rfl)

theorem wrFeed_unacknowledged {bytes : List UInt8} (two : bytes.length ≤ 2)
    (notAck : bytes ≠ ackBytes) :
    ∃ after, wrFeed conf bytes (.frameSended, w) = (after, []) ∧ Unacknowledged conf w after := by
  cases bytes with
  | nil => exact ⟨_, rfl, .waits _ (.inl rfl)⟩
  | cons a rest =>
    rcases wrByte_first conf w a with ⟨state, run, waiting, ack⟩
    have running : state ≠ .exit := by
      rcases waiting with rfl | rfl | rfl <;> exact nofun
    rw [wrFeed_cons conf run running]
    cases rest with
    | nil => exact ⟨_, rfl, .waits _ waiting⟩
    | cons b rest =>
      have empty : rest = [] := by
        rw [List.length_cons, List.length_cons] at two
        exact List.eq_nil_of_length_eq_zero (by omega)
      subst empty
      refine ⟨_, wrFeed_last conf b _, wrByte_second conf w waiting b ?_⟩
      rintro is rfl
      exact notAck (by rw [ack is]; rfl)

theorem wrFeed_ack :
    wrFeed conf ackBytes (.frameSended, w) =
      (if (nextFrame w).pdata ≠ [] then (.frameSended, sendFrame conf (nextFrame w))
        else (.exit, { nextFrame w with globalError := .noError }), []) := by
  have run : wrByte conf DM_ACK_COMP (.ackRcv, w) =
      if (nextFrame w).pdata ≠ [] then (.frameSended, sendFrame conf (nextFrame w))
        else (.exit, { nextFrame w with globalError := .noError }) := by
    change protoEngine (wrTransitions conf true) .exit (3 + 1) .ackComp (.ackRcv, w) = _
    have row : dmGetTransition (wrTransitions conf true) .ackRcv .ackComp =
        some ⟨.ackRcv, .ackComp, .ctrlMoreFrames, wrPrepareNextFrame⟩ := rfl
    by_cases more : (nextFrame w).pdata ≠ []
    · have follows : (wrPrepareNextFrame w).1 = some .moreFrames := if_pos more
      rw [protoEngine_event 3 row WrState.noConfusion follows, if_pos more]
      rfl
    · have follows : (wrPrepareNextFrame w).1 = some .noMoreFrames := if_neg more
      rw [protoEngine_event 3 row WrState.noConfusion follows, if_neg more]
      rfl
  have first : wrByte conf DM_ACK (.frameSended, w) = (.ackRcv, w) := rfl
  rw [ackBytes, wrFeed_cons conf first nofun, wrFeed_last, run]

end

end CimArm.Dmodem
