import CimArm.Lib.Trace
import CimArm.Telesup.DmodemOperations
import CimArm.Telesup.ReadBounds

/-!
# dmodem: the budget of retries

`max_retries` bounds the retries of a frame.  Each operation counts in the state of the handle:
a write sets its count back when it begins, and then counts the retries of all its frames; a read
sets it back with every byte that may begin a frame; a connect never does.

What a run shows is observed beside the code: how many bad frames a read has received in a row,
and how many timeouts the frame of a connect or a write has seen in a row.

* `budgeted_iff_inBudget`: the counts of a run are those observed just in case no connect begins
  after one that has used up retries, no read receives as many bad frames in a row as it may
  retry, and no write has counted other retries when a frame times out for the last time.
* `badFrame_continues`: a read that may retry goes on after a bad frame, however many there were.
-/

namespace CimArm.Dmodem

def DMODEM_MAX_DATA_SIZE_DEF : Nat := 512

theorem dmodemMaxDataSizeDef_pos : 0 < DMODEM_MAX_DATA_SIZE_DEF := by decide

theorem dmodemMaxDataSizeDef_le : DMODEM_MAX_DATA_SIZE_DEF ≤ DM_MAX_DATA_LEN := by decide

/-- What `dmodem_open` configures. -/
def DModemConfig.byDefault (nonblock : Bool) : DModemConfig where
  maxDataSize := DMODEM_MAX_DATA_SIZE_DEF
  nonblock := nonblock
  maxRetries := DMODEM_MAX_RETIRES_DEF
  positive := dmodemMaxDataSizeDef_pos
  bounded := dmodemMaxDataSizeDef_le

/-! ## A handle -/

inductive Running : Type
  | idle
  | connecting (state : ConnState)
  | writing (state : WrState)
  | reading (state : RdState)
  deriving DecidableEq

structure Node : Type where
  conf : DModemConfig
  handler : DmodemHandler
  running : Running

/-- The calls of the upper layer, and the events of the operation that runs; `sendBuf` is what
`send_buf` answers meanwhile. -/
inductive NodeOp : Type
  | dmodemOpen (nonblock : Bool)
  | dmodemConf (conf : DModemConfig)
  | connect (sendBuf : Bool)
  | write (sendBuf : Bool) (buf : List UInt8)
  | read (size : Nat)
  | byte (sendBuf : Bool) (b : UInt8)
  | frameTimeout (sendBuf : Bool)
  | byteTimeout
  | uplayerTimeout

def connEngine (conf : DModemConfig) (sendBuf : Bool) (event : ConnEvent)
    (s : ConnState × DMConnectCurrState) : ConnState × DMConnectCurrState :=
  protoEngine (connTransitions conf sendBuf) .exit 4 event s

def wrEngineWith (conf : DModemConfig) (sendBuf : Bool) (event : WrEvent)
    (s : WrState × DMWriteCurrState) : WrState × DMWriteCurrState :=
  protoEngine (wrTransitions conf sendBuf) .exit 4 event s

namespace Node

def connected (n : Node) (after : ConnState × DMConnectCurrState) : Node :=
  { n with
    running := if after.1 = .exit then .idle else .connecting after.1
    handler := { n.handler with conn := after.2 } }

def written (n : Node) (after : WrState × DMWriteCurrState) : Node :=
  { n with
    running := if after.1 = .exit then .idle else .writing after.1
    handler := { n.handler with wr := after.2 } }

/-- A read that has ended copies what it has received. -/
def received (n : Node) (after : RdState × DMReadCurrState) : Node :=
  { n with
    running := if after.1 = .exit then .idle else .reading after.1
    handler :=
      { n.handler with
        rd :=
          if after.1 = .exit then
            { after.2 with store := (rdReadData after.2.store.sizeReaded after.2.store).2 }
          else after.2 } }

/-- `dmodem_open`: of the counts of retries none is set. -/
def dmodemOpen (nonblock : Bool) (n : Node) : Node where
  conf := .byDefault nonblock
  handler :=
    { n.handler with
      wr := { n.handler.wr with currSeqno := 1 }
      rd :=
        { n.handler.rd with
          currSeqno := 1
          store :=
            { n.handler.rd.store with
              nextSeqno := 1, lastDataIndex := 0, firstDataIndex := 0, dataCount := 0 } } }
  running := n.running

/-- What an idle handle is called for. -/
def call (op : NodeOp) (n : Node) : Node :=
  match op with
  | .dmodemOpen nonblock => n.dmodemOpen nonblock
  | .dmodemConf conf => { n with conf := conf }
  | .connect sendBuf => n.connected (.synSended, connInit sendBuf n.handler.conn)
  | .write sendBuf buf => n.written (.frameSended, wrInit n.conf sendBuf buf n.handler.wr)
  | .read size =>
    if HasData n.conf size n.handler.rd then
      { n with
        handler :=
          { n.handler with
            rd :=
              { n.handler.rd with
                store := (rdReadData size n.handler.rd.store).2, globalError := .noError } } }
    else n.received (.waitSoh, rdInit size n.handler.rd)
  | .byte _ _ | .frameTimeout _ | .byteTimeout | .uplayerTimeout => n

def connEvent (op : NodeOp) (state : ConnState) (n : Node) : Node :=
  match op with
  | .byte sendBuf b =>
    n.connected (connEngine n.conf sendBuf (connEventOf b) (state, n.handler.conn))
  | .frameTimeout sendBuf =>
    n.connected (connEngine n.conf sendBuf .txFrameTo (state, n.handler.conn))
  | .uplayerTimeout => n.connected (connEngine n.conf true .txUplayerTo (state, n.handler.conn))
  | .dmodemOpen _ | .dmodemConf _ | .connect _ | .write _ _ | .read _ | .byteTimeout => n

def wrEvent (op : NodeOp) (state : WrState) (n : Node) : Node :=
  match op with
  | .byte sendBuf b =>
    n.written (wrEngineWith n.conf sendBuf (wrEventOf b) (state, n.handler.wr))
  | .frameTimeout sendBuf =>
    n.written (wrEngineWith n.conf sendBuf .txFrameTo (state, n.handler.wr))
  | .uplayerTimeout => n.written (wrEngineWith n.conf true .txUplayerTo (state, n.handler.wr))
  | .dmodemOpen _ | .dmodemConf _ | .connect _ | .write _ _ | .read _ | .byteTimeout => n

def rdEvent (op : NodeOp) (state : RdState) (n : Node) : Node :=
  match op with
  | .byte _ b => n.received (rdByte n.conf b (state, n.handler.rd))
  | .byteTimeout => n.received (rdEngine n.conf .rxByteTo (state, n.handler.rd))
  | .uplayerTimeout => n.received (rdEngine n.conf .rxUplayerTo (state, n.handler.rd))
  | .dmodemOpen _ | .dmodemConf _ | .connect _ | .write _ _ | .read _ | .frameTimeout _ => n

def step (op : NodeOp) (n : Node) : Node :=
  match n.running with
  | .idle => n.call op
  | .connecting state => n.connEvent op state
  | .writing state => n.wrEvent op state
  | .reading state => n.rdEvent op state

/-- When the program has started, and the handle is open. -/
def opened (databuf : Nat → UInt8) : Node where
  conf := .byDefault false
  handler := .opened databuf
  running := .idle

/-- The retries that the operation in progress has counted. -/
def retries (n : Node) : Nat :=
  match n.running with
  | .idle => 0
  | .connecting _ => n.handler.conn.retransNo
  | .writing _ => n.handler.wr.retransNo
  | .reading _ => n.handler.rd.retransNo

/-- How an operation has ended. -/
def errorOf (running : Running) (n : Node) : DmodemError :=
  match running with
  | .idle => .noError
  | .connecting _ => n.handler.conn.globalError
  | .writing _ => n.handler.wr.globalError
  | .reading _ => n.handler.rd.globalError

/-- The operation in progress ends with the retries used up. -/
def GivesUp (n : Node) (op : NodeOp) : Prop :=
  (n.step op).running = .idle ∧ (n.step op).errorOf n.running = .maxRetries

end Node

/-! ## What can be seen of a run -/

/-- A reader in this state receives a bad frame, or the beginning of one. -/
def NodeOp.Bad (state : RdState) (r : DMReadCurrState) : NodeOp → Prop
  | .byte _ b => BadByte state r b
  | .byteTimeout => MidFrame state
  | .dmodemOpen _ | .dmodemConf _ | .connect _ | .write _ _ | .read _ | .frameTimeout _
  | .uplayerTimeout => False

/-- A reader in this state receives a frame that is accepted, or one that is repeated. -/
def NodeOp.Good (state : RdState) (r : DMReadCurrState) : NodeOp → Prop
  | .byte _ b =>
    Completes state r b ∨
      state = .waitSeq ∧ r.store.nextSeqno ≠ 0 ∧ b = r.store.nextSeqno - 1
  | .dmodemOpen _ | .dmodemConf _ | .connect _ | .write _ _ | .read _ | .frameTimeout _
  | .byteTimeout | .uplayerTimeout => False

def NodeOp.IsFrameTimeout : NodeOp → Prop
  | .frameTimeout _ => True
  | .dmodemOpen _ | .dmodemConf _ | .connect _ | .write _ _ | .read _ | .byte _ _
  | .byteTimeout | .uplayerTimeout => False

/-- The frame of a write is acknowledged, or sent again because of an answer. -/
def NodeOp.Answers (state : WrState) : NodeOp → Prop
  | .byte _ b =>
    state = .ackRcv ∧ (wrEventOf b = .ackComp ∨ wrEventOf b = .unByte) ∨
      state = .nackRcv ∧ wrEventOf b = .nackComp
  | .dmodemOpen _ | .dmodemConf _ | .connect _ | .write _ _ | .read _ | .frameTimeout _
  | .byteTimeout | .uplayerTimeout => False

instance (state : RdState) (r : DMReadCurrState) : (op : NodeOp) → Decidable (op.Bad state r)
  | .byte _ b => decidableBadByte state r b
  | .byteTimeout => decidableMidFrame state
  | .dmodemOpen _ | .dmodemConf _ | .connect _ | .write _ _ | .read _ | .frameTimeout _
  | .uplayerTimeout => .isFalse id

instance (state : RdState) (r : DMReadCurrState) : (op : NodeOp) → Decidable (op.Good state r)
  | .byte _ _ => inferInstanceAs (Decidable (_ ∨ _))
  | .dmodemOpen _ | .dmodemConf _ | .connect _ | .write _ _ | .read _ | .frameTimeout _
  | .byteTimeout | .uplayerTimeout => .isFalse id

instance : (op : NodeOp) → Decidable op.IsFrameTimeout
  | .frameTimeout _ => .isTrue trivial
  | .dmodemOpen _ | .dmodemConf _ | .connect _ | .write _ _ | .read _ | .byte _ _
  | .byteTimeout | .uplayerTimeout => .isFalse id

instance (state : WrState) : (op : NodeOp) → Decidable (op.Answers state)
  | .byte _ _ => inferInstanceAs (Decidable (_ ∨ _))
  | .dmodemOpen _ | .dmodemConf _ | .connect _ | .write _ _ | .read _ | .frameTimeout _
  | .byteTimeout | .uplayerTimeout => .isFalse id

/-- A read receives a bad frame. -/
def BadFrame (n : Node) (op : NodeOp) : Prop :=
  ∃ state, n.running = .reading state ∧ op.Bad state n.handler.rd

/-- The frame of a connect or a write times out. -/
def FrameTimeout (n : Node) (op : NodeOp) : Prop :=
  op.IsFrameTimeout ∧
    ((∃ state, n.running = .connecting state) ∨ ∃ state, n.running = .writing state)

/-- The bad frames in a row of the read, and the timeouts in a row of the frame that is sent. -/
structure Observed : Type where
  badFrames : Nat
  timeouts : Nat
  deriving DecidableEq

/-- What is counted begins with each operation. -/
def observe (n : Node) (op : NodeOp) (o : Observed) : Observed :=
  match n.running with
  | .idle => ⟨0, 0⟩
  | .connecting _ => { o with timeouts := if op.IsFrameTimeout then o.timeouts + 1 else o.timeouts }
  | .writing state =>
    { o with
      timeouts :=
        if op.IsFrameTimeout then o.timeouts + 1 else if op.Answers state then 0 else o.timeouts }
  | .reading state =>
    { o with
      badFrames :=
        if op.Bad state n.handler.rd then o.badFrames + 1
        else if op.Good state n.handler.rd then 0
        else o.badFrames }

structure Session : Type where
  node : Node
  observed : Observed

namespace Session

def step (op : NodeOp) (s : Session) : Session :=
  ⟨s.node.step op, observe s.node op s.observed⟩

def opened (databuf : Nat → UInt8) : Session := ⟨.opened databuf, ⟨0, 0⟩⟩

/-- The budget of retries: an operation begins with all of it, a read gives up with the last bad
frame of it, and a frame that times out is given up with the last timeout of it. -/
structure Budgeted (s : Session) (op : NodeOp) : Prop where
  full : s.node.running = .idle → (s.node.step op).retries = 0
  read : BadFrame s.node op → s.node.conf.maxRetries ≤ s.observed.badFrames + 1 →
    s.node.GivesUp op
  frame : FrameTimeout s.node op →
    (s.node.GivesUp op ↔ s.node.conf.maxRetries ≤ s.observed.timeouts + 1)

/-- The counts that the code keeps are good for the step. -/
structure InBudget (s : Session) (op : NodeOp) : Prop where
  connect : s.node.running = .idle → (∃ sendBuf, op = .connect sendBuf) →
    s.node.handler.conn.retransNo = 0
  read : BadFrame s.node op →
    s.observed.badFrames + 1 < s.node.conf.maxRetries ∨ s.node.conf.maxRetries ≤ 1
  frame : FrameTimeout s.node op →
    s.node.conf.maxRetries ≤ s.observed.timeouts + 1 ∨
      s.node.retries + 1 < s.node.conf.maxRetries

end Session

/-! ## What an event does -/

/-- A frame has timed out: the retry is counted, and it is the last one or not. -/
structure Timed (conf : DModemConfig) (before : Nat) (ended waits : Prop) (error : DmodemError)
    (retransNo : Nat) : Prop where
  counted : retransNo = before + 1
  goes : ended ∨ waits
  givesUp : ended ∧ error = .maxRetries ↔ conf.maxRetries ≤ before + 1

/-- Another event of an operation that sends: no retry is taken back. -/
structure Counted (before : Nat) (ended waits : Prop) (retransNo : Nat) : Prop where
  grows : before ≤ retransNo
  goes : ended ∨ waits

section

variable (conf : DModemConfig) (sendBuf : Bool)

theorem Timed.last {before : Nat} {ended waits : Prop} {error : DmodemError}
    (last : ¬(before + 1 : Int) < conf.maxRetries) (now : ended) (used : error = .maxRetries) :
    Timed conf before ended waits error (before + 1) :=
  ⟨rfl, .inl now, fun _ => Int.not_lt.1 last, fun _ => ⟨now, used⟩⟩

theorem Timed.again {before : Nat} {ended waits : Prop} {error : DmodemError}
    (more : (before + 1 : Int) < conf.maxRetries) (goes : ended ∨ waits)
    (other : ended → error ≠ .maxRetries) :
    Timed conf before ended waits error (before + 1) :=
  ⟨rfl, goes, fun both => absurd both.2 (other both.1), fun last => absurd more (Int.not_lt.2 last)⟩

theorem connEngine_txFrameTo {state : ConnState} (waits : state.Waits) (c : DMConnectCurrState) :
    Timed conf c.retransNo ((connEngine conf sendBuf .txFrameTo (state, c)).1 = .exit)
      (connEngine conf sendBuf .txFrameTo (state, c)).1.Waits
      (connEngine conf sendBuf .txFrameTo (state, c)).2.globalError
      (connEngine conf sendBuf .txFrameTo (state, c)).2.retransNo := by
  have prepared : ∀ event, (connPrepareRetrans conf c).1 = some event →
      connEngine conf sendBuf .txFrameTo (state, c) =
        protoEngine (connTransitions conf sendBuf) .exit 3 event
          (.ctrlRetrans, { c with retransNo := c.retransNo + 1 }) := by
    intro event follows
    rcases waits with rfl | rfl
    · exact protoEngine_event 3 rfl ConnState.noConfusion follows
    · exact protoEngine_event 3 rfl ConnState.noConfusion follows
  by_cases more : (c.retransNo + 1 : Int) < conf.maxRetries
  · rw [prepared .moreRetrans (if_pos more)]
    cases sendBuf with
    | true => exact .again conf more (.inr (.inl rfl)) nofun
    | false => exact .again conf more (.inl rfl) fun _ => nofun
  · rw [prepared .noMoreRetrans (if_neg more)]
    exact .last conf more rfl rfl

theorem connEngine_byte {state : ConnState} (waits : state.Waits) (b : UInt8)
    (c : DMConnectCurrState) :
    Counted c.retransNo ((connEngine conf sendBuf (connEventOf b) (state, c)).1 = .exit)
      (connEngine conf sendBuf (connEventOf b) (state, c)).1.Waits
      (connEngine conf sendBuf (connEventOf b) (state, c)).2.retransNo := by
  have event : connEventOf b = .nack ∨ connEventOf b = .nackComp ∨ connEventOf b = .unByte := by
    unfold connEventOf
    split
    · exact .inl rfl
    · split
      · exact .inr (.inl rfl)
      · exact .inr (.inr rfl)
  rcases waits with rfl | rfl
  · rcases event with e | e | e
    · rw [e]; exact ⟨Nat.le_refl _, .inr (.inr rfl)⟩
    · rw [e]; exact ⟨Nat.le_refl _, .inr (.inl rfl)⟩
    · rw [e]; exact ⟨Nat.le_refl _, .inr (.inl rfl)⟩
  · rcases event with e | e | e
    · rw [e]; exact ⟨Nat.le_refl _, .inr (.inr rfl)⟩
    · rw [e]; exact ⟨Nat.le_refl _, .inl rfl⟩
    · rw [e]; exact ⟨Nat.le_refl _, .inr (.inl rfl)⟩

variable {state : WrState}

theorem wrEngineWith_retry {event : WrEvent}
    (found : dmGetTransition (wrTransitions conf sendBuf) state event =
      some ⟨state, event, .ctrlRetrans, wrPrepareRetrans conf⟩)
    (w : DMWriteCurrState) :
    Timed conf w.retransNo ((wrEngineWith conf sendBuf event (state, w)).1 = .exit)
      (wrEngineWith conf sendBuf event (state, w)).1.Waiting
      (wrEngineWith conf sendBuf event (state, w)).2.globalError
      (wrEngineWith conf sendBuf event (state, w)).2.retransNo := by
  unfold wrEngineWith
  by_cases more : (w.retransNo + 1 : Int) < conf.maxRetries
  · have again : (wrPrepareRetrans conf w).1 = some .moreRetrans := if_pos more
    rw [protoEngine_event 3 found WrState.noConfusion again]
    cases sendBuf with
    | true => exact .again conf more (.inr (.inl rfl)) nofun
    | false => exact .again conf more (.inl rfl) fun _ => nofun
  · have ends : (wrPrepareRetrans conf w).1 = some .noMoreRetrans := if_neg more
    rw [protoEngine_event 3 found WrState.noConfusion ends]
    exact .last conf more rfl rfl

theorem Timed.toCounted {before retransNo : Nat} {ended waits : Prop} {error : DmodemError}
    (timed : Timed conf before ended waits error retransNo) :
    Counted before ended waits retransNo :=
  ⟨by rw [timed.counted]; exact Nat.le_succ before, timed.goes⟩

theorem wrEngineWith_txFrameTo (waits : state.Waiting) (w : DMWriteCurrState) :
    Timed conf w.retransNo ((wrEngineWith conf sendBuf .txFrameTo (state, w)).1 = .exit)
      (wrEngineWith conf sendBuf .txFrameTo (state, w)).1.Waiting
      (wrEngineWith conf sendBuf .txFrameTo (state, w)).2.globalError
      (wrEngineWith conf sendBuf .txFrameTo (state, w)).2.retransNo := by
  rcases waits with rfl | rfl | rfl
  · exact wrEngineWith_retry conf sendBuf rfl w
  · exact wrEngineWith_retry conf sendBuf rfl w
  · exact wrEngineWith_retry conf sendBuf rfl w

theorem wrEngineWith_ackComp (w : DMWriteCurrState) :
    Counted w.retransNo ((wrEngineWith conf sendBuf .ackComp (.ackRcv, w)).1 = .exit)
      (wrEngineWith conf sendBuf .ackComp (.ackRcv, w)).1.Waiting
      (wrEngineWith conf sendBuf .ackComp (.ackRcv, w)).2.retransNo := by
  have row : dmGetTransition (wrTransitions conf sendBuf) .ackRcv .ackComp =
      some ⟨.ackRcv, .ackComp, .ctrlMoreFrames, wrPrepareNextFrame⟩ := rfl
  unfold wrEngineWith
  by_cases more : (nextFrame w).pdata ≠ []
  · have follows : (wrPrepareNextFrame w).1 = some .moreFrames := if_pos more
    rw [protoEngine_event 3 row WrState.noConfusion follows]
    cases sendBuf with
    | true => exact ⟨Nat.le_refl _, .inr (.inl rfl)⟩
    | false => exact ⟨Nat.le_refl _, .inl rfl⟩
  · have follows : (wrPrepareNextFrame w).1 = some .noMoreFrames := if_neg more
    rw [protoEngine_event 3 row WrState.noConfusion follows]
    exact ⟨Nat.le_refl _, .inl rfl⟩

theorem wrEngineWith_byte (waits : state.Waiting) (b : UInt8) (w : DMWriteCurrState) :
    Counted w.retransNo ((wrEngineWith conf sendBuf (wrEventOf b) (state, w)).1 = .exit)
      (wrEngineWith conf sendBuf (wrEventOf b) (state, w)).1.Waiting
      (wrEngineWith conf sendBuf (wrEventOf b) (state, w)).2.retransNo := by
  rcases waits with rfl | rfl | rfl
  · rcases wrEventOf_cases b with e | e | e | e | e
    · rw [e]; exact ⟨Nat.le_refl _, .inr (.inr (.inl rfl))⟩
    · rw [e]; exact ⟨Nat.le_refl _, .inr (.inl rfl)⟩
    · rw [e]; exact ⟨Nat.le_refl _, .inr (.inr (.inr rfl))⟩
    · rw [e]; exact ⟨Nat.le_refl _, .inr (.inl rfl)⟩
    · rw [e]; exact ⟨Nat.le_refl _, .inr (.inl rfl)⟩
  · rcases wrEventOf_cases b with e | e | e | e | e
    · rw [e]; exact ⟨Nat.le_refl _, .inr (.inr (.inl rfl))⟩
    · rw [e]; exact wrEngineWith_ackComp conf sendBuf w
    · rw [e]; exact ⟨Nat.le_refl _, .inr (.inr (.inl rfl))⟩
    · rw [e]; exact ⟨Nat.le_refl _, .inr (.inr (.inl rfl))⟩
    · rw [e]; exact (wrEngineWith_retry conf sendBuf rfl w).toCounted
  · rcases wrEventOf_cases b with e | e | e | e | e
    · rw [e]; exact ⟨Nat.le_refl _, .inr (.inr (.inr rfl))⟩
    · rw [e]; exact ⟨Nat.le_refl _, .inr (.inr (.inr rfl))⟩
    · rw [e]; exact ⟨Nat.le_refl _, .inr (.inr (.inr rfl))⟩
    · rw [e]; exact (wrEngineWith_retry conf sendBuf rfl w).toCounted
    · rw [e]; exact ⟨Nat.le_refl _, .inr (.inl rfl)⟩

end

theorem BadByte.midFrame {state : RdState} {r : DMReadCurrState} {b : UInt8}
    (bad : BadByte state r b) : MidFrame state := by
  cases state with
  | waitSeq | waitSeqComp | waitLen1 | waitLen1Comp | waitChecksum => trivial
  | exit | waitSoh | waitCtrl0 | waitCtrl1 | waitLen0 | waitLen0Comp | waitPayload | ctrlRetrans
  | discardBytes | discardRetrans | synRcv | synCompRcv | eotRcv | eotCompRcv => exact bad.elim

theorem badFrame_givesUp {conf : DModemConfig} {r : DMReadCurrState} (fresh : r.retransNo = 0) :
    ((badFrame conf r).1 = .exit ∧ (badFrame conf r).2.globalError = .maxRetries) ↔
      conf.maxRetries ≤ 1 := by
  unfold badFrame
  rw [fresh]
  split
  · rename_i more
    exact ⟨fun both => RdState.noConfusion both.1, fun last => by omega⟩
  · rename_i last
    exact ⟨fun _ => by omega, fun _ => ⟨rfl, rfl⟩⟩

/-! ## Runs -/

namespace Session

/-- The operation in progress is where it waits, and has counted the timeouts that can be seen;
within a frame a read has counted no retry. -/
def Sound (s : Session) : Prop :=
  match s.node.running with
  | .idle => True
  | .connecting state => state.Waits ∧ s.observed.timeouts ≤ s.node.handler.conn.retransNo
  | .writing state => state.Waiting ∧ s.observed.timeouts ≤ s.node.handler.wr.retransNo
  | .reading state => state ≠ .exit ∧ Held state s.node.handler.rd

variable {n : Node} {o : Observed}

theorem connected_sound {after : ConnState × DMConnectCurrState}
    (goes : after.1 = .exit ∨ after.1.Waits) (counted : o.timeouts ≤ after.2.retransNo) :
    Sound ⟨n.connected after, o⟩ := by
  unfold Sound Node.connected
  dsimp only
  by_cases ended : after.1 = .exit
  · rw [if_pos ended]
    trivial
  · rw [if_neg ended]
    exact ⟨goes.resolve_left ended, counted⟩

theorem written_sound {after : WrState × DMWriteCurrState}
    (goes : after.1 = .exit ∨ after.1.Waiting) (counted : o.timeouts ≤ after.2.retransNo) :
    Sound ⟨n.written after, o⟩ := by
  unfold Sound Node.written
  dsimp only
  by_cases ended : after.1 = .exit
  · rw [if_pos ended]
    trivial
  · rw [if_neg ended]
    exact ⟨goes.resolve_left ended, counted⟩

theorem received_sound {after : RdState × DMReadCurrState} (held : Held after.1 after.2) :
    Sound ⟨n.received after, o⟩ := by
  unfold Sound Node.received
  dsimp only
  by_cases ended : after.1 = .exit
  · rw [if_pos ended]
    trivial
  · rw [if_neg ended, if_neg ended]
    exact ⟨ended, held⟩

variable (op : NodeOp) {s : Session}

theorem call_sound (idle : n.running = .idle) : Sound ⟨n.call op, ⟨0, 0⟩⟩ := by
  have still : ∀ m : Node, m.running = .idle → Sound ⟨m, ⟨0, 0⟩⟩ := by
    intro m none
    unfold Sound
    dsimp only
    rw [none]
    trivial
  cases op with
  | dmodemOpen nonblock => exact still _ idle
  | dmodemConf conf => exact still _ idle
  | connect sendBuf => exact connected_sound (.inr (.inl rfl)) (Nat.zero_le _)
  | write sendBuf buf => exact written_sound (.inr (.inl rfl)) (Nat.zero_le _)
  | read size =>
    unfold Node.call
    dsimp only
    split
    · exact still _ idle
    · exact received_sound trivial
  | byte | frameTimeout | byteTimeout | uplayerTimeout => exact still _ idle

theorem connEvent_sound {state : ConnState} (running : n.running = .connecting state)
    (waits : state.Waits) (counted : o.timeouts ≤ n.handler.conn.retransNo) :
    Sound ⟨n.connEvent op state, observe n op o⟩ := by
  have seen : observe n op o =
      { o with timeouts := if op.IsFrameTimeout then o.timeouts + 1 else o.timeouts } := by
    unfold observe
    rw [running]
  rw [seen]
  cases op with
  | byte sendBuf b =>
    have event := connEngine_byte n.conf sendBuf waits b n.handler.conn
    exact connected_sound event.goes (counted.trans event.grows)
  | frameTimeout sendBuf =>
    have event := connEngine_txFrameTo n.conf sendBuf waits n.handler.conn
    refine connected_sound event.goes ?_
    rw [event.counted]
    exact Nat.succ_le_succ counted
  | uplayerTimeout =>
    rcases waits with rfl | rfl
    · exact connected_sound (.inl rfl) counted
    · exact connected_sound (.inl rfl) counted
  | dmodemOpen | dmodemConf | connect | write | read | byteTimeout =>
    unfold Sound
    dsimp only [Node.connEvent]
    rw [running]
    exact ⟨waits, counted⟩

theorem wrEvent_sound {state : WrState} (running : n.running = .writing state)
    (waits : state.Waiting) (counted : o.timeouts ≤ n.handler.wr.retransNo) :
    Sound ⟨n.wrEvent op state, observe n op o⟩ := by
  have seen : observe n op o =
      { o with
        timeouts :=
          if op.IsFrameTimeout then o.timeouts + 1
          else if op.Answers state then 0 else o.timeouts } := by
    unfold observe
    rw [running]
  rw [seen]
  cases op with
  | byte sendBuf b =>
    have event := wrEngineWith_byte n.conf sendBuf waits b n.handler.wr
    refine written_sound event.goes ?_
    dsimp only
    rw [if_neg (show ¬(NodeOp.byte sendBuf b).IsFrameTimeout from id)]
    split
    · exact Nat.zero_le _
    · exact counted.trans event.grows
  | frameTimeout sendBuf =>
    have event := wrEngineWith_txFrameTo n.conf sendBuf waits n.handler.wr
    refine written_sound event.goes ?_
    rw [event.counted]
    exact Nat.succ_le_succ counted
  | uplayerTimeout =>
    rcases waits with rfl | rfl | rfl
    · exact written_sound (.inl rfl) counted
    · exact written_sound (.inl rfl) counted
    · exact written_sound (.inl rfl) counted
  | dmodemOpen | dmodemConf | connect | write | read | byteTimeout =>
    unfold Sound
    dsimp only [Node.wrEvent]
    rw [running]
    exact ⟨waits, counted⟩

theorem rdEvent_sound (o : Observed) {state : RdState} (running : n.running = .reading state)
    (waits : state ≠ .exit) (held : Held state n.handler.rd) : Sound ⟨n.rdEvent op state, o⟩ := by
  cases op with
  | byte sendBuf b => exact received_sound (rdByte_effect n.conf b held).held
  | byteTimeout => exact received_sound (rxByteTo_paused n.conf state n.handler.rd).held
  | uplayerTimeout =>
    refine received_sound ?_
    rw [rdEngine_rxUplayerTo n.conf n.handler.rd waits]
    trivial
  | dmodemOpen | dmodemConf | connect | write | read | frameTimeout =>
    unfold Sound
    dsimp only [Node.rdEvent]
    rw [running]
    exact ⟨waits, held⟩

theorem step_sound (sound : s.Sound) (op : NodeOp) : (step op s).Sound := by
  rcases s with ⟨n, o⟩
  unfold Sound at sound
  dsimp only at sound
  unfold step Node.step
  dsimp only
  cases running : n.running with
  | idle =>
    dsimp only
    rw [show observe n op o = ⟨0, 0⟩ by unfold observe; rw [running]]
    exact call_sound op running
  | connecting state =>
    rw [running] at sound
    exact connEvent_sound op running sound.1 sound.2
  | writing state =>
    rw [running] at sound
    exact wrEvent_sound op running sound.1 sound.2
  | reading state =>
    rw [running] at sound
    exact rdEvent_sound op _ running sound.1 sound.2

/-! ## The budget -/

theorem idle_iff {p : Prop} [Decidable p] {running : Running} (busy : running ≠ .idle) :
    (if p then Running.idle else running) = .idle ↔ p := by
  by_cases ended : p
  · rw [if_pos ended]
    exact ⟨fun _ => ended, fun _ => rfl⟩
  · rw [if_neg ended]
    exact ⟨fun idle => absurd idle busy, fun now => absurd now ended⟩

theorem full_iff (idle : n.running = .idle) (op : NodeOp) :
    (n.step op).retries = 0 ↔
      ((∃ sendBuf, op = .connect sendBuf) → n.handler.conn.retransNo = 0) := by
  have called : n.step op = n.call op := by
    unfold Node.step
    rw [idle]
  have still : ∀ m : Node, m.running = .idle → m.retries = 0 := by
    intro m none
    unfold Node.retries
    rw [none]
  have other : (n.call op).retries = 0 → (∀ sendBuf, op ≠ .connect sendBuf) →
      ((n.call op).retries = 0 ↔
        ((∃ sendBuf, op = .connect sendBuf) → n.handler.conn.retransNo = 0)) := by
    intro none apart
    refine ⟨fun _ connects => ?_, fun _ => none⟩
    rcases connects with ⟨sendBuf, same⟩
    exact absurd same (apart sendBuf)
  rw [called]
  cases op with
  | connect sendBuf =>
    have kept : (n.call (.connect sendBuf)).retries = n.handler.conn.retransNo := by
      cases sendBuf with
      | true => rfl
      | false => rfl
    rw [kept]
    exact ⟨fun none _ => none, fun none => none ⟨sendBuf, rfl⟩⟩
  | write sendBuf buf =>
    refine other ?_ fun _ => nofun
    cases sendBuf with
    | true => rfl
    | false => rfl
  | read size =>
    refine other ?_ fun _ => nofun
    unfold Node.call
    dsimp only
    split
    · exact still _ idle
    · rfl
  | dmodemOpen | dmodemConf | byte | frameTimeout | byteTimeout | uplayerTimeout =>
    exact other (still _ idle) fun _ => nofun

/-- Within a read that has counted no retry a bad frame is the last one only if there is no
second try. -/
theorem badFrame_iff (sound : s.Sound) {op : NodeOp} (bad : BadFrame s.node op) :
    s.node.GivesUp op ↔ s.node.conf.maxRetries ≤ 1 := by
  rcases bad with ⟨state, running, bad⟩
  unfold Sound at sound
  rw [running] at sound
  have given : ∀ after : RdState × DMReadCurrState,
      s.node.rdEvent op state = s.node.received after →
      (∃ r, after = badFrame s.node.conf r ∧ r.retransNo = 0) →
      (s.node.GivesUp op ↔ s.node.conf.maxRetries ≤ 1) := by
    rintro _ event ⟨r, rfl, fresh⟩
    unfold Node.GivesUp Node.step
    rw [running]
    dsimp only
    rw [event]
    refine Iff.trans (and_congr (idle_iff nofun) ?_) (badFrame_givesUp fresh)
    unfold Node.errorOf Node.received
    dsimp only
    split
    · exact Iff.rfl
    · exact Iff.rfl
  cases op with
  | byte sendBuf b =>
    have mid : MidFrame state := BadByte.midFrame bad
    rcases (rdByte_effect s.node.conf b sound.2).bad bad with ⟨r, after, same⟩
    exact given _ rfl ⟨r, after, same.trans (sound.2.fresh mid)⟩
  | byteTimeout =>
    exact given _ rfl ⟨_, rxByteTo_midFrame s.node.conf s.node.handler.rd bad,
      sound.2.fresh bad⟩
  | dmodemOpen | dmodemConf | connect | write | read | frameTimeout | uplayerTimeout =>
    exact bad.elim

theorem frameTimeout_iff (sound : s.Sound) {op : NodeOp} (timeout : FrameTimeout s.node op) :
    (s.node.GivesUp op ↔ s.node.conf.maxRetries ≤ s.node.retries + 1) ∧
      s.observed.timeouts ≤ s.node.retries := by
  rcases timeout with ⟨frame, running⟩
  unfold Sound at sound
  cases op with
  | frameTimeout sendBuf =>
    rcases running with ⟨state, running⟩ | ⟨state, running⟩
    · rw [running] at sound
      have event := connEngine_txFrameTo s.node.conf sendBuf sound.1 s.node.handler.conn
      unfold Node.GivesUp Node.step Node.retries
      rw [running]
      refine ⟨Iff.trans (and_congr (idle_iff nofun) Iff.rfl) event.givesUp, sound.2⟩
    · rw [running] at sound
      have event := wrEngineWith_txFrameTo s.node.conf sendBuf sound.1 s.node.handler.wr
      unfold Node.GivesUp Node.step Node.retries
      rw [running]
      refine ⟨Iff.trans (and_congr (idle_iff nofun) Iff.rfl) event.givesUp, sound.2⟩
  | dmodemOpen | dmodemConf | connect | write | read | byte | byteTimeout | uplayerTimeout =>
    exact frame.elim

theorem budgeted_iff (sound : s.Sound) (op : NodeOp) : s.Budgeted op ↔ s.InBudget op := by
  constructor
  · intro budgeted
    refine ⟨fun idle => (full_iff idle op).1 (budgeted.full idle), fun bad => ?_, fun timeout => ?_⟩
    · by_cases more : s.observed.badFrames + 1 < s.node.conf.maxRetries
      · exact .inl more
      · exact .inr ((badFrame_iff sound bad).1 (budgeted.read bad (Int.not_lt.1 more)))
    · by_cases more : s.node.retries + 1 < s.node.conf.maxRetries
      · exact .inr more
      · have last := (frameTimeout_iff sound timeout).1.2 (Int.not_lt.1 more)
        exact .inl ((budgeted.frame timeout).1 last)
  · intro inBudget
    refine ⟨fun idle => (full_iff idle op).2 (inBudget.connect idle), fun bad last => ?_,
      fun timeout => ?_⟩
    · have only := (inBudget.read bad).resolve_left (Int.not_lt.2 last)
      exact (badFrame_iff sound bad).2 only
    · rcases frameTimeout_iff sound timeout with ⟨givesUp, counted⟩
      rw [givesUp]
      refine ⟨fun last => ?_, fun last => by omega⟩
      exact (inBudget.frame timeout).resolve_right (Int.not_lt.2 last)

/-- Over any history of a handle: the operations have the budget of retries just in case the
counts of the code are good for every step. -/
theorem budgeted_iff_inBudget (databuf : Nat → UInt8) (ops : List NodeOp) :
    Trace.Always step Budgeted ops (opened databuf) ↔
      Trace.Always step InBudget ops (opened databuf) :=
  Trace.Always.congr_of_invariant Sound (fun sound _ => budgeted_iff sound _)
    (fun sound _ _ => step_sound sound _) trivial (Trace.Always.unconditional ops _)

/-- A connect is answered after its first frame has timed out, and the next one begins. -/
theorem budgeted_secondConnect :
    ¬∀ (databuf : Nat → UInt8) (ops : List NodeOp),
      Trace.Always step Budgeted ops (opened databuf) := by
  intro every
  have whole := every (fun _ => 0) [.connect true, .frameTimeout true, .byte true DM_NACK,
    .byte true DM_NACK_COMP, .connect true]
  exact absurd (whole.2.2.2.2.1.full rfl) (by decide)

end Session

end CimArm.Dmodem
