import CimArm.Telesup.DmodemConnect

/-!
# dmodem: the four operations

Connecting, writing, reading and disconnecting run the engine over their tables.  In the first
three every chain of events settles, and every state that waits has the row of the upper timer,
so they end.  Disconnecting starts the engine with the number of an event; there is no such
state, every event is dropped, and it does not end (`Operation.returns_iff`).
-/

namespace CimArm.Dmodem

open Progress List

/-! ## Their protocols -/

def wrWaitEvent (poll : Poll) (timers : Timers) (w : DMWriteCurrState) :
    Option WrEvent × Timers × DMWriteCurrState :=
  txWaitEvent wrEventOf .txUplayerTo .txFrameTo poll timers w

def connWaitEvent (poll : Poll) (timers : Timers) (c : DMConnectCurrState) :
    Option ConnEvent × Timers × DMConnectCurrState :=
  txWaitEvent connEventOf .txUplayerTo .txFrameTo poll timers c

def disconnWaitEvent (poll : Poll) (timers : Timers) (c : DMConnectCurrState) :
    Option Nat × Timers × DMConnectCurrState :=
  txWaitEvent disconnEventOf TXUPLAYERTO_DISCONNEVT TXFRAMETO_DISCONNEVT poll timers c

/-- The timer of a read is looked at behind the pause between two bytes, and replaces it. -/
def rdWaitEvent (poll : Poll) (timers : Timers) (r : DMReadCurrState) :
    Option RdEvent × Timers × DMReadCurrState :=
  let timers := timers.expire poll
  match poll.received with
  | .byte b => (some .rcvByte, timers, { r with byteRcv := b })
  | .none | .timeout =>
    (if timers.uplayerExpired ∨ poll.carrier = false then some .rxUplayerTo
      else if poll.received = .timeout then some .rxByteTo
      else none,
      { timers with uplayerExpired := false }, r)

def wrProtocol (conf : DModemConfig) : Protocol WrState WrEvent DMWriteCurrState :=
  ⟨wrTransitions conf, wrWaitEvent, .exit, .txUplayerTo⟩

def rdProtocol (conf : DModemConfig) : Protocol RdState RdEvent DMReadCurrState :=
  ⟨fun _ => rdTransitions conf, rdWaitEvent, .exit, .rxUplayerTo⟩

def connProtocol (conf : DModemConfig) : Protocol ConnState ConnEvent DMConnectCurrState :=
  ⟨connTransitions conf, connWaitEvent, .exit, .txUplayerTo⟩

def disconnProtocol (conf : DModemConfig) : Protocol Nat Nat DMConnectCurrState :=
  ⟨disconnectTransitions conf, disconnWaitEvent, EXIT_ST, TXUPLAYERTO_DISCONNEVT⟩

/-! ## The operations -/

/-- What a handle keeps of its operations. -/
structure DmodemHandler : Type where
  wr : DMWriteCurrState
  rd : DMReadCurrState
  conn : DMConnectCurrState
  disconn : DMConnectCurrState

/-- After `dmodem_open`, whatever the buffer holds; the counts of the retries are those of a
program that has just started. -/
def DmodemHandler.opened (databuf : Nat → UInt8) : DmodemHandler where
  wr :=
    { pdata := [], currFrameDataSize := 0, currSeqno := 1, retransNo := 0
      globalError := .noError, sent := [], acknowledged := [] }
  rd := .opened databuf
  conn := ⟨0, .noError, []⟩
  disconn := ⟨0, .noError, []⟩

inductive Operation : Type
  | connect
  | write (buf : List UInt8)
  | read (size : Nat)
  | disconnect
  deriving DecidableEq

/-- `wr_init`; that nothing could be sent is not looked at. -/
def wrInit (conf : DModemConfig) (sendBuf : Bool) (buf : List UInt8) (w : DMWriteCurrState) :
    DMWriteCurrState :=
  (wrSendFrame conf sendBuf { w with pdata := buf, retransNo := 0, globalError := .noError }).2

namespace Operation

variable (conf : DModemConfig) (polls : Nat → Poll) (sendBuf : Bool) (handle : DmodemHandler)

/-- The operation returns; `sendBuf` is what `send_buf` answers at its start. -/
def Ends : Operation → Prop
  | .connect =>
    Eventually ((connProtocol conf).round polls) (fun e => e.ended = true)
      (.start .synSended (connInit sendBuf handle.conn))
  | .write buf =>
    Eventually ((wrProtocol conf).round polls) (fun e => e.ended = true)
      (.start .frameSended (wrInit conf sendBuf buf handle.wr))
  | .read size =>
    HasData conf size handle.rd ∨
      Eventually ((rdProtocol conf).round polls) (fun e => e.ended = true)
        (.start .waitSoh (rdInit size handle.rd))
  | .disconnect =>
    Eventually ((disconnProtocol conf).round polls) (fun e => e.ended = true)
      (.start SENDEOT_DISCONNEVT (disconnInit sendBuf handle.disconn))

/-- The upper timeout is never read in a state without a row for it. -/
def KeepsTimeout : Operation → Prop
  | .connect =>
    Forever ((connProtocol conf).round polls) (fun e => ¬(connProtocol conf).Loses polls e)
      (.start .synSended (connInit sendBuf handle.conn))
  | .write buf =>
    Forever ((wrProtocol conf).round polls) (fun e => ¬(wrProtocol conf).Loses polls e)
      (.start .frameSended (wrInit conf sendBuf buf handle.wr))
  | .read size =>
    HasData conf size handle.rd ∨
      Forever ((rdProtocol conf).round polls) (fun e => ¬(rdProtocol conf).Loses polls e)
        (.start .waitSoh (rdInit size handle.rd))
  | .disconnect =>
    Forever ((disconnProtocol conf).round polls) (fun e => ¬(disconnProtocol conf).Loses polls e)
      (.start SENDEOT_DISCONNEVT (disconnInit sendBuf handle.disconn))

end Operation

/-! ## They settle -/

section

variable {St Ev S : Type} [DecidableEq St] [DecidableEq Ev] {p : Protocol St Ev S}
  {Waits : St → Prop} {sendBuf : Bool}

theorem Settles.exit {state : St} {event : Ev} {s : S} {h : S → Option Ev × S}
    (found : dmGetTransition (p.transitions sendBuf) state event =
      some ⟨state, event, p.finalState, h⟩) : Settles p Waits sendBuf state (some event) s :=
  .follows found fun running => absurd rfl running

theorem Settles.quiet {state next : St} {event : Ev} {s : S} {h : S → Option Ev × S}
    (found : dmGetTransition (p.transitions sendBuf) state event =
      some ⟨state, event, next, h⟩) (none : (h s).1 = none) (waits : Waits next) :
    Settles p Waits sendBuf state (some event) s :=
  .follows found fun _ => by
    rw [none]
    exact .waits waits

end

def ConnState.Waits (state : ConnState) : Prop := state = .synSended ∨ state = .nackRcv

def RdState.Waits (state : RdState) : Prop := state ≠ .exit ∧ state ≠ .ctrlRetrans

section

variable (conf : DModemConfig)

theorem sendPair_settles {Ev St : Type} [DecidableEq St] [DecidableEq Ev]
    {p : Protocol St Ev DMConnectCurrState} {Waits : St → Prop} {sendBuf : Bool} {state : St}
    {failed : Ev} {h : DMConnectCurrState → Option Ev × DMConnectCurrState}
    (found : dmGetTransition (p.transitions sendBuf) state failed =
      some ⟨state, failed, p.finalState, h⟩) (waits : Waits state) (bytes : List UInt8)
    (c : DMConnectCurrState) :
    Settles p Waits sendBuf state (sendPair bytes failed sendBuf c).1
      (sendPair bytes failed sendBuf c).2 := by
  cases sendBuf with
  | true => exact .waits waits
  | false => exact .exit found

theorem connSendSyn_settles (sendBuf : Bool) (c : DMConnectCurrState) :
    Settles (connProtocol conf) ConnState.Waits sendBuf .synSended (connSendSyn sendBuf c).1
      (connSendSyn sendBuf c).2 :=
  sendPair_settles rfl (.inl rfl) _ c

theorem connPrepareRetrans_settles (sendBuf : Bool) (c : DMConnectCurrState) :
    Settles (connProtocol conf) ConnState.Waits sendBuf .ctrlRetrans
      (connPrepareRetrans conf c).1 (connPrepareRetrans conf c).2 := by
  unfold connPrepareRetrans prepareRetrans
  dsimp only
  split
  · exact .follows rfl fun _ => connSendSyn_settles conf sendBuf _
  · exact .exit rfl

theorem connProtocol_timely : Timely (connProtocol conf) ConnState.Waits where
  settles := by
    intro sendBuf row mem running s
    simp only [connProtocol, connTransitions, mem_cons, not_mem_nil, or_false] at mem
    rcases mem with rfl | rfl | rfl | rfl | rfl | rfl | rfl | rfl | rfl | rfl | rfl | rfl | rfl
    all_goals first
      | exact absurd rfl running
      | exact .waits (.inl rfl)
      | exact .waits (.inr rfl)
      | exact connSendSyn_settles conf sendBuf s
      | exact connPrepareRetrans_settles conf sendBuf s
  ends := by
    rintro sendBuf state (rfl | rfl)
    · exact ⟨_, rfl⟩
    · exact ⟨_, rfl⟩
  keeps poll timers s b received := by
    rw [show (connProtocol conf).waitEvent = connWaitEvent from rfl, connWaitEvent,
      txWaitEvent_byte received]
  reads poll timers s none expired := txWaitEvent_expired none expired

theorem wrSendFrame_settles (sendBuf : Bool) (w : DMWriteCurrState) :
    Settles (wrProtocol conf) WrState.Waiting sendBuf .frameSended (wrSendFrame conf sendBuf w).1
      (wrSendFrame conf sendBuf w).2 := by
  cases sendBuf with
  | true => exact .waits (.inl rfl)
  | false => exact .exit rfl

theorem wrPrepareRetrans_settles (sendBuf : Bool) (w : DMWriteCurrState) :
    Settles (wrProtocol conf) WrState.Waiting sendBuf .ctrlRetrans (wrPrepareRetrans conf w).1
      (wrPrepareRetrans conf w).2 := by
  unfold wrPrepareRetrans
  dsimp only
  split
  · exact .follows rfl fun _ => wrSendFrame_settles conf sendBuf _
  · exact .exit rfl

theorem wrPrepareNextFrame_settles (sendBuf : Bool) (w : DMWriteCurrState) :
    Settles (wrProtocol conf) WrState.Waiting sendBuf .ctrlMoreFrames (wrPrepareNextFrame w).1
      (wrPrepareNextFrame w).2 := by
  unfold wrPrepareNextFrame
  dsimp only
  split
  · exact .follows rfl fun _ => wrSendFrame_settles conf sendBuf _
  · exact .exit rfl

theorem wrProtocol_timely : Timely (wrProtocol conf) WrState.Waiting where
  settles := by
    intro sendBuf row mem running s
    simp only [wrProtocol, wrTransitions, mem_cons, not_mem_nil, or_false] at mem
    rcases mem with rfl | rfl | rfl | rfl | rfl | rfl | rfl | rfl | rfl | rfl | rfl | rfl | rfl |
      rfl | rfl | rfl | rfl | rfl | rfl | rfl | rfl
    all_goals first
      | exact absurd rfl running
      | exact .waits (.inl rfl)
      | exact .waits (.inr (.inl rfl))
      | exact .waits (.inr (.inr rfl))
      | exact wrSendFrame_settles conf sendBuf s
      | exact wrPrepareRetrans_settles conf sendBuf s
      | exact wrPrepareNextFrame_settles conf sendBuf s
  ends := by
    rintro sendBuf state (rfl | rfl | rfl)
    · exact ⟨_, rfl⟩
    · exact ⟨_, rfl⟩
    · exact ⟨_, rfl⟩
  keeps poll timers s b received := by
    rw [show (wrProtocol conf).waitEvent = wrWaitEvent from rfl, wrWaitEvent,
      txWaitEvent_byte received]
  reads poll timers s none expired := txWaitEvent_expired none expired

/-! The functions of a read, each in the state that its row leads to. -/

section

variable (sendBuf : Bool) (r : DMReadCurrState)

theorem rdPrepareRetrans_settles :
    Settles (rdProtocol conf) RdState.Waits sendBuf .ctrlRetrans (rdPrepareRetrans conf r).1
      (rdPrepareRetrans conf r).2 := by
  unfold rdPrepareRetrans
  dsimp only
  split
  · exact .quiet rfl rfl ⟨nofun, nofun⟩
  · exact .exit rfl

theorem badFrame_settles {state : RdState}
    (found : dmGetTransition (rdTransitions conf) state .badFrame =
      some ⟨state, .badFrame, .ctrlRetrans, rdPrepareRetrans conf⟩) :
    Settles (rdProtocol conf) RdState.Waits sendBuf state (some .badFrame) r :=
  .follows found fun _ => rdPrepareRetrans_settles conf sendBuf r

theorem rdSoh_settles :
    Settles (rdProtocol conf) RdState.Waits sendBuf .waitCtrl0 (rdSoh r).1 (rdSoh r).2 := by
  unfold rdSoh
  dsimp only
  split
  · exact .quiet rfl rfl ⟨nofun, nofun⟩
  · split
    · exact .quiet rfl rfl ⟨nofun, nofun⟩
    · split
      · exact .quiet rfl rfl ⟨nofun, nofun⟩
      · exact .waits ⟨nofun, nofun⟩

theorem rdSeqno_settles :
    Settles (rdProtocol conf) RdState.Waits sendBuf .waitSeqComp (rdSeqno r).1 (rdSeqno r).2 := by
  unfold rdSeqno
  dsimp only
  split
  · exact .quiet rfl rfl ⟨nofun, nofun⟩
  · split
    · exact badFrame_settles conf sendBuf _ rfl
    · exact .waits ⟨nofun, nofun⟩

theorem rdSeqnocomp_settles :
    Settles (rdProtocol conf) RdState.Waits sendBuf .waitLen0 (rdSeqnocomp r).1
      (rdSeqnocomp r).2 := by
  unfold rdSeqnocomp
  dsimp only
  split
  · exact badFrame_settles conf sendBuf _ rfl
  · exact .waits ⟨nofun, nofun⟩

theorem rdLen1_settles :
    Settles (rdProtocol conf) RdState.Waits sendBuf .waitLen0Comp (rdLen1 r).1 (rdLen1 r).2 := by
  unfold rdLen1
  dsimp only
  split
  · exact badFrame_settles conf sendBuf _ rfl
  · exact .waits ⟨nofun, nofun⟩

theorem rdLen1comp_settles :
    Settles (rdProtocol conf) RdState.Waits sendBuf .waitPayload (rdLen1comp r).1
      (rdLen1comp r).2 := by
  unfold rdLen1comp
  dsimp only
  split
  · exact badFrame_settles conf sendBuf _ rfl
  · exact .waits ⟨nofun, nofun⟩

theorem rdRcvByte_settles :
    Settles (rdProtocol conf) RdState.Waits sendBuf .waitPayload (rdRcvByte r).1
      (rdRcvByte r).2 := by
  unfold rdRcvByte
  dsimp only
  split
  · exact .quiet rfl rfl ⟨nofun, nofun⟩
  · exact .waits ⟨nofun, nofun⟩

theorem rdRcvChecksumByte_settles :
    Settles (rdProtocol conf) RdState.Waits sendBuf .waitChecksum (rdRcvChecksumByte conf r).1
      (rdRcvChecksumByte conf r).2 := by
  unfold rdRcvChecksumByte
  dsimp only
  split
  · split
    · exact badFrame_settles conf sendBuf _ rfl
    · dsimp only
      split
      · exact .exit rfl
      · exact .quiet rfl rfl ⟨nofun, nofun⟩
  · exact .waits ⟨nofun, nofun⟩

theorem rdSynCompRcv_settles :
    Settles (rdProtocol conf) RdState.Waits sendBuf .synCompRcv (rdSynCompRcv r).1
      (rdSynCompRcv r).2 :=
  .quiet rfl rfl ⟨nofun, nofun⟩

theorem rdEotCompRcv_settles :
    Settles (rdProtocol conf) RdState.Waits sendBuf .eotCompRcv (rdEotCompRcv r).1
      (rdEotCompRcv r).2 := by
  unfold rdEotCompRcv
  dsimp only
  split
  · exact .exit rfl
  · exact .quiet rfl rfl ⟨nofun, nofun⟩

end

theorem rdTransitions_settle (sendBuf : Bool) (r : DMReadCurrState) :
    ∀ row ∈ rdTransitions conf, row.nextState ≠ .exit →
      Settles (rdProtocol conf) RdState.Waits sendBuf row.nextState (row.fhandler r).1
        (row.fhandler r).2 := by
  unfold rdTransitions
  repeat' refine forall_mem_cons.2 ⟨?_, ?_⟩
  all_goals first
    | exact fun running => absurd rfl running
    | exact fun _ => .waits ⟨nofun, nofun⟩
    | exact fun _ => rdPrepareRetrans_settles conf sendBuf r
    | exact fun _ => rdSoh_settles conf sendBuf r
    | exact fun _ => rdSeqno_settles conf sendBuf r
    | exact fun _ => rdSeqnocomp_settles conf sendBuf r
    | exact fun _ => rdLen1_settles conf sendBuf r
    | exact fun _ => rdLen1comp_settles conf sendBuf r
    | exact fun _ => rdRcvByte_settles conf sendBuf r
    | exact fun _ => rdRcvChecksumByte_settles conf sendBuf r
    | exact fun _ => rdSynCompRcv_settles conf sendBuf r
    | exact fun _ => rdEotCompRcv_settles conf sendBuf r
    | exact forall_mem_nil _

theorem rdWaitEvent_byte {poll : Poll} {b : UInt8} (received : poll.received = .byte b)
    (timers : Timers) (r : DMReadCurrState) :
    rdWaitEvent poll timers r = (some .rcvByte, timers.expire poll, { r with byteRcv := b }) := by
  unfold rdWaitEvent
  rw [received]

theorem rdWaitEvent_expired {poll : Poll} {timers : Timers} (r : DMReadCurrState)
    (none : ∀ b, poll.received ≠ .byte b)
    (expired : (timers.expire poll).uplayerExpired = true) :
    (rdWaitEvent poll timers r).1 = some .rxUplayerTo := by
  unfold rdWaitEvent
  cases received : poll.received with
  | byte b => exact absurd received (none b)
  | none | timeout => exact if_pos (.inl expired)

theorem rdProtocol_timely : Timely (rdProtocol conf) RdState.Waits where
  settles sendBuf row mem running r := rdTransitions_settle conf sendBuf r row mem running
  ends sendBuf state waits := by
    rcases waits with ⟨exit, retrans⟩
    cases state with
    | exit => exact absurd rfl exit
    | ctrlRetrans => exact absurd rfl retrans
    | _ => exact ⟨_, rfl⟩
  keeps poll timers r b received := by
    rw [show (rdProtocol conf).waitEvent = rdWaitEvent from rfl, rdWaitEvent_byte received]
  reads poll timers r none expired := rdWaitEvent_expired r none expired

theorem disconnectTransitions_dropped (sendBuf : Bool) (event : Nat) :
    dmGetTransition (disconnectTransitions conf sendBuf) SENDEOT_DISCONNEVT event = none := by
  unfold dmGetTransition
  refine List.find?_eq_none.2 fun row mem => ?_
  have other : ∀ row ∈ disconnectTransitions conf sendBuf,
      row.currentState ≠ SENDEOT_DISCONNEVT := by
    unfold disconnectTransitions
    simp only [forall_mem_cons]
    decide
  rw [decide_eq_true_eq]
  exact fun both => other row mem both.1

end

/-! ## They end -/

/-- The operations end when their timeout is delivered, and do not lose it, disconnecting
excepted. -/
theorem Operation.returns_iff (conf : DModemConfig) (sendBuf : Bool) (handle : DmodemHandler)
    (op : Operation) {polls : Nat → Poll} (delivered : Expires polls) :
    op.Ends conf polls sendBuf handle ∧ op.KeepsTimeout conf polls sendBuf handle ↔
      op ≠ .disconnect := by
  cases op with
  | connect =>
    refine ⟨fun _ => nofun, fun _ => ⟨?_, ?_⟩⟩
    · exact Protocol.ends (connProtocol_timely conf) delivered (.inl rfl) _
    · exact Protocol.never_loses (connProtocol_timely conf) polls (.inl rfl) _
  | write buf =>
    refine ⟨fun _ => nofun, fun _ => ⟨?_, ?_⟩⟩
    · exact Protocol.ends (wrProtocol_timely conf) delivered (.inl rfl) _
    · exact Protocol.never_loses (wrProtocol_timely conf) polls (.inl rfl) _
  | read size =>
    have waits : RdState.waitSoh.Waits := ⟨nofun, nofun⟩
    refine ⟨fun _ => nofun, fun _ => ⟨.inr ?_, .inr ?_⟩⟩
    · exact Protocol.ends (rdProtocol_timely conf) delivered waits _
    · exact Protocol.never_loses (rdProtocol_timely conf) polls waits _
  | disconnect =>
    refine ⟨fun both => absurd both.1 ?_, fun other => absurd rfl other⟩
    exact Protocol.never_ends polls _ (disconnectTransitions_dropped conf)

/-- Nothing is received, and the timer runs out. -/
theorem Operation.returns_silence :
    Operation.connect.Ends ⟨512, false, 15, by decide, by decide⟩
        (fun n => ⟨.none, true, n = 3, false, true⟩) true (.opened fun _ => 0) ∧
      Operation.connect.KeepsTimeout ⟨512, false, 15, by decide, by decide⟩
        (fun n => ⟨.none, true, n = 3, false, true⟩) true (.opened fun _ => 0) :=
  (Operation.returns_iff ⟨512, false, 15, by decide, by decide⟩ true (.opened fun _ => 0) .connect
    ⟨3, 3, Nat.le_refl 3, rfl, fun _ => Received.noConfusion⟩).2 Operation.noConfusion

/-- Nothing is received, the timer runs out, and disconnecting goes on. -/
theorem Operation.returns_disconnect :
    ¬∀ (conf : DModemConfig) (sendBuf : Bool) (handle : DmodemHandler) (op : Operation)
      (polls : Nat → Poll), Expires polls →
        op.Ends conf polls sendBuf handle ∧ op.KeepsTimeout conf polls sendBuf handle := by
  intro every
  have both := every ⟨512, false, 15, by decide, by decide⟩ true (.opened fun _ => 0) .disconnect
    (fun n => ⟨.none, true, n = 3, false, true⟩)
    ⟨3, 3, Nat.le_refl 3, rfl, fun _ => nofun⟩
  exact Protocol.never_ends _ _ (disconnectTransitions_dropped _) both.1

end CimArm.Dmodem
