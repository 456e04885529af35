import CimArm.Lib.Progress
import CimArm.Telesup.ProtoEngine

/-!
# The loop of the engine

`proto_engine` is a loop.  When the last function has answered no event it calls the `wevent`
of the protocol, which takes a byte, or looks at the flags of two timers; an event without a
row is dropped, and only a row into the final state ends the loop.

What ends it here is the timer of the upper layer.  Its flag is set once and cleared as soon
as it is read, so the row must be there whenever the flag can be read.  It is read between two
chains of events (`Settles`) in a state that waits.

* `Protocol.ends`: a protocol whose chains end and whose waiting states have the row ends when
  the timeout is delivered.
* `Protocol.never_loses`: no timeout is read where it would be dropped.
* `Protocol.never_ends`: started in a state without rows it does not end.
-/

namespace CimArm.Dmodem

open Progress

/-- What `rcv_byte` answers. -/
inductive Received : Type
  | none
  | byte (b : UInt8)
  | timeout
  deriving DecidableEq

/-- What one call of `wevent` meets: the timers that have run out since the call before, and
what `send_buf` answers until the call after. -/
structure Poll : Type where
  received : Received
  carrier : Bool
  uplayer : Bool
  frame : Bool
  sendBuf : Bool

/-- The flags that the timers set. -/
structure Timers : Type where
  uplayerExpired : Bool
  frameExpired : Bool
  deriving DecidableEq

def Timers.stopped : Timers := ⟨false, false⟩

def Timers.expire (poll : Poll) (timers : Timers) : Timers :=
  ⟨timers.uplayerExpired || poll.uplayer, timers.frameExpired || poll.frame⟩

/-- What an operation passes to the engine. -/
structure Protocol (St Ev S : Type) : Type where
  /-- The table, with what `send_buf` answers. -/
  transitions : Bool → List (ProtoTransition St Ev S)
  waitEvent : Poll → Timers → S → Option Ev × Timers × S
  finalState : St
  uplayerTo : Ev

/-- The engine between two rounds of its loop. -/
structure Loop (St Ev S : Type) : Type where
  state : St
  newEvent : Option Ev
  timers : Timers
  s : S
  /-- The calls of `wevent` so far. -/
  polled : Nat
  sendBuf : Bool
  ended : Bool

def Loop.start {St Ev S : Type} (state : St) (s : S) : Loop St Ev S where
  state := state
  newEvent := none
  timers := .stopped
  s := s
  polled := 0
  sendBuf := true
  ended := false

/-- The timer of the upper layer runs out, and there is a call from then on that finds no
byte. -/
def Expires (polls : Nat → Poll) : Prop :=
  ∃ expires read : Nat, expires ≤ read ∧ (polls expires).uplayer = true ∧
    ∀ b, (polls read).received ≠ .byte b

variable {St Ev S : Type} [DecidableEq St] [DecidableEq Ev]

namespace Protocol

variable (p : Protocol St Ev S) (polls : Nat → Poll)

/-- `wevent` is called. -/
def poll (e : Loop St Ev S) : Option Ev × Loop St Ev S :=
  let answer := p.waitEvent (polls e.polled) e.timers e.s
  (answer.1,
    { e with
      timers := answer.2.1, s := answer.2.2
      polled := e.polled + 1, sendBuf := (polls e.polled).sendBuf })

/-- An event is executed, or dropped. -/
def execute (event : Ev) (e : Loop St Ev S) : Loop St Ev S :=
  match dmGetTransition (p.transitions e.sendBuf) e.state event with
  | none => { e with newEvent := none }
  | some row =>
    { e with
      state := row.nextState
      newEvent := (row.fhandler e.s).1
      s := (row.fhandler e.s).2
      ended := row.nextState = p.finalState }

/-- One round of the loop. -/
def round (e : Loop St Ev S) : Loop St Ev S :=
  if e.ended then e
  else
    match e.newEvent with
    | some event => p.execute event e
    | none =>
      match (p.poll polls e).1 with
      | some event => p.execute event (p.poll polls e).2
      | none => (p.poll polls e).2

/-- The timeout of the upper layer is read in a state without a row for it. -/
def Loses (e : Loop St Ev S) : Prop :=
  e.ended = false ∧ e.newEvent = none ∧ (p.poll polls e).1 = some p.uplayerTo ∧
    dmGetTransition (p.transitions (polls e.polled).sendBuf) e.state p.uplayerTo = none

end Protocol

/-! ## Chains of events -/

section

variable (p : Protocol St Ev S) (Waits : St → Prop)

/-- The events that follow from one another end, in a state that waits or in the final one. -/
inductive Settles (sendBuf : Bool) : St → Option Ev → S → Prop
  | waits {state : St} {s : S} (waits : Waits state) : Settles sendBuf state none s
  | follows {state next : St} {event : Ev} {s : S} {h : S → Option Ev × S}
      (found : dmGetTransition (p.transitions sendBuf) state event =
        some ⟨state, event, next, h⟩)
      (settles : next ≠ p.finalState → Settles sendBuf next (h s).1 (h s).2) :
      Settles sendBuf state (some event) s

/-- What a protocol needs to end: the chains settle, the upper timer has its row in every state
that waits, and `wevent` keeps the flag as long as there are bytes and answers it when there is
none. -/
structure Timely : Prop where
  settles (sendBuf : Bool) {row : ProtoTransition St Ev S} (mem : row ∈ p.transitions sendBuf)
    (running : row.nextState ≠ p.finalState) (s : S) :
    Settles p Waits sendBuf row.nextState (row.fhandler s).1 (row.fhandler s).2
  ends (sendBuf : Bool) {state : St} (waits : Waits state) :
    ∃ h, dmGetTransition (p.transitions sendBuf) state p.uplayerTo =
      some ⟨state, p.uplayerTo, p.finalState, h⟩
  keeps (poll : Poll) (timers : Timers) (s : S) {b : UInt8} (received : poll.received = .byte b) :
    (p.waitEvent poll timers s).2.1.uplayerExpired = (timers.expire poll).uplayerExpired
  reads (poll : Poll) (timers : Timers) (s : S) (none : ∀ b, poll.received ≠ .byte b)
    (expired : (timers.expire poll).uplayerExpired = true) :
    (p.waitEvent poll timers s).1 = some p.uplayerTo

end

section

variable {p : Protocol St Ev S} {Waits : St → Prop} {polls : Nat → Poll} {e : Loop St Ev S}

/-- Between two rounds: the loop has ended, or what is pending settles. -/
def Rests (p : Protocol St Ev S) (Waits : St → Prop) (e : Loop St Ev S) : Prop :=
  e.ended = true ∨ Settles p Waits e.sendBuf e.state e.newEvent e.s

/-- The next round calls `wevent`. -/
structure Idle (Waits : St → Prop) (e : Loop St Ev S) : Prop where
  running : e.ended = false
  quiet : e.newEvent = none
  waits : Waits e.state

namespace Protocol

theorem round_ended (ended : e.ended = true) : p.round polls e = e :=
  if_pos ended

variable {event : Ev} {state : St}

theorem round_pending (running : e.ended = false) (pending : e.newEvent = some event) :
    p.round polls e = p.execute event e := by
  unfold round
  rw [running, pending]
  rfl

theorem round_idle (idle : Idle Waits e) :
    p.round polls e =
      ((p.poll polls e).1.elim (p.poll polls e).2 fun event =>
        p.execute event (p.poll polls e).2) := by
  unfold round
  rw [idle.running, idle.quiet]
  cases (p.poll polls e).1 with
  | none => rfl
  | some event => rfl

theorem execute_row {next : St} {h : S → Option Ev × S}
    (found : dmGetTransition (p.transitions e.sendBuf) e.state event =
      some ⟨e.state, event, next, h⟩) :
    p.execute event e =
      { e with
        state := next, newEvent := (h e.s).1, s := (h e.s).2
        ended := next = p.finalState } := by
  unfold execute
  rw [found]

theorem execute_dropped (dropped : dmGetTransition (p.transitions e.sendBuf) e.state event = none) :
    p.execute event e = { e with newEvent := none } := by
  unfold execute
  rw [dropped]

theorem dmGetTransition_some {sm : List (ProtoTransition St Ev S)} {row : ProtoTransition St Ev S}
    (found : dmGetTransition sm state event = some row) :
    row ∈ sm ∧ row.currentState = state ∧ row.event = event := by
  have matches_ := List.find?_some found
  rw [decide_eq_true_eq] at matches_
  exact ⟨List.mem_of_find?_eq_some found, matches_⟩

theorem execute_rests (timely : Timely p Waits) (event : Ev) (waits : Waits e.state) :
    Rests p Waits (p.execute event e) := by
  cases found : dmGetTransition (p.transitions e.sendBuf) e.state event with
  | none =>
    rw [execute_dropped found]
    exact .inr (.waits waits)
  | some row =>
    rcases dmGetTransition_some found with ⟨mem, current, same⟩
    rcases row with ⟨state, event', next, h⟩
    cases current
    cases same
    rw [execute_row found]
    by_cases final : next = p.finalState
    · exact .inl (decide_eq_true final)
    · exact .inr (timely.settles e.sendBuf mem final e.s)

theorem round_rests (timely : Timely p Waits) (rests : Rests p Waits e) :
    Rests p Waits (p.round polls e) := by
  cases running : e.ended with
  | true =>
    rw [round_ended running]
    exact rests
  | false =>
    have settles := rests.resolve_left (by rw [running]; exact Bool.false_ne_true)
    cases pending : e.newEvent with
    | none =>
      rw [pending] at settles
      cases settles with
      | waits waits =>
        rw [round_idle ⟨running, pending, waits⟩]
        cases answer : (p.poll polls e).1 with
        | none =>
          refine .inr ?_
          dsimp only [Option.elim, poll]
          rw [pending]
          exact .waits waits
        | some event => exact execute_rests timely event waits
    | some event =>
      rw [pending] at settles
      cases settles with
      | follows found settles =>
        rw [round_pending running pending, execute_row found]
        rename_i next h
        by_cases final : next = p.finalState
        · exact .inl (decide_eq_true final)
        · exact .inr (settles final)

theorem start_rests (waits : Waits state) (s : S) : Rests p Waits (Loop.start state s) :=
  .inr (.waits waits)

theorem never_loses (timely : Timely p Waits) (polls : Nat → Poll) (waits : Waits state) (s : S) :
    Forever (p.round polls) (fun e => ¬p.Loses polls e) (Loop.start state s) := by
  refine Forever.mono (P := Rests p Waits) (fun e rests loses => ?_)
    (Forever.of_invariant (fun e rests => round_rests timely rests) (start_rests waits s))
  rcases loses with ⟨running, quiet, _, dropped⟩
  have settles := rests.resolve_left (by rw [running]; exact Bool.false_ne_true)
  rw [quiet] at settles
  cases settles with
  | waits waits =>
    rcases timely.ends (polls e.polled).sendBuf waits with ⟨h, found⟩
    rw [found] at dropped
    cases dropped

theorem settles_eventually {sendBuf : Bool} {newEvent : Option Ev} {s : S}
    (settles : Settles p Waits sendBuf state newEvent s) (timers : Timers) (polled : Nat) :
    Eventually (p.round polls)
      (fun e => e.ended = true ∨ Idle Waits e ∧ e.polled = polled ∧ e.timers = timers)
      ⟨state, newEvent, timers, s, polled, sendBuf, false⟩ := by
  induction settles with
  | waits waits => exact .now (.inr ⟨⟨rfl, rfl, waits⟩, rfl, rfl⟩)
  | follows found settles ih =>
    rename_i next event s h
    refine .next ?_
    rw [round_pending rfl rfl, execute_row found]
    by_cases final : next = p.finalState
    · exact .now (.inl (decide_eq_true final))
    · have further := ih final
      rwa [decide_eq_false final]

theorem rests_eventually (rests : Rests p Waits e) :
    Eventually (p.round polls)
      (fun t => t.ended = true ∨ Idle Waits t ∧ t.polled = e.polled ∧ t.timers = e.timers) e := by
  rcases e with ⟨state, newEvent, timers, s, polled, sendBuf, ended⟩
  cases ended with
  | true => exact .now (.inl rfl)
  | false => exact settles_eventually (rests.resolve_left Bool.false_ne_true) timers polled

theorem round_polled (idle : Idle Waits e) :
    (p.round polls e).polled = e.polled + 1 ∧
      (p.round polls e).timers = (p.waitEvent (polls e.polled) e.timers e.s).2.1 := by
  have kept : ∀ (event : Ev) (t : Loop St Ev S),
      (p.execute event t).polled = t.polled ∧ (p.execute event t).timers = t.timers := by
    intro event t
    unfold execute
    split
    · exact ⟨rfl, rfl⟩
    · exact ⟨rfl, rfl⟩
  rw [round_idle idle]
  cases (p.poll polls e).1 with
  | none => exact ⟨rfl, rfl⟩
  | some event => exact kept event (p.poll polls e).2

theorem round_reads (timely : Timely p Waits) (idle : Idle Waits e)
    (none : ∀ b, (polls e.polled).received ≠ .byte b)
    (expired : (e.timers.expire (polls e.polled)).uplayerExpired = true) :
    (p.round polls e).ended = true := by
  have read : (p.poll polls e).1 = some p.uplayerTo := timely.reads _ _ e.s none expired
  rcases timely.ends (polls e.polled).sendBuf idle.waits with ⟨h, found⟩
  rw [round_idle idle, read]
  dsimp only [Option.elim]
  rw [execute_row (by exact found)]
  exact decide_eq_true rfl

theorem idle_reaches (timely : Timely p Waits) (n : Nat) (idle : Idle Waits e)
    (before : e.polled ≤ n) :
    Eventually (p.round polls) (fun t => t.ended = true ∨ Idle Waits t ∧ t.polled = n) e := by
  induction left : n - e.polled generalizing e with
  | zero => exact .now (.inr ⟨idle, by omega⟩)
  | succ left' ih =>
    refine .next (Eventually.then (rests_eventually (round_rests timely
      (.inr (by rw [idle.quiet]; exact .waits idle.waits)))) ?_)
    rintro t (ended | ⟨again, polled, _⟩)
    · exact .now (.inl ended)
    · rw [(round_polled idle).1] at polled
      exact ih again (by omega) (by omega)

theorem expired_eventually (timely : Timely p Waits) {read : Nat} (idle : Idle Waits e)
    (before : e.polled ≤ read) (none : ∀ b, (polls read).received ≠ .byte b)
    (expired : (e.timers.expire (polls e.polled)).uplayerExpired = true) :
    Eventually (p.round polls) (fun t => t.ended = true) e := by
  induction left : read - e.polled generalizing e with
  | zero =>
    have now : e.polled = read := by omega
    exact .next (.now (round_reads timely idle (by rw [now]; exact none) expired))
  | succ left' ih =>
    by_cases empty : ∀ b, (polls e.polled).received ≠ .byte b
    · exact .next (.now (round_reads timely idle empty expired))
    · rcases Classical.not_forall.1 empty with ⟨b, received⟩
      have kept := timely.keeps (polls e.polled) e.timers e.s (Classical.not_not.1 received)
      refine .next (Eventually.then (rests_eventually (round_rests timely
        (.inr (by rw [idle.quiet]; exact .waits idle.waits)))) ?_)
      rintro t (ended | ⟨again, polled, timers⟩)
      · exact .now ended
      · rw [(round_polled idle).1] at polled
        rw [(round_polled idle).2] at timers
        have flag : t.timers.uplayerExpired = true := by rw [timers, kept, expired]
        refine ih again (by omega) ?_ (by omega)
        rw [Timers.expire, flag, Bool.true_or]

theorem ends (timely : Timely p Waits) {polls : Nat → Poll} (delivered : Expires polls)
    (waits : Waits state) (s : S) :
    Eventually (p.round polls) (fun e => e.ended = true) (Loop.start state s) := by
  rcases delivered with ⟨expires, read, before, expired, none⟩
  refine Eventually.then (idle_reaches timely expires ⟨rfl, rfl, waits⟩ (Nat.zero_le _)) ?_
  rintro t (ended | ⟨idle, polled⟩)
  · exact .now ended
  · refine expired_eventually timely idle (by omega) none ?_
    rw [polled, Timers.expire, expired, Bool.or_true]

theorem never_ends (polls : Nat → Poll) (s : S)
    (dropped : ∀ (sendBuf : Bool) (event : Ev),
      dmGetTransition (p.transitions sendBuf) state event = none) :
    ¬Eventually (p.round polls) (fun e => e.ended = true) (Loop.start state s) := by
  refine Forever.not_eventually (Forever.of_invariant
    (P := Idle (· = state)) (fun e idle => ?_) ⟨rfl, rfl, rfl⟩) ?_
  · rw [round_idle idle]
    cases (p.poll polls e).1 with
    | none => exact ⟨idle.running, idle.quiet, idle.waits⟩
    | some event =>
      dsimp only [Option.elim]
      rw [execute_dropped (by exact idle.waits ▸ dropped _ event)]
      exact ⟨idle.running, rfl, idle.waits⟩
  · intro e idle ended
    rw [idle.running] at ended
    cases ended

end Protocol

end

end CimArm.Dmodem
