/-!
# The engine of the transport protocols

`ptsm.c`: a protocol is a table of transitions.  An event looks for the first row with
the state and the event, and its function may answer with a further event, which is
executed next; an event without a row is dropped.  The exit state ends the operation.

The functions of the protocols answer at most three events in a row, so the engine is given
fuel for four.
-/

namespace CimArm.Dmodem

structure ProtoTransition (St Ev S : Type) : Type where
  currentState : St
  event : Ev
  nextState : St
  /-- `none` is `NO_EVT`. -/
  fhandler : S → Option Ev × S

variable {St Ev S : Type} [DecidableEq St] [DecidableEq Ev]

def dmGetTransition (sm : List (ProtoTransition St Ev S)) (state : St) (event : Ev) :
    Option (ProtoTransition St Ev S) :=
  sm.find? fun p => p.currentState = state ∧ p.event = event

/-- What an event does, with the events that follow from it. -/
def protoEngine (sm : List (ProtoTransition St Ev S)) (finalState : St) :
    Nat → Ev → St × S → St × S
  | 0, _, s => s
  | fuel + 1, event, (state, s) =>
    match dmGetTransition sm state event with
    | none => (state, s)
    | some p =>
      if p.nextState = finalState then (p.nextState, (p.fhandler s).2)
      else
        match (p.fhandler s).1 with
        | none => (p.nextState, (p.fhandler s).2)
        | some newEvent => protoEngine sm finalState fuel newEvent (p.nextState, (p.fhandler s).2)

/-- The bytes that have come in, one event each; what is left when the operation ends
stays behind. -/
def feed (receive : UInt8 → St × S → St × S) (finalState : St) :
    List UInt8 → St × S → (St × S) × List UInt8
  | [], s => (s, [])
  | b :: rest, s =>
    if (receive b s).1 = finalState then (receive b s, rest)
    else feed receive finalState rest (receive b s)

variable {sm : List (ProtoTransition St Ev S)} {finalState : St}

section

variable {state next : St} {event : Ev} {h : S → Option Ev × S}

theorem protoEngine_quiet (fuel : Nat)
    (found : dmGetTransition sm state event = some ⟨state, event, next, h⟩)
    (running : next ≠ finalState) {s : S} (quiet : (h s).1 = none) :
    protoEngine sm finalState (fuel + 1) event (state, s) = (next, (h s).2) := by
  rw [protoEngine, found]
  dsimp only
  rw [if_neg running, quiet]

theorem protoEngine_event (fuel : Nat)
    (found : dmGetTransition sm state event = some ⟨state, event, next, h⟩)
    (running : next ≠ finalState) {s : S} {newEvent : Ev} (follows : (h s).1 = some newEvent) :
    protoEngine sm finalState (fuel + 1) event (state, s) =
      protoEngine sm finalState fuel newEvent (next, (h s).2) := by
  rw [protoEngine, found]
  dsimp only
  rw [if_neg running, follows]

end

theorem feed_cons {receive : UInt8 → St × S → St × S} {b : UInt8} {s after : St × S}
    (received : receive b s = after) (running : after.1 ≠ finalState) (rest : List UInt8) :
    feed receive finalState (b :: rest) s = feed receive finalState rest after := by
  rw [feed, received, if_neg running]

end CimArm.Dmodem
