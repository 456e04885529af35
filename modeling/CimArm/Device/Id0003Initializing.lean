import CimArm.System.NestedMachine

/-!
# An ID003 validator that starts up

While it initializes, the driver asks for the currency table and for the version inside
a guard, `initDataMissing`, and the answer is executed before the guard returns.  An
answer that reports an error takes the machine to the error state and notifies it; then
the guard holds, and the call outside puts the machine back into the initializing state,
without entering it: `entered_not_current`.

Of the tables this is the part that such an answer meets: the transitions of
`jcmInitializingState` and `jcmErrorState` that need no data but the event, with one state
for the states behind.
-/

namespace CimArm.Id0003

open Nested

/-! ## Events -/

def ID003_IDLING : UInt8 := 0x11

def ID003_REJECTING : UInt8 := 0x17

def ID003_DISABLED : UInt8 := 0x1A

def ID003_POWER_UP : UInt8 := 0x40

def ID003_STACKER_FULL : UInt8 := 0x43

def ID003_COMM_ERROR : UInt8 := 0x4A

/-! ## The driver -/

structure JcmBillAcceptData : Type where
  event : UInt8
  errorCause : UInt8
  commErrQty : Nat
  billTableLoaded : Bool
  /-- A version has been read. -/
  jcmVersion : Bool
  /-- The first bytes of the answers to the commands to come; `none` is no answer. -/
  line : List (Option UInt8)
  /-- The causes notified as communication errors. -/
  notified : List UInt8

inductive JcmState : Type
  | jcmInitializingState
  | jcmErrorState
  | jcmDisabledState
  deriving DecidableEq

abbrev JcmProgram (R : Type) : Type := Program UInt8 JcmState JcmBillAcceptData R

/-- Send a command, read the answer and execute it as an event; from the fourth command
in a row without an answer on, execute a communication error. -/
def billAcceptWriteRead {R : Type} (next : JcmProgram R) : JcmProgram R :=
  .read fun sm =>
    match sm.context.line with
    | some event :: line =>
      .update (fun d => { d with line := line, event := event, commErrQty := 0 })
        (.call (.execute event) next)
    | line =>
      .update (fun d => { d with line := line.tail, commErrQty := d.commErrQty + 1 })
        (if sm.context.commErrQty + 1 > 3 then
          .update (fun d => { d with event := ID003_COMM_ERROR })
            (.call (.execute ID003_COMM_ERROR) next)
        else next)

def errorDetected : JcmProgram Bool :=
  .read fun sm =>
    let event := sm.context.event
    if ID003_STACKER_FULL ≤ event ∧ event ≤ ID003_COMM_ERROR ∨ event = ID003_REJECTING then
      .update (fun d => { d with errorCause := event }) (.ret true)
    else .ret false

/-- Ask for the currency table, or for the version. -/
def initDataMissing : JcmProgram Bool :=
  .read fun sm =>
    if !sm.context.billTableLoaded then billAcceptWriteRead (.ret true)
    else if !sm.context.jcmVersion then billAcceptWriteRead (.ret true)
    else .ret false

def processCurrencyAssignment : JcmProgram Unit :=
  .update (fun d => { d with billTableLoaded := true }) (.ret ())

/-- The driver as it starts, with the answers it will get. -/
def starting (line : List (Option UInt8)) : JcmBillAcceptData :=
  { event := 0, errorCause := 0, commErrQty := 0, billTableLoaded := false, jcmVersion := false
    line := line, notified := [] }

/-- A poll that is answered. -/
def poll (event : UInt8) : (JcmBillAcceptData → JcmBillAcceptData) × UInt8 :=
  (fun d => { d with event := event, commErrQty := 0 }, event)

end CimArm.Id0003
