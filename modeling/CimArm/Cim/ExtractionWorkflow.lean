import CimArm.Lib.Trace
import CimArm.System.StateMachine

/-!
# Opening a door

Every door of the safe has a workflow that takes the users' logins, waits for the time
delay, has the board unlock the door, and watches it until it is closed and locked again.
The door behind another one is opened through the workflow of the outer door, which then
holds the workflow of the inner door and forwards events to it.  An outer door without an
inner workflow is a door that stands alone.

The board's reports reach the workflows as in `CimEventDispatcher`, for collector doors and
a build without `CHOW_YANKEE`.  What only concerns extractions, audits and the buzzer is
left out.  The log keeps the entries into states, the logins and timers, and the commands
and alarms that come of them.
-/

namespace CimArm.ExtractionWorkflow

open Engine

inductive Door
  | outer | inner
deriving DecidableEq, Repr

inductive SensorType
  | undefined | locker | plunger | both | plungerExt
deriving DecidableEq, Repr

/-- The settings of the doors, users and profiles. -/
structure Config (User : Type) : Type where
  keyCount : Door → Nat
  delayOpenTime : Door → Nat
  sensorType : Door → SensorType
  doors : User → List Door
  profile : User → Nat
  timeDelayOverride : Nat → Bool
  dualAccessList : List (Nat × Nat)

inductive Event
  | userLogin | openDoor | closeDoor | timerExpired | cancelTimeDelay | unlockError | lockDoor
  | unlockDoor | outerDoorOpen | outerDoorStart | outerDoorCancel
deriving DecidableEq, Repr

inductive FlowState
  | idle | timeDelay | accessTime | waitOuterDoorOpen | waitUnlockDoor | waitOpenDoor
  | waitCloseDoor | waitCloseDoorWarning | waitCloseDoorError | waitLockDoor
  | waitLockDoorError | openDoorViolation | doorLockAndOpen | waitUnlockDoorWithOpenDoor
deriving DecidableEq, Repr

/-- A line of the log. -/
inductive Entry (User : Type)
  /-- The machine of a door enters a state. -/
  | entry (door : Door) (state : FlowState)
  /-- A login is handled. -/
  | login (door : Door) (complete : Bool)
  /-- The timer that runs in a state expires. -/
  | timerExpired (door : Door) (state : FlowState)
  /-- A command to the board, with the door that the users have logged in for. -/
  | unLock (door loginDoor : Door) (user1 : User) (user2 : Option User)
  | doorViolation (door : Door)
  | activateAlarm (door : Door)
deriving DecidableEq, Repr

structure Workflow (User : Type) : Type where
  currentState : FlowState
  user1 : Option User
  user2 : Option User
  forceTimeDelayOverride : Bool
  hasUnlocked : Bool
  /-- Whether the timer runs. -/
  timer : Bool
  /-- What the door knows of its sensors. -/
  isDoorOpen : Bool
  isDoorLock : Bool

/-- The two doors; `hasInner` says that the outer door's workflow holds the inner one's.
`unlockFails` is the board's answer to commands, `raised` an exception on its way. -/
structure World (User : Type) : Type where
  outer : Workflow User
  inner : Workflow User
  hasInner : Bool
  unlockFails : Bool
  raised : Bool
  log : List (Entry User)

namespace World

variable {User : Type}

def workflow (self : World User) : Door → Workflow User
  | .outer => self.outer
  | .inner => self.inner

def modify (d : Door) (f : Workflow User → Workflow User) (self : World User) : World User :=
  match d with
  | .outer => { self with outer := f self.outer }
  | .inner => { self with inner := f self.inner }

def write (line : Entry User) (self : World User) : World User :=
  { self with log := self.log ++ [line] }

/-- The door that users log in for: the inner one, where there is one. -/
def loginDoor (self : World User) (d : Door) : Door :=
  if d = .outer ∧ self.hasInner then .inner else d

def setUsers (d : Door) (user1 user2 : Option User) (self : World User) : World User :=
  self.modify d ({ · with user1, user2 })

def startTimer (d : Door) (self : World User) : World User :=
  self.modify d ({ · with timer := true })

def stopTimer (d : Door) (self : World User) : World User :=
  self.modify d ({ · with timer := false })

def removeLoggedUsers (d : Door) (self : World User) : World User :=
  let self := self.setUsers d none none
  let self := if d = .outer ∧ self.hasInner then self.setUsers .inner none none else self
  self.modify d ({ · with forceTimeDelayOverride := false })

end World

open World

section Machine

variable {User : Type} (cfg : Config User)

def Config.hasAccessToDoor (user : User) (d : Door) : Bool := d ∈ cfg.doors user

def Config.hasDualAccess (profile1 profile2 : Nat) : Bool :=
  cfg.dualAccessList.any fun dual =>
    dual.1 = profile1 ∧ dual.2 = profile2 ∨ dual.1 = profile2 ∧ dual.2 = profile1

def Config.overridesTimeDelay (user : User) : Bool := cfg.timeDelayOverride (cfg.profile user)

def keyCount (d : Door) (w : World User) : Nat := cfg.keyCount (w.loginDoor d)

def getDelayOpenTime (d : Door) (w : World User) : Nat := cfg.delayOpenTime (w.loginDoor d)

/-! ## Guards -/

def isLoginComplete (d : Door) (w : World User) : Bool :=
  if keyCount cfg d w > 2 then false
  else if keyCount cfg d w = 0 then false
  else if (w.workflow d).user1.isNone then false
  else if (w.workflow d).user2.isNone ∧ keyCount cfg d w = 2 then false
  else true

def isLoginIncomplete (d : Door) (w : World User) : Bool := !isLoginComplete cfg d w

/-- A forced override holds for one login. -/
def hasTimeDelay (d : Door) (w : World User) : Bool × World User :=
  if (w.workflow d).forceTimeDelayOverride then
    (false, w.modify d ({ · with forceTimeDelayOverride := false }))
  else if (w.workflow d).user1.any cfg.overridesTimeDelay then (false, w)
  else if d = .outer ∧ w.hasInner ∧ w.inner.isDoorOpen then (false, w)
  else if keyCount cfg d w = 2 ∧ (w.workflow d).user1.isSome ∧
      (w.workflow d).user2.any cfg.overridesTimeDelay then (false, w)
  else (getDelayOpenTime cfg d w ≠ 0, w)

def isDoorLock (d : Door) (w : World User) : Bool := (w.workflow d).isDoorLock

/-! ## Entering and leaving states -/

variable (sendInner : Event → World User → World User) (d : Door)

def idleEntry (w : World User) : World User :=
  let w := w.write (.entry d .idle)
  let w := sendInner .outerDoorCancel w
  let w := w.modify d ({ · with hasUnlocked := false })
  w.removeLoggedUsers d

def idleExit (w : World User) : World User := sendInner .outerDoorStart w

/-- The entry of a state that only starts its timer. -/
def timerEntry (state : FlowState) (w : World User) : World User :=
  (w.write (.entry d state)).startTimer d

def timeDelayEntry : World User → World User := timerEntry d .timeDelay
def waitOpenDoorEntry : World User → World User := timerEntry d .waitOpenDoor
def waitCloseDoorEntry : World User → World User := timerEntry d .waitCloseDoor
def waitCloseDoorWarningEntry : World User → World User := timerEntry d .waitCloseDoorWarning
def waitLockDoorEntry : World User → World User := timerEntry d .waitLockDoor

def accessTimeEntry (w : World User) : World User :=
  ((w.write (.entry d .accessTime)).removeLoggedUsers d).startTimer d

def waitLockDoorErrorEntry (w : World User) : World User :=
  sendInner .outerDoorCancel ((w.write (.entry d .waitLockDoorError)).startTimer d)

def activateAlarm (w : World User) : World User := w.write (.activateAlarm d)

def doorViolationAction (w : World User) : World User := w.write (.doorViolation d)

def doorLockAndOpenEntry (w : World User) : World User :=
  let w := (w.write (.entry d .doorLockAndOpen)).removeLoggedUsers d
  if (w.workflow d).hasUnlocked then w else doorViolationAction d w

def openDoorViolationEntry (w : World User) : World User :=
  sendInner .outerDoorCancel (doorViolationAction d (w.write (.entry d .openDoorViolation)))

def waitCloseDoorErrorEntry (w : World User) : World User :=
  sendInner .outerDoorCancel (activateAlarm d (w.write (.entry d .waitCloseDoorError)))

/-! ## The state machine -/

abbrev Machine (User : Type) := StateMachine FlowState (World User)

abbrev FlowTransition (User : Type) := Transition Event FlowState (World User)

/-- A line of a table. -/
def row (event : Event) (guardCondition : World User → Bool) (nextState : FlowState) :
    FlowTransition User :=
  ⟨some event, test guardCondition, id, nextState⟩

/-- The last line of a table. -/
def stay (state : FlowState) : FlowTransition User := ⟨none, test fun _ => true, id, state⟩

def always (_ : World User) : Bool := true

def idleStateTransitions : List (FlowTransition User) :=
  [row .userLogin (isLoginIncomplete cfg d) .idle,
   ⟨some .userLogin, hasTimeDelay cfg d, id, .timeDelay⟩,
   row .userLogin always .waitUnlockDoor,
   row .unlockError always .idle,
   row .openDoor (isDoorLock d) .doorLockAndOpen,
   row .openDoor always .openDoorViolation,
   row .unlockDoor always .waitLockDoor,
   row .outerDoorStart always .waitOuterDoorOpen,
   row .outerDoorOpen always .waitUnlockDoor,
   stay .idle]

def waitOuterDoorOpenStateTransitions : List (FlowTransition User) :=
  [row .unlockError always .idle,
   row .cancelTimeDelay always .idle,
   row .openDoor (isDoorLock d) .doorLockAndOpen,
   row .openDoor always .openDoorViolation,
   row .outerDoorOpen always .waitUnlockDoor,
   row .outerDoorCancel always .idle,
   stay .waitOuterDoorOpen]

def timeDelayStateTransitions : List (FlowTransition User) :=
  [row .timerExpired always .accessTime,
   row .userLogin always .idle,
   row .openDoor (isDoorLock d) .doorLockAndOpen,
   row .openDoor always .openDoorViolation,
   row .cancelTimeDelay always .idle,
   row .unlockDoor always .openDoorViolation,
   stay .timeDelay]

def accessTimeStateTransitions : List (FlowTransition User) :=
  [row .timerExpired always .idle,
   row .userLogin (isLoginComplete cfg d) .waitUnlockDoor,
   row .userLogin always .accessTime,
   row .unlockError always .idle,
   row .openDoor (isDoorLock d) .doorLockAndOpen,
   row .openDoor always .openDoorViolation,
   stay .accessTime]

def waitUnlockDoorStateTransitions : List (FlowTransition User) :=
  [row .timerExpired always .idle,
   row .openDoor always .waitCloseDoor,
   row .unlockError always .idle,
   row .unlockDoor always .waitOpenDoor,
   stay .waitUnlockDoor]

def waitOpenDoorStateTransitions : List (FlowTransition User) :=
  [row .timerExpired always .waitLockDoor,
   row .openDoor always .waitCloseDoor,
   row .unlockError always .idle,
   row .lockDoor always .idle,
   stay .waitOpenDoor]

def waitCloseDoorStateTransitions : List (FlowTransition User) :=
  [row .userLogin (isLoginIncomplete cfg d) .waitCloseDoor,
   row .userLogin always .waitUnlockDoorWithOpenDoor,
   row .timerExpired always .waitCloseDoorWarning,
   row .closeDoor always .waitLockDoor,
   row .lockDoor always .doorLockAndOpen,
   stay .waitCloseDoor]

def waitCloseDoorWarningStateTransitions : List (FlowTransition User) :=
  [row .userLogin (isLoginIncomplete cfg d) .waitCloseDoorWarning,
   row .userLogin always .waitUnlockDoorWithOpenDoor,
   row .timerExpired always .waitCloseDoorError,
   row .closeDoor always .waitLockDoor,
   row .lockDoor always .doorLockAndOpen,
   stay .waitCloseDoorWarning]

def waitCloseDoorErrorStateTransitions : List (FlowTransition User) :=
  [row .userLogin (isLoginIncomplete cfg d) .waitCloseDoorError,
   row .userLogin always .waitUnlockDoorWithOpenDoor,
   row .closeDoor always .waitLockDoor,
   row .lockDoor always .doorLockAndOpen,
   stay .waitCloseDoorError]

def waitLockDoorStateTransitions : List (FlowTransition User) :=
  [row .timerExpired always .waitLockDoorError,
   row .lockDoor always .idle,
   row .openDoor always .waitCloseDoorWarning,
   stay .waitLockDoor]

def waitLockDoorErrorStateTransitions : List (FlowTransition User) :=
  [⟨some .timerExpired, test always, onContext (activateAlarm d), .waitLockDoorError⟩,
   row .lockDoor always .idle,
   row .openDoor always .waitCloseDoorWarning,
   stay .waitLockDoorError]

def openDoorViolationStateTransitions : List (FlowTransition User) :=
  [row .userLogin (isLoginIncomplete cfg d) .openDoorViolation,
   row .userLogin always .waitUnlockDoorWithOpenDoor,
   row .closeDoor always .idle,
   row .lockDoor always .doorLockAndOpen,
   stay .openDoorViolation]

def doorLockAndOpenStateTransitions : List (FlowTransition User) :=
  [row .closeDoor always .idle,
   row .userLogin (isLoginIncomplete cfg d) .doorLockAndOpen,
   row .userLogin always .waitUnlockDoorWithOpenDoor,
   row .unlockError always .doorLockAndOpen,
   row .unlockDoor always .waitCloseDoor,
   stay .doorLockAndOpen]

def waitUnlockDoorWithOpenDoorStateTransitions : List (FlowTransition User) :=
  [row .timerExpired always .doorLockAndOpen,
   row .unlockError always .doorLockAndOpen,
   row .unlockDoor always .waitCloseDoor,
   stay .waitUnlockDoorWithOpenDoor]

variable (unLock : Machine User → Machine User)

/-- The exception of a command that fails leaves the entry. -/
def waitUnlockDoorEntry (sm : Machine User) : Machine User :=
  let sm := onContext (write (.entry d sm.currentState)) sm
  let sm := unLock sm
  if sm.context.raised then sm else onContext (startTimer d) sm

def states : FlowState → State Event FlowState (World User)
  | .idle =>
    ⟨onContext (idleEntry sendInner d), onContext (idleExit sendInner), idleStateTransitions cfg d⟩
  | .waitOuterDoorOpen => ⟨id, id, waitOuterDoorOpenStateTransitions d⟩
  | .timeDelay =>
    ⟨onContext (timeDelayEntry d), onContext (stopTimer d), timeDelayStateTransitions d⟩
  | .accessTime =>
    ⟨onContext (accessTimeEntry d), onContext (stopTimer d), accessTimeStateTransitions cfg d⟩
  | .waitUnlockDoor =>
    ⟨waitUnlockDoorEntry d unLock, onContext (stopTimer d), waitUnlockDoorStateTransitions⟩
  | .waitOpenDoor =>
    ⟨onContext (waitOpenDoorEntry d), onContext (stopTimer d), waitOpenDoorStateTransitions⟩
  | .waitCloseDoor =>
    ⟨onContext (waitCloseDoorEntry d), onContext (stopTimer d),
      waitCloseDoorStateTransitions cfg d⟩
  | .waitCloseDoorWarning =>
    ⟨onContext (waitCloseDoorWarningEntry d), onContext (stopTimer d),
      waitCloseDoorWarningStateTransitions cfg d⟩
  | .waitCloseDoorError =>
    ⟨onContext (waitCloseDoorErrorEntry sendInner d), id,
      waitCloseDoorErrorStateTransitions cfg d⟩
  | .waitLockDoor =>
    ⟨onContext (waitLockDoorEntry d), onContext (stopTimer d), waitLockDoorStateTransitions⟩
  | .waitLockDoorError =>
    ⟨onContext (waitLockDoorErrorEntry sendInner d), onContext (stopTimer d),
      waitLockDoorErrorStateTransitions d⟩
  | .openDoorViolation =>
    ⟨onContext (openDoorViolationEntry sendInner d), id, openDoorViolationStateTransitions cfg d⟩
  | .doorLockAndOpen =>
    ⟨onContext (doorLockAndOpenEntry d), id, doorLockAndOpenStateTransitions cfg d⟩
  | .waitUnlockDoorWithOpenDoor =>
    ⟨waitUnlockDoorEntry d unLock, onContext (stopTimer d),
      waitUnlockDoorWithOpenDoorStateTransitions⟩

/-- The command goes out if somebody is logged in.  If it fails, the machine handles the
error before the exception goes on; the states that the error leads to send no command. -/
def unLockDoor (sm : Machine User) : Machine User :=
  match (sm.context.workflow d).user1 with
  | none => sm
  | some user1 =>
    let w := sm.context
    let command := .unLock d (w.loginDoor d) user1 (w.workflow d).user2
    let sm := onContext (write command) sm
    if w.unlockFails then
      let sm := executeStateMachine (states cfg sendInner d id) sm .unlockError
      onContext ({ · with raised := true }) sm
    else onContext (modify d ({ · with hasUnlocked := true })) sm

/-- Run the machine of a door. -/
def run (event : Event) (w : World User) : World User :=
  let sm := executeStateMachine (states cfg sendInner d (unLockDoor cfg sendInner d))
    ⟨(w.workflow d).currentState, w⟩ event
  sm.context.modify d ({ · with currentState := sm.currentState })

end Machine

/-! ## Two doors -/

section Doors

variable {User : Type} (cfg : Config User)

/-- The inner door's workflow holds none itself. -/
def executeInner (event : Event) (w : World User) : World User :=
  run cfg (fun _ w => w) .inner event w

/-- What the outer door's workflow sends to the inner one's, if it holds it. -/
def sendInner (event : Event) (w : World User) : World User :=
  if w.hasInner then executeInner cfg event w else w

def execute (d : Door) (event : Event) (w : World User) : World User :=
  match d with
  | .outer => run cfg (sendInner cfg) .outer event w
  | .inner => executeInner cfg event w

/-- A login is handled unless the door is behind another one. -/
def handleLogin (d : Door) (w : World User) : World User :=
  match d with
  | .outer => execute cfg .outer .userLogin (w.write (.login .outer (isLoginComplete cfg .outer w)))
  | .inner => w

def raise (w : World User) : World User := { w with raised := true }

/-- The users that the inner workflow is told of. -/
def setInnerUser1 (d : Door) (user : User) (w : World User) : World User :=
  if d = .outer ∧ w.hasInner then w.modify .inner ({ · with user1 := some user }) else w

def setInnerUser2 (d : Door) (user : User) (w : World User) : World User :=
  if d = .outer ∧ w.hasInner then w.modify .inner ({ · with user2 := some user }) else w

variable [DecidableEq User]

def onLoginUser (d : Door) (user : User) (w : World User) : World User :=
  if !cfg.hasAccessToDoor user (w.loginDoor d) then raise w
  else match (w.workflow d).user1 with
    | none =>
      handleLogin cfg d (setInnerUser1 d user (w.modify d ({ · with user1 := some user })))
    | some user1 =>
      if keyCount cfg d w = 2 then
        if user1 = user then raise w
        else if !cfg.hasDualAccess (cfg.profile user1) (cfg.profile user) then raise w
        else handleLogin cfg d (setInnerUser2 d user (w.modify d ({ · with user2 := some user })))
      else w

omit [DecidableEq User]

def cancelTimeDelay (d : Door) (w : World User) : World User :=
  if (w.workflow d).currentState ≠ .timeDelay then raise w
  else
    let w := execute cfg d .cancelTimeDelay w
    if d = .outer then sendInner cfg .outerDoorCancel w else w

def timerExpired (d : Door) (w : World User) : World User :=
  if (w.workflow d).timer then
    let w := (w.stopTimer d).write (.timerExpired d (w.workflow d).currentState)
    execute cfg d .timerExpired w
  else w

/-- The outer door forwards its opening while the inner one is closed. -/
def onDoorOpen (d : Door) (w : World User) : World User :=
  let w := execute cfg d .openDoor w
  if d = .outer ∧ w.hasInner ∧ !w.inner.isDoorOpen then executeInner cfg .outerDoorOpen w else w

/-! ## Reports of the board -/

def setDoorState (d : Door) (isDoorOpen : Bool) (w : World User) : World User :=
  w.modify d ({ · with isDoorOpen })

def setLockState (d : Door) (isDoorLock : Bool) (w : World User) : World User :=
  w.modify d ({ · with isDoorLock })

/-- The rest of the handling of a report, which an exception skips. -/
def andThen (f : World User → World User) (w : World User) : World User :=
  if w.raised then w else f w

/-- A report of a plunger: whether the door is open. -/
def plunger (d : Door) (isOpen : Bool) (w : World User) : World User :=
  match cfg.sensorType d, isOpen with
  | .plunger, true | .both, true => andThen (setDoorState d true) (onDoorOpen cfg d w)
  | .plungerExt, true => setDoorState d true w
  | .both, false => setDoorState d false (execute cfg d .closeDoor w)
  | .plunger, false | .plungerExt, false =>
    execute cfg d .lockDoor (setDoorState d false (execute cfg d .closeDoor w))
  | .undefined, _ | .locker, _ => w

/-- A report of a lock: whether it is unlocked. -/
def locker (d : Door) (isUnlocked : Bool) (w : World User) : World User :=
  match cfg.sensorType d, isUnlocked with
  | .locker, false =>
    setLockState d true (execute cfg d .lockDoor (execute cfg d .closeDoor w))
  | .locker, true => andThen (setLockState d false) (onDoorOpen cfg d w)
  | .both, false => setLockState d true (execute cfg d .lockDoor w)
  | .both, true => setLockState d false (execute cfg d .unlockDoor w)
  | .undefined, _ | .plunger, _ | .plungerExt, _ => w

/-! ## Runs -/

inductive Op (User : Type)
  | onLoginUser (d : Door) (user : User)
  | removeLoggedUsers (d : Door)
  | forceTimeDelayOverride (d : Door) (value : Bool)
  | setInnerDoorWorkflow (hasInner : Bool)
  | cancelTimeDelay (d : Door)
  | timerExpired (d : Door)
  | plunger (d : Door) (isOpen : Bool)
  | locker (d : Door) (isUnlocked : Bool)
  /-- How the board answers from now on. -/
  | board (unlockFails : Bool)
deriving DecidableEq, Repr

def step (op : Op User) (w : World User) : World User :=
  let w := { w with raised := false }
  match op with
  | .onLoginUser d user => onLoginUser cfg d user w
  | .removeLoggedUsers d => w.removeLoggedUsers d
  | .forceTimeDelayOverride d value => w.modify d ({ · with forceTimeDelayOverride := value })
  | .setInnerDoorWorkflow hasInner => { w with hasInner }
  | .cancelTimeDelay d => cancelTimeDelay cfg d w
  | .timerExpired d => timerExpired cfg d w
  | .plunger d isOpen => plunger cfg d isOpen w
  | .locker d isUnlocked => locker cfg d isUnlocked w
  | .board unlockFails => { w with unlockFails }

/-- A workflow as `initialize` leaves it, for a door that has not reported yet. -/
def Workflow.initial : Workflow User := ⟨.idle, none, none, false, false, false, false, false⟩

def World.start : World User := ⟨.initial, .initial, false, false, false, []⟩

end Doors

end CimArm.ExtractionWorkflow
