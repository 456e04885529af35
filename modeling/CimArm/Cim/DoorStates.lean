import CimArm.Cim.WorkflowMoves

/-!
# The states of a machine and of its door

A machine learns of its door from the reports of the sensors.  `At` says where a machine is,
and `Kept` which sets of states it leaves only when its door opens or closes, or its lock
opens; every other step keeps them (`Kept.stepSame`).

* `step_opens`: after a report that opens the door the machine takes it to be open.
* `step_closes`: after one that closes it the machine does not, unless it waits for the board
  with the door open.
-/

namespace CimArm.ExtractionWorkflow

open Engine World

variable {User : Type} {cfg : Config User} {f : Event → World User → World User} {d : Door}

/-! ## Reports -/

/-- The states in which a machine takes its door to be open. -/
def FlowState.opened : FlowState → Bool
  | .waitCloseDoor | .waitCloseDoorWarning | .waitCloseDoorError | .openDoorViolation
  | .doorLockAndOpen | .waitUnlockDoorWithOpenDoor => true
  | _ => false

/-- The reports that close a door for its machine. -/
def Op.Closes (cfg : Config User) (d : Door) : Op User → Prop
  | .plunger door isOpen =>
    door = d ∧ isOpen = false ∧
      (cfg.sensorType d = .plunger ∨ cfg.sensorType d = .plungerExt ∨ cfg.sensorType d = .both)
  | .locker door isUnlocked => door = d ∧ isUnlocked = false ∧ cfg.sensorType d = .locker
  | _ => False

instance (d : Door) : (op : Op User) → Decidable (op.Closes cfg d)
  | .plunger .. | .locker .. => inferInstanceAs (Decidable (_ ∧ _))
  | .onLoginUser .. | .removeLoggedUsers _ | .forceTimeDelayOverride .. | .setInnerDoorWorkflow _
  | .cancelTimeDelay _ | .timerExpired _ | .board _ => inferInstanceAs (Decidable False)

/-! ## The state of a machine -/

/-- The machine of a door is in one of some states. -/
def At (P : FlowState → Prop) (d : Door) (w : World User) : Prop := P (w.workflow d).currentState

/-- States that a machine leaves only when its door opens or closes, or its lock opens. -/
structure Kept (cfg : Config User) (P : FlowState → Prop) : Prop where
  arrow : ∀ {state next : FlowState} {event : Event}, (event, next) ∈ arrows state →
    event ≠ .openDoor → event ≠ .closeDoor → event ≠ .unlockDoor → P state → P next
  login : ∀ (d : Door) {state : FlowState} (w : World User), P state → P (loginNext cfg d state w).1

variable {P : FlowState → Prop}

theorem At.modify {w : World User} (here : At P d w) (door : Door)
    {h : Workflow User → Workflow User} (state : ∀ x, (h x).currentState = x.currentState) :
    At P d (w.modify door h) := by
  have same : ((w.modify door h).workflow d).currentState = (w.workflow d).currentState := by
    cases door <;> cases d <;> first
      | rfl
      | exact state _
  unfold At
  rw [same]
  exact here

theorem At.write {w : World User} (here : At P d w) (line : Entry User) :
    At P d (w.write line) := by
  unfold At
  rw [workflow_write]
  exact here

theorem At.raise {w : World User} (here : At P d w) (raised : Bool) :
    At P d { w with raised } := by
  cases d with
  | outer => exact here
  | inner => exact here

theorem At.removeLoggedUsers {w : World User} (here : At P d w) (door : Door) :
    At P d (w.removeLoggedUsers door) := by
  unfold World.removeLoggedUsers
  dsimp only
  have own : At P d (w.setUsers door none none) := here.modify door fun _ => rfl
  refine At.modify ?_ door fun _ => rfl
  split
  · exact own.modify .inner (h := ({ · with user1 := none, user2 := none })) fun _ => rfl
  · exact own

namespace Kept

variable (kept : Kept cfg P)
include kept

theorem move {next : FlowState} (here : P next) (state : FlowState) (w : World User) :
    P (move cfg f d (unLockDoor cfg f d) state next w).currentState := by
  rcases @enter_currentState _ cfg f d state next w with same | ⟨_, failed⟩
  · rw [same]
    exact here
  · exact kept.arrow failed (by decide) (by decide) (by decide) here

variable {event : Event}

theorem run {w : World User}
    (arrows : ∀ next, (event, next) ∈ arrows (w.workflow d).currentState → P next)
    (here : (∀ next, (event, next) ∉ ExtractionWorkflow.arrows (w.workflow d).currentState) →
      At P d w)
    (login : event ≠ .userLogin) : At P d (run cfg f d event w) := by
  unfold At
  rw [run_currentState]
  refine execute_other (R := fun sm => P sm.currentState) login w
    (fun next mem => kept.move (arrows next mem) _ w) here fun error expired => ?_
  refine here fun next mem => ?_
  rw [error, expired] at mem
  simp [ExtractionWorkflow.arrows] at mem

theorem runQuiet (opens : event ≠ .openDoor) (closes : event ≠ .closeDoor)
    (unlocks : event ≠ .unlockDoor) {w : World User} (here : At P d w) :
    At P d (ExtractionWorkflow.run cfg f d event w) := by
  by_cases login : event = .userLogin
  · unfold At
    rw [login, run_currentState, execute_login]
    exact kept.move (kept.login d w here) _ _
  · exact kept.run (fun next mem => kept.arrow mem opens closes unlocks here) (fun _ => here) login

theorem frame : Frame (sendInner cfg) .outer (At P .inner : World User → Prop) where
  write _ _ _ _ here := here
  modify _ _ _ here := here
  removeLoggedUsers here := here.removeLoggedUsers .outer
  send {event w} coupling here := by
    unfold sendInner
    split
    · rcases coupling with rfl | rfl
      · exact kept.runQuiet (by decide) (by decide) (by decide) here
      · exact kept.runQuiet (by decide) (by decide) (by decide) here
    · exact here
  raise here := here

theorem executeOther {door : Door} (other : door ≠ d) {w : World User} (here : At P d w) :
    At P d (execute cfg door event w) := by
  cases door with
  | outer =>
    cases d with
    | outer => exact absurd rfl other
    | inner => exact kept.frame.run (fun _ here => here) event here
  | inner =>
    cases d with
    | outer =>
      unfold At
      rw [show (execute cfg .inner event w).workflow .outer = w.outer from
        (executeInner_innerOnly event w).outer]
      exact here
    | inner => exact absurd rfl other

theorem execute (opens : event ≠ .openDoor) (closes : event ≠ .closeDoor)
    (unlocks : event ≠ .unlockDoor) (door : Door) {w : World User} (here : At P d w) :
    At P d (execute cfg door event w) := by
  by_cases own : door = d
  · subst own
    cases door with
    | outer => exact kept.runQuiet opens closes unlocks here
    | inner => exact kept.runQuiet opens closes unlocks here
  · exact kept.executeOther own here

theorem onDoorOpen {door : Door} {w : World User}
    (here : At P d (ExtractionWorkflow.execute cfg door .openDoor w)) :
    At P d (onDoorOpen cfg door w) := by
  unfold ExtractionWorkflow.onDoorOpen
  dsimp only
  split
  · exact kept.execute (by decide) (by decide) (by decide) .inner here
  · exact here

theorem handleLogin {w : World User} (here : At P d w) (door : Door) :
    At P d (handleLogin cfg door w) := by
  cases door with
  | outer => exact kept.execute (by decide) (by decide) (by decide) .outer (here.write _)
  | inner => exact here

theorem cancelTimeDelay {w : World User} (here : At P d w) (door : Door) :
    At P d (cancelTimeDelay cfg door w) := by
  unfold ExtractionWorkflow.cancelTimeDelay
  split
  · exact here.raise true
  have cancelled : At P d (ExtractionWorkflow.execute cfg door .cancelTimeDelay w) :=
    kept.execute (by decide) (by decide) (by decide) door here
  dsimp only
  split
  · unfold sendInner
    split
    · exact kept.execute (by decide) (by decide) (by decide) .inner cancelled
    · exact cancelled
  · exact cancelled

theorem timerExpired {w : World User} (here : At P d w) (door : Door) :
    At P d (timerExpired cfg door w) := by
  unfold ExtractionWorkflow.timerExpired
  split
  · have stopped : At P d (w.stopTimer door) := here.modify door fun _ => rfl
    exact kept.execute (by decide) (by decide) (by decide) door (stopped.write _)
  · exact here

theorem onLoginUser [DecidableEq User] {w : World User} (here : At P d w) (door : Door)
    (user : User) : At P d (onLoginUser cfg door user w) := by
  have first :
      At P d (setInnerUser1 door user (w.modify door ({ · with user1 := some user }))) := by
    have set : At P d (w.modify door ({ · with user1 := some user })) :=
      here.modify door fun _ => rfl
    unfold setInnerUser1
    split
    · exact set.modify .inner fun _ => rfl
    · exact set
  have second :
      At P d (setInnerUser2 door user (w.modify door ({ · with user2 := some user }))) := by
    have set : At P d (w.modify door ({ · with user2 := some user })) :=
      here.modify door fun _ => rfl
    unfold setInnerUser2
    split
    · exact set.modify .inner fun _ => rfl
    · exact set
  unfold ExtractionWorkflow.onLoginUser
  split
  · exact here.raise true
  split
  · exact kept.handleLogin first door
  split
  · split
    · exact here.raise true
    split
    · exact here.raise true
    · exact kept.handleLogin second door
  · exact here

theorem step [DecidableEq User] {op : Op User} (noPlunger : ∀ isOpen, op ≠ .plunger d isOpen)
    (noLocker : ∀ isUnlocked, op ≠ .locker d isUnlocked) {w : World User} (here : At P d w) :
    At P d (step cfg op w) := by
  have quiet := here.raise false
  have others {door : Door} (other : door ≠ d) (event : Event) (w : World User)
      (_ : event = .closeDoor ∨ event = .lockDoor ∨ event = .unlockDoor) (here : At P d w) :
      At P d (ExtractionWorkflow.execute cfg door event w) := kept.executeOther other here
  unfold ExtractionWorkflow.step
  cases op with
  | plunger door isOpen =>
    have other : door ≠ d := fun same => noPlunger isOpen (by rw [same])
    exact plunger_rule (others other) (fun _ _ here => here.modify door fun _ => rfl) quiet
      fun _ => kept.onDoorOpen (kept.executeOther other quiet)
  | locker door isUnlocked =>
    have other : door ≠ d := fun same => noLocker isUnlocked (by rw [same])
    exact locker_rule (others other) (fun _ _ here => here.modify door fun _ => rfl) quiet
      fun _ => kept.onDoorOpen (kept.executeOther other quiet)
  | onLoginUser door user => exact kept.onLoginUser quiet door user
  | removeLoggedUsers door => exact quiet.removeLoggedUsers door
  | forceTimeDelayOverride door value => exact quiet.modify door fun _ => rfl
  | cancelTimeDelay door => exact kept.cancelTimeDelay quiet door
  | timerExpired door => exact kept.timerExpired quiet door
  | setInnerDoorWorkflow hasInner =>
    cases d with
    | outer => exact here
    | inner => exact here
  | board unlockFails =>
    cases d with
    | outer => exact here
    | inner => exact here

theorem stepSame [DecidableEq User] {op : Op User} (opens : ¬op.Opens cfg d)
    (closes : ¬op.Closes cfg d) {w : World User} (here : At P d w)
    (unlocked : op = .locker d true → cfg.sensorType d = .both →
      ∀ next, (.unlockDoor, next) ∈ arrows (w.workflow d).currentState → P next) :
    At P d (ExtractionWorkflow.step cfg op w) := by
  by_cases noPlunger : ∀ isOpen, op ≠ .plunger d isOpen
  · by_cases noLocker : ∀ isUnlocked, op ≠ .locker d isUnlocked
    · exact kept.step noPlunger noLocker here
    · obtain ⟨isUnlocked, eq⟩ := Classical.not_forall.1 noLocker
      obtain rfl := Classical.not_not.1 eq
      have quiet := here.raise false
      show At P d (locker cfg d isUnlocked { w with raised := false })
      unfold locker
      cases sensor : cfg.sensorType d <;> cases isUnlocked
      case locker.false => exact absurd ⟨rfl, rfl, sensor⟩ closes
      case locker.true => exact absurd ⟨rfl, rfl, sensor⟩ opens
      case both.false =>
        exact (kept.execute (by decide) (by decide) (by decide) d quiet).modify d fun _ => rfl
      case both.true =>
        have leads := unlocked rfl sensor
        have ran : At P d
            (ExtractionWorkflow.execute cfg d .unlockDoor { w with raised := false }) := by
          cases d with
          | outer => exact kept.run leads (fun _ => quiet) (by decide)
          | inner => exact kept.run leads (fun _ => quiet) (by decide)
        exact ran.modify d fun _ => rfl
      all_goals exact quiet
  · obtain ⟨isOpen, eq⟩ := Classical.not_forall.1 noPlunger
    obtain rfl := Classical.not_not.1 eq
    have quiet := here.raise false
    show At P d (plunger cfg d isOpen { w with raised := false })
    unfold plunger
    cases sensor : cfg.sensorType d <;> cases isOpen
    case plunger.true | both.true => exact absurd ⟨rfl, rfl, by rw [sensor]; decide⟩ opens
    case plunger.false | plungerExt.false | both.false =>
      exact absurd ⟨rfl, rfl, by rw [sensor]; decide⟩ closes
    case plungerExt.true => exact quiet.modify d fun _ => rfl
    all_goals exact quiet

end Kept

/-! ## Open and closed doors -/

theorem opened_of_arrow {state next : FlowState} {event : Event}
    (mem : (event, next) ∈ arrows state) (closes : event ≠ .closeDoor)
    (opened : state.opened = true) : next.opened = true := by
  have arrow : ∀ a ∈ arrows state, a.1 ≠ .closeDoor → a.2.opened = true := by
    cases state with
    | waitCloseDoor | waitCloseDoorWarning | waitCloseDoorError | openDoorViolation
    | doorLockAndOpen | waitUnlockDoorWithOpenDoor => decide
    | _ => cases opened
  exact arrow _ mem closes

theorem kept_opened : Kept cfg (·.opened = true) where
  arrow mem _ closes _ opened := opened_of_arrow mem closes opened
  login d state w opened := by
    cases state with
    | waitCloseDoor | waitCloseDoorWarning | waitCloseDoorError | openDoorViolation
    | doorLockAndOpen =>
      unfold loginNext
      dsimp only
      split
      · rfl
      · rfl
    | waitUnlockDoorWithOpenDoor => rfl
    | _ => cases opened

theorem arrows_shut {state next : FlowState} {event : Event} (mem : (event, next) ∈ arrows state)
    (opens : event ≠ .openDoor) (shut : state.opened = false)
    (unlocks : event = .unlockDoor → state ≠ .timeDelay) : next.opened = false := by
  have arrow : ∀ a ∈ arrows state, a.1 ≠ .openDoor → (a.1 = .unlockDoor → state ≠ .timeDelay) →
      a.2.opened = false := by
    cases state with
    | waitCloseDoor | waitCloseDoorWarning | waitCloseDoorError | openDoorViolation
    | doorLockAndOpen | waitUnlockDoorWithOpenDoor => cases shut
    | _ => decide
  exact arrow _ mem opens unlocks

theorem kept_shut : Kept cfg (·.opened = false) where
  arrow mem opens _ unlocks shut := arrows_shut mem opens shut fun event => absurd event unlocks
  login d state w shut := by
    cases state with
    | idle =>
      unfold loginNext
      dsimp only
      split
      · split
        · rfl
        · rfl
      · rfl
    | accessTime =>
      unfold loginNext
      dsimp only
      split
      · rfl
      · rfl
    | timeDelay | waitOuterDoorOpen | waitUnlockDoor | waitOpenDoor | waitLockDoor
    | waitLockDoorError => rfl
    | _ => cases shut

theorem openNext_opened (state : FlowState) (w : World User) :
    (openNext d state w).opened = true := by
  unfold openNext
  cases state with
  | idle | waitOuterDoorOpen | timeDelay | accessTime =>
    dsimp only
    split
    · rfl
    · rfl
  | _ => rfl

theorem execute_openDoor_opened (w : World User) :
    At (·.opened = true) d (execute cfg d .openDoor w) := by
  have ran (f : Event → World User → World User) :
      At (·.opened = true) d (run cfg f d .openDoor w) := by
    unfold At
    rw [run_currentState, execute_openDoor]
    exact kept_opened.move (openNext_opened _ w) _ w
  cases d with
  | outer => exact ran _
  | inner => exact ran _

theorem execute_closeDoor_shut {w : World User}
    (waits : (w.workflow d).currentState ≠ .waitUnlockDoorWithOpenDoor) :
    At (·.opened = false) d (execute cfg d .closeDoor w) := by
  have arrow : (∀ next, (.closeDoor, next) ∈ arrows (w.workflow d).currentState →
        next.opened = false) ∧
      ((∀ next, (.closeDoor, next) ∉ arrows (w.workflow d).currentState) →
        (w.workflow d).currentState.opened = false) := by
    generalize (w.workflow d).currentState = state at waits
    cases state with
    | waitUnlockDoorWithOpenDoor => exact absurd rfl waits
    | waitCloseDoor | waitCloseDoorWarning | waitCloseDoorError | openDoorViolation
    | doorLockAndOpen => simp [arrows, FlowState.opened]
    | _ => simp [arrows, FlowState.opened]
  cases d with
  | outer => exact kept_shut.run arrow.1 arrow.2 (by decide)
  | inner => exact kept_shut.run arrow.1 arrow.2 (by decide)

variable [DecidableEq User]

theorem step_opens {op : Op User} (opens : op.Opens cfg d) (w : World User) :
    At (·.opened = true) d (step cfg op w) := by
  have opened : At (·.opened = true) d (onDoorOpen cfg d { w with raised := false }) :=
    kept_opened.onDoorOpen (execute_openDoor_opened _)
  cases op with
  | plunger door isOpen =>
    obtain ⟨rfl, rfl, sensor⟩ := opens
    show At _ door (plunger cfg door true _)
    unfold plunger andThen
    rcases sensor with sensor | sensor <;> rw [sensor] <;> dsimp only <;> split
    case inl.isTrue | inr.isTrue => exact opened
    all_goals exact opened.modify door fun _ => rfl
  | locker door isUnlocked =>
    obtain ⟨rfl, rfl, sensor⟩ := opens
    show At _ door (locker cfg door true _)
    unfold locker andThen
    rw [sensor]
    dsimp only
    split
    · exact opened
    · exact opened.modify door fun _ => rfl
  | _ => cases opens

theorem step_closes {op : Op User} (closes : op.Closes cfg d) {w : World User}
    (waits : (w.workflow d).currentState ≠ .waitUnlockDoorWithOpenDoor) :
    At (·.opened = false) d (step cfg op w) := by
  have state : (({ w with raised := false } : World User).workflow d).currentState ≠
      .waitUnlockDoorWithOpenDoor := by
    cases d with
    | outer => exact waits
    | inner => exact waits
  have shut : At (·.opened = false) d (execute cfg d .closeDoor { w with raised := false }) :=
    execute_closeDoor_shut state
  have locked {w : World User} (shut : At (·.opened = false) d w) :
      At (·.opened = false) d (execute cfg d .lockDoor w) :=
    kept_shut.execute (by decide) (by decide) (by decide) d shut
  cases op with
  | plunger door isOpen =>
    obtain ⟨rfl, rfl, sensor⟩ := closes
    show At _ door (plunger cfg door false _)
    unfold plunger
    rcases sensor with sensor | sensor | sensor <;> rw [sensor] <;> dsimp only
    · exact locked (shut.modify door fun _ => rfl)
    · exact locked (shut.modify door fun _ => rfl)
    · exact shut.modify door fun _ => rfl
  | locker door isUnlocked =>
    obtain ⟨rfl, rfl, sensor⟩ := closes
    show At _ door (locker cfg door false _)
    unfold locker
    rw [sensor]
    exact (locked shut).modify door fun _ => rfl
  | _ => cases closes

end CimArm.ExtractionWorkflow
