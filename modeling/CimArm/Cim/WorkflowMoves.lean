import CimArm.Cim.ExtractionWorkflow

/-!
# The moves of a door's machine

An event moves a machine along one line of the table of its state.  `arrows` lists the
lines that lead to another state, apart from those of a login, which `loginNext` describes.

* `execute_login`, `execute_other`: every event is such a move.
* `Frame`: what the updates of a machine keep, its events keep.
* `InnerOnly`, `executeInner_start`, `executeInner_cancel`: what reaches the other door.
* `Changes`: users only leave, and the log grows by lines of a kind.
* `execute_currentState`, `handleLogin_currentState`: where a machine ends.
-/

namespace CimArm.ExtractionWorkflow

open Engine World List

variable {User : Type} {cfg : Config User} {f : Event → World User → World User} {d : Door}
  {g : Machine User → Machine User}

theorem workflow_write (line : Entry User) (w : World User) (d : Door) :
    (w.write line).workflow d = w.workflow d := by
  cases d <;> rfl

/-- Where a login leads, and what the guards leave. -/
def loginNext (cfg : Config User) (d : Door) (state : FlowState) (w : World User) :
    FlowState × World User :=
  match state with
  | .idle =>
    if isLoginComplete cfg d w then
      (if (hasTimeDelay cfg d w).1 then .timeDelay else .waitUnlockDoor, (hasTimeDelay cfg d w).2)
    else (.idle, w)
  | .timeDelay => (.idle, w)
  | .accessTime => (if isLoginComplete cfg d w then .waitUnlockDoor else .accessTime, w)
  | .waitCloseDoor | .waitCloseDoorWarning | .waitCloseDoorError | .openDoorViolation
  | .doorLockAndOpen =>
    (if isLoginComplete cfg d w then .waitUnlockDoorWithOpenDoor else state, w)
  | .waitOuterDoorOpen | .waitUnlockDoor | .waitOpenDoor | .waitLockDoor | .waitLockDoorError
  | .waitUnlockDoorWithOpenDoor => (state, w)

/-- The lines of the tables for other events that lead to another state. -/
def arrows : FlowState → List (Event × FlowState)
  | .idle =>
    [(.openDoor, .doorLockAndOpen), (.openDoor, .openDoorViolation), (.unlockDoor, .waitLockDoor),
     (.outerDoorStart, .waitOuterDoorOpen), (.outerDoorOpen, .waitUnlockDoor)]
  | .waitOuterDoorOpen =>
    [(.unlockError, .idle), (.cancelTimeDelay, .idle), (.openDoor, .doorLockAndOpen),
     (.openDoor, .openDoorViolation), (.outerDoorOpen, .waitUnlockDoor), (.outerDoorCancel, .idle)]
  | .timeDelay =>
    [(.timerExpired, .accessTime), (.openDoor, .doorLockAndOpen), (.openDoor, .openDoorViolation),
     (.cancelTimeDelay, .idle), (.unlockDoor, .openDoorViolation)]
  | .accessTime =>
    [(.timerExpired, .idle), (.unlockError, .idle), (.openDoor, .doorLockAndOpen),
     (.openDoor, .openDoorViolation)]
  | .waitUnlockDoor =>
    [(.timerExpired, .idle), (.openDoor, .waitCloseDoor), (.unlockError, .idle),
     (.unlockDoor, .waitOpenDoor)]
  | .waitOpenDoor =>
    [(.timerExpired, .waitLockDoor), (.openDoor, .waitCloseDoor), (.unlockError, .idle),
     (.lockDoor, .idle)]
  | .waitCloseDoor =>
    [(.timerExpired, .waitCloseDoorWarning), (.closeDoor, .waitLockDoor),
     (.lockDoor, .doorLockAndOpen)]
  | .waitCloseDoorWarning =>
    [(.timerExpired, .waitCloseDoorError), (.closeDoor, .waitLockDoor),
     (.lockDoor, .doorLockAndOpen)]
  | .waitCloseDoorError => [(.closeDoor, .waitLockDoor), (.lockDoor, .doorLockAndOpen)]
  | .waitLockDoor =>
    [(.timerExpired, .waitLockDoorError), (.lockDoor, .idle), (.openDoor, .waitCloseDoorWarning)]
  | .waitLockDoorError => [(.lockDoor, .idle), (.openDoor, .waitCloseDoorWarning)]
  | .openDoorViolation => [(.closeDoor, .idle), (.lockDoor, .doorLockAndOpen)]
  | .doorLockAndOpen => [(.closeDoor, .idle), (.unlockDoor, .waitCloseDoor)]
  | .waitUnlockDoorWithOpenDoor =>
    [(.timerExpired, .doorLockAndOpen), (.unlockError, .doorLockAndOpen),
     (.unlockDoor, .waitCloseDoor)]

/-- Move from a state to the next one, or stay. -/
def move (cfg : Config User) (f : Event → World User → World User) (d : Door)
    (g : Machine User → Machine User) (state next : FlowState) (w : World User) : Machine User :=
  if next ≠ state then
    (states cfg f d g next).entry ((states cfg f d g state).exit ⟨next, w⟩)
  else ⟨next, w⟩

theorem move_self (state : FlowState) (w : World User) :
    move cfg f d g state state w = ⟨state, w⟩ :=
  if_neg (not_not_intro rfl)

variable {state next : FlowState}

theorem move_ne (ne : next ≠ state) (w : World User) : move cfg f d g state next w =
      (states cfg f d g next).entry ((states cfg f d g state).exit ⟨next, w⟩) :=
  if_pos ne

theorem takeTransition_move {event : Option Event} {guardCondition : World User → Bool × World User}
    (w : World User) : takeTransition (states cfg f d g) state ⟨event, guardCondition, id, next⟩ w =
      move cfg f d g state next w := by
  unfold takeTransition move
  dsimp only [id]
  split <;> rfl

/-! ## Logins -/

theorem execute_login (state : FlowState) (w : World User) :
    executeStateMachine (states cfg f d g) ⟨state, w⟩ .userLogin =
      move cfg f d g state (loginNext cfg d state w).1 (loginNext cfg d state w).2 := by
  unfold executeStateMachine
  cases state with
  | idle =>
    cases complete : isLoginComplete cfg d w with
    | false =>
      simp [states, idleStateTransitions, findTransition, row, Transition.Fits, test,
        isLoginIncomplete, complete, loginNext, takeTransition_move]
    | true =>
      rcases delay : hasTimeDelay cfg d w with ⟨holds, w'⟩
      cases holds <;>
        simp [states, idleStateTransitions, findTransition, row, Transition.Fits, test, always,
          isLoginIncomplete, complete, delay, loginNext, takeTransition_move]
  | timeDelay =>
    simp [states, timeDelayStateTransitions, findTransition, row, Transition.Fits, test, always,
      loginNext, takeTransition_move]
  | accessTime =>
    cases complete : isLoginComplete cfg d w <;>
      simp [states, accessTimeStateTransitions, findTransition, row, Transition.Fits, test, always,
        complete, loginNext, takeTransition_move]
  | waitCloseDoor =>
    cases complete : isLoginComplete cfg d w <;>
      simp [states, waitCloseDoorStateTransitions, findTransition, row, Transition.Fits, test,
        always, isLoginIncomplete, complete, loginNext, takeTransition_move]
  | waitCloseDoorWarning =>
    cases complete : isLoginComplete cfg d w <;>
      simp [states, waitCloseDoorWarningStateTransitions, findTransition, row, Transition.Fits,
        test, always, isLoginIncomplete, complete, loginNext, takeTransition_move]
  | waitCloseDoorError =>
    cases complete : isLoginComplete cfg d w <;>
      simp [states, waitCloseDoorErrorStateTransitions, findTransition, row, Transition.Fits,
        test, always, isLoginIncomplete, complete, loginNext, takeTransition_move]
  | openDoorViolation =>
    cases complete : isLoginComplete cfg d w <;>
      simp [states, openDoorViolationStateTransitions, findTransition, row, Transition.Fits,
        test, always, isLoginIncomplete, complete, loginNext, takeTransition_move]
  | doorLockAndOpen =>
    cases complete : isLoginComplete cfg d w <;>
      simp [states, doorLockAndOpenStateTransitions, findTransition, row, Transition.Fits,
        test, always, isLoginIncomplete, complete, loginNext, takeTransition_move]
  | waitOuterDoorOpen => rfl
  | waitUnlockDoor => rfl
  | waitOpenDoor => rfl
  | waitLockDoor => rfl
  | waitLockDoorError => rfl
  | waitUnlockDoorWithOpenDoor => rfl

/-! ## Other events -/

/-- Where an opening leads. -/
def openNext (d : Door) (state : FlowState) (w : World User) : FlowState :=
  match state with
  | .idle | .waitOuterDoorOpen | .timeDelay | .accessTime =>
    if isDoorLock d w then .doorLockAndOpen else .openDoorViolation
  | .waitUnlockDoor | .waitOpenDoor => .waitCloseDoor
  | .waitLockDoor | .waitLockDoorError => .waitCloseDoorWarning
  | _ => state

theorem execute_openDoor (state : FlowState) (w : World User) :
    executeStateMachine (states cfg f d g) ⟨state, w⟩ .openDoor =
      move cfg f d g state (openNext d state w) w := by
  unfold executeStateMachine
  cases state with
  | idle | waitOuterDoorOpen | timeDelay | accessTime =>
    cases lock : isDoorLock d w <;>
      simp [states, idleStateTransitions, waitOuterDoorOpenStateTransitions,
        timeDelayStateTransitions, accessTimeStateTransitions, findTransition, row,
        Transition.Fits, test, always, lock, openNext, takeTransition_move]
  | _ => rfl

/-- Every other event moves the machine along an arrow or leaves it where it is; the alarm
of a lock that stays open is given again. -/
theorem execute_other {R : Machine User → Prop} {event : Event} (other : event ≠ .userLogin)
    (w : World User)
    (moves : ∀ next, (event, next) ∈ arrows state → R (move cfg f d g state next w))
    (stays : (∀ next, (event, next) ∉ arrows state) → R ⟨state, w⟩)
    (alarms : state = .waitLockDoorError → event = .timerExpired → R ⟨state, activateAlarm d w⟩) :
    R (executeStateMachine (states cfg f d g) ⟨state, w⟩ event) := by
  cases event with
  | userLogin => exact absurd rfl other
  | openDoor =>
    rw [execute_openDoor]
    cases state with
    | idle | waitOuterDoorOpen | timeDelay | accessTime =>
      unfold openNext
      dsimp only
      split <;> exact moves _ (by simp [arrows])
    | waitUnlockDoor | waitOpenDoor | waitLockDoor | waitLockDoorError =>
      exact moves _ (by simp [arrows, openNext])
    | _ => exact stays (by simp [arrows])
  | _ =>
    cases state <;> simp [arrows] at moves <;> first
      | exact moves
      | exact alarms rfl rfl
      | exact stays (by simp [arrows])

/-! ## What the machine keeps

`Frame` bundles the primitive updates of a door's machine other than commands; what these
keep, the events that lead to no command keep, and with all lines of the log, all events. -/

def Entry.door : Entry User → Door
  | .entry d _ | .login d _ | .timerExpired d _ | .unLock d .. | .doorViolation d
  | .activateAlarm d => d

/-- Lines that tell of no login, timer or command. -/
def Entry.Plain : Entry User → Prop
  | .entry _ .waitUnlockDoor | .entry _ .waitUnlockDoorWithOpenDoor | .login .. | .timerExpired ..
  | .unLock .. => False
  | .entry .. | .doorViolation _ | .activateAlarm _ => True

/-- The states that send a command when they are entered. -/
def FlowState.unlocks : FlowState → Bool
  | .waitUnlockDoor | .waitUnlockDoorWithOpenDoor => true
  | _ => false

theorem arrows_unlocks {event : Event} (mem : (event, next) ∈ arrows state)
    (quiet : event ≠ .outerDoorOpen) : next.unlocks = false := by
  have arrow : ∀ a ∈ arrows state, a.1 ≠ .outerDoorOpen → a.2.unlocks = false := by
    cases state <;> decide
  exact arrow _ mem quiet

theorem arrows_opening (mem : (.outerDoorOpen, next) ∈ arrows state) :
    (state = .idle ∨ state = .waitOuterDoorOpen) ∧ next = .waitUnlockDoor := by
  have arrow : ∀ a ∈ arrows state, a.1 = .outerDoorOpen →
      (state = .idle ∨ state = .waitOuterDoorOpen) ∧ a.2 = .waitUnlockDoor := by
    cases state <;> decide
  exact arrow _ mem rfl

def Workflow.users (self : Workflow User) : Option User × Option User := (self.user1, self.user2)

theorem exit_currentState (state : FlowState) (sm : Machine User) :
    ((states cfg f d g state).exit sm).currentState = sm.currentState := by
  cases state <;> rfl

theorem exit_users (start : ∀ w : World User, ((f .outerDoorStart w).workflow d).users =
      (w.workflow d).users ∧ (f .outerDoorStart w).hasInner = w.hasInner)
    (state : FlowState) (sm : Machine User) :
    (((states cfg f d g state).exit sm).context.workflow d).users =
        (sm.context.workflow d).users ∧
      ((states cfg f d g state).exit sm).context.hasInner = sm.context.hasInner := by
  cases state with
  | idle => exact start sm.context
  | waitOuterDoorOpen | waitCloseDoorError | openDoorViolation | doorLockAndOpen =>
    exact ⟨rfl, rfl⟩
  | _ => cases d <;> exact ⟨rfl, rfl⟩

theorem entry_currentState (quiet : state.unlocks = false) (sm : Machine User) :
    ((states cfg f d g state).entry sm).currentState = sm.currentState := by
  cases state <;> first
    | rfl
    | cases quiet

theorem move_currentState (quiet : next.unlocks = false) (w : World User) :
    (move cfg f d g state next w).currentState = next := by
  unfold move
  split
  · rw [entry_currentState quiet, exit_currentState]
  · rfl

structure Frame (f : Event → World User → World User) (d : Door) (P : World User → Prop) :
    Prop where
  write : ∀ (line : Entry User) {w : World User}, line.Plain → line.door = d → P w →
    P (w.write line)
  modify : ∀ (h : Workflow User → Workflow User) {w : World User},
    (∀ x, (h x).user1 = x.user1 ∧ (h x).user2 = x.user2) → P w → P (w.modify d h)
  removeLoggedUsers : ∀ {w : World User}, P w → P (w.removeLoggedUsers d)
  send : ∀ {event : Event} {w : World User}, event = .outerDoorStart ∨ event = .outerDoorCancel →
    P w → P (f event w)
  raise : ∀ {w : World User}, P w → P (raise w)

namespace Frame

variable {P : World User → Prop}

variable {state : FlowState}

theorem timerEntry (frame : Frame f d P) (quiet : state.unlocks = false) {w : World User}
    (kept : P w) : P (timerEntry d state w) := by
  have plain : (.entry d state : Entry User).Plain := by
    cases state <;> trivial
  exact frame.modify ({ · with timer := true }) (fun _ => ⟨rfl, rfl⟩) (frame.write _ plain rfl kept)

theorem exit (frame : Frame f d P) (state : FlowState) {sm : Machine User}
    (kept : P sm.context) : P ((states cfg f d g state).exit sm).context := by
  cases state with
  | idle => exact frame.send (Or.inl rfl) kept
  | waitOuterDoorOpen | waitCloseDoorError | openDoorViolation | doorLockAndOpen => exact kept
  | _ => exact frame.modify ({ · with timer := false }) (fun _ => ⟨rfl, rfl⟩) kept

theorem entry (frame : Frame f d P) (quiet : state.unlocks = false) {sm : Machine User}
    (kept : P sm.context) : P ((states cfg f d g state).entry sm).context := by
  cases state with
  | idle =>
    have sent := frame.send (Or.inr rfl) (frame.write (.entry d .idle) trivial rfl kept)
    exact frame.removeLoggedUsers
      (frame.modify ({ · with hasUnlocked := false }) (fun _ => ⟨rfl, rfl⟩) sent)
  | waitOuterDoorOpen => exact kept
  | accessTime =>
    have written := frame.write (.entry d .accessTime) trivial rfl kept
    exact frame.modify ({ · with timer := true }) (fun _ => ⟨rfl, rfl⟩)
      (frame.removeLoggedUsers written)
  | waitLockDoorError => exact frame.send (Or.inr rfl) (frame.timerEntry quiet kept)
  | waitCloseDoorError =>
    have written := frame.write (.entry d .waitCloseDoorError) trivial rfl kept
    exact frame.send (Or.inr rfl) (frame.write (.activateAlarm d) trivial rfl written)
  | openDoorViolation =>
    have written := frame.write (.entry d .openDoorViolation) trivial rfl kept
    exact frame.send (Or.inr rfl) (frame.write (.doorViolation d) trivial rfl written)
  | doorLockAndOpen =>
    have written := frame.write (.entry d .doorLockAndOpen) trivial rfl kept
    have left := frame.removeLoggedUsers written
    show P (doorLockAndOpenEntry d sm.context)
    unfold doorLockAndOpenEntry
    dsimp only
    split
    · exact left
    · exact frame.write (.doorViolation d) trivial rfl left
  | waitUnlockDoor | waitUnlockDoorWithOpenDoor => cases quiet
  | timeDelay | waitOpenDoor | waitCloseDoor | waitCloseDoorWarning | waitLockDoor =>
    exact frame.timerEntry quiet kept

theorem move (frame : Frame f d P) {next : FlowState} (quiet : next.unlocks = false)
    {w : World User} (kept : P w) : P (move cfg f d g state next w).context := by
  unfold ExtractionWorkflow.move
  split
  · exact frame.entry quiet (frame.exit state kept)
  · exact kept

theorem execute (frame : Frame f d P) {event : Event} (login : event ≠ .userLogin)
    (opening : event ≠ .outerDoorOpen) {w : World User} (kept : P w) :
    P (executeStateMachine (states cfg f d g) ⟨state, w⟩ event).context := by
  refine execute_other (R := fun sm => P sm.context) login w ?_ (fun _ => kept) ?_
  · exact fun next mem => frame.move (arrows_unlocks mem opening) kept
  · exact fun _ _ => frame.write (.activateAlarm d) trivial rfl kept

theorem hasTimeDelay (frame : Frame f d P) {w : World User} (kept : P w) :
    P (hasTimeDelay cfg d w).2 := by
  unfold ExtractionWorkflow.hasTimeDelay
  split
  · exact frame.modify ({ · with forceTimeDelayOverride := false }) (fun _ => ⟨rfl, rfl⟩) kept
  · repeat' split
    all_goals exact kept

theorem loginNext (frame : Frame f d P) (state : FlowState) {w : World User} (kept : P w) :
    P (loginNext cfg d state w).2 := by
  cases state with
  | idle =>
    show P (if isLoginComplete cfg d w then _ else _ : FlowState × World User).2
    split
    · exact frame.hasTimeDelay kept
    · exact kept
  | _ => exact kept

section Commands

variable (lines : ∀ {line : Entry User} {w : World User}, line.door = d → P w → P (w.write line))
  (command : ∀ {sm : Machine User}, P sm.context → P (g sm).context)
include lines command

theorem anyEntry (frame : Frame f d P) (state : FlowState) {sm : Machine User}
    (kept : P sm.context) : P ((states cfg f d g state).entry sm).context := by
  have commanded : P (waitUnlockDoorEntry d g sm).context := by
    unfold waitUnlockDoorEntry
    have sent := @command (onContext (World.write (.entry d sm.currentState)) sm)
      (lines rfl kept)
    dsimp only
    split
    · exact sent
    · exact frame.modify ({ · with timer := true }) (fun _ => ⟨rfl, rfl⟩) sent
  cases quiet : state.unlocks with
  | false => exact frame.entry quiet kept
  | true =>
    cases state <;> first
      | exact commanded
      | cases quiet

theorem anyMove (frame : Frame f d P) (state next : FlowState) {w : World User} (kept : P w) :
    P (ExtractionWorkflow.move cfg f d g state next w).context := by
  unfold ExtractionWorkflow.move
  split
  · exact frame.anyEntry lines command next (frame.exit state kept)
  · exact kept

theorem executeAny (frame : Frame f d P) (event : Event) {state : FlowState} {w : World User}
    (kept : P w) : P (executeStateMachine (states cfg f d g) ⟨state, w⟩ event).context := by
  by_cases login : event = .userLogin
  · rw [login, execute_login]
    exact frame.anyMove lines command _ _ (frame.loginNext state kept)
  · refine execute_other (R := fun sm => P sm.context) login w ?_ (fun _ => kept) ?_
    · exact fun next _ => frame.anyMove lines command state next kept
    · exact fun _ _ => lines rfl kept

end Commands

theorem unLockDoor (frame : Frame f d P)
    (lines : ∀ {line : Entry User} {w : World User}, line.door = d → P w → P (w.write line))
    {sm : Machine User} (kept : P sm.context) : P (unLockDoor cfg f d sm).context := by
  unfold ExtractionWorkflow.unLockDoor
  split
  · exact kept
  · dsimp only
    split
    · exact frame.raise (frame.execute (by decide) (by decide) (lines rfl kept))
    · exact frame.modify ({ · with hasUnlocked := true }) (fun _ => ⟨rfl, rfl⟩) (lines rfl kept)

theorem run (frame : Frame f d P)
    (lines : ∀ {line : Entry User} {w : World User}, line.door = d → P w → P (w.write line))
    (event : Event) {w : World User} (kept : P w) : P (run cfg f d event w) := by
  unfold ExtractionWorkflow.run
  refine frame.modify _ (fun _ => ⟨rfl, rfl⟩) ?_
  exact frame.executeAny lines (frame.unLockDoor lines) event kept

theorem quietRun (frame : Frame f d P) {event : Event} (login : event ≠ .userLogin)
    (opening : event ≠ .outerDoorOpen) {w : World User} (kept : P w) :
    P (ExtractionWorkflow.run cfg f d event w) := by
  unfold ExtractionWorkflow.run
  exact frame.modify _ (fun _ => ⟨rfl, rfl⟩) (frame.execute login opening kept)

end Frame

/-! ## The inner door -/

theorem removeLoggedUsers_outer (w : World User) :
    w.removeLoggedUsers .outer =
      { w with
        outer := { w.outer with user1 := none, user2 := none, forceTimeDelayOverride := false }
        inner :=
          if w.hasInner then { w.inner with user1 := none, user2 := none } else w.inner } := by
  rcases w with ⟨outer, inner, hasInner, unlockFails, raised, log⟩
  cases hasInner <;> rfl

/-- The inner door's machine leaves the outer one alone. -/
structure InnerOnly (w w' : World User) : Prop where
  outer : w'.outer = w.outer
  hasInner : w'.hasInner = w.hasInner
  lines : ∃ lines, w'.log = w.log ++ lines ∧ ∀ line ∈ lines, line.door = .inner

namespace InnerOnly

theorem refl (w : World User) : InnerOnly w w :=
  ⟨rfl, rfl, [], (append_nil _).symm, forall_mem_nil _⟩

theorem trans {a b c : World User} (first : InnerOnly a b) (second : InnerOnly b c) :
    InnerOnly a c := by
  rcases first.lines with ⟨lines, eq, own⟩
  rcases second.lines with ⟨more, eq', own'⟩
  refine ⟨second.outer.trans first.outer, second.hasInner.trans first.hasInner, lines ++ more, ?_,
    forall_mem_append.mpr ⟨own, own'⟩⟩
  rw [eq', eq, append_assoc]

theorem write {line : Entry User} (own : line.door = .inner) (w : World User) :
    InnerOnly w (w.write line) :=
  ⟨rfl, rfl, [line], rfl, forall_mem_singleton.mpr own⟩

theorem modify (h : Workflow User → Workflow User) (w : World User) :
    InnerOnly w (w.modify .inner h) :=
  ⟨rfl, rfl, [], (append_nil _).symm, forall_mem_nil _⟩

theorem frame (w : World User) : Frame (fun _ w => w) .inner (InnerOnly w) where
  write _ _ _ own kept := kept.trans (.write own _)
  modify h _ _ kept := kept.trans (.modify h _)
  removeLoggedUsers kept := kept.trans (modify
    ({ · with user1 := none, user2 := none, forceTimeDelayOverride := false }) _)
  send _ kept := kept
  raise kept := kept.trans ⟨rfl, rfl, [], (append_nil _).symm, forall_mem_nil _⟩

end InnerOnly

theorem executeInner_innerOnly (event : Event) (w : World User) :
    InnerOnly w (executeInner cfg event w) :=
  (InnerOnly.frame w).run (fun own kept => kept.trans (.write own _)) event (.refl w)

theorem sendInner_innerOnly (event : Event) (w : World User) :
    InnerOnly w (sendInner cfg event w) := by
  unfold sendInner
  split
  · exact executeInner_innerOnly event w
  · exact .refl w

/-- The outer door's users have logged in: an idle inner machine waits for the opening. -/
theorem executeInner_start (w : World User) :
    executeInner cfg .outerDoorStart w =
      if w.inner.currentState = .idle then
        w.modify .inner ({ · with currentState := .waitOuterDoorOpen })
      else w := by
  rcases w with ⟨outer, ⟨currentState, user1, user2, force, unlocked, timer, isOpen, isLock⟩,
    hasInner, unlockFails, raised, log⟩
  cases currentState <;> rfl

/-- The outer door is done: an inner machine that waits for the opening is idle again. -/
theorem executeInner_cancel (w : World User) :
    executeInner cfg .outerDoorCancel w =
      if w.inner.currentState = .waitOuterDoorOpen then
        (w.write (.entry .inner .idle)).modify .inner fun inner =>
          { inner with
            currentState := .idle, user1 := none, user2 := none
            forceTimeDelayOverride := false, hasUnlocked := false }
      else w := by
  rcases w with ⟨outer, ⟨currentState, user1, user2, force, unlocked, timer, isOpen, isLock⟩,
    hasInner, unlockFails, raised, log⟩
  cases currentState <;> rfl

/-! ## Changes -/

/-- What happens to the doors when nobody's login is accepted: users stay or leave, from the
outer door together with those of the inner one, and lines of a kind are logged. -/
structure Changes (Line : Entry User → Prop) (w w' : World User) : Prop where
  hasInner : w'.hasInner = w.hasInner
  outerUsers : w'.outer.users = w.outer.users ∨
    w'.outer.users = (none, none) ∧ (w.hasInner = true → w'.inner.users = (none, none))
  innerUsers : w'.inner.users = w.inner.users ∨ w'.inner.users = (none, none)
  lines : ∃ lines, w'.log = w.log ++ lines ∧ ∀ line ∈ lines, Line line

namespace Changes

variable {Line : Entry User → Prop}

theorem same {w w' : World User} (hasInner : w'.hasInner = w.hasInner)
    (outer : w'.outer.users = w.outer.users) (inner : w'.inner.users = w.inner.users)
    (log : w'.log = w.log) : Changes Line w w' :=
  ⟨hasInner, Or.inl outer, Or.inl inner, [], by rw [log, append_nil], forall_mem_nil _⟩

theorem refl (w : World User) : Changes Line w w := same rfl rfl rfl rfl

theorem trans {a b c : World User} (first : Changes Line a b) (second : Changes Line b c) :
    Changes Line a c := by
  rcases first.lines with ⟨lines, eq, all⟩
  rcases second.lines with ⟨more, eq', all'⟩
  refine ⟨second.hasInner.trans first.hasInner, ?_, ?_, lines ++ more, ?_,
    forall_mem_append.mpr ⟨all, all'⟩⟩
  · rcases second.outerUsers with same | ⟨left, inner⟩
    · rcases first.outerUsers with same' | ⟨left, inner⟩
      · exact Or.inl (same.trans same')
      · refine Or.inr ⟨same.trans left, fun behind => ?_⟩
        rcases second.innerUsers with same' | left'
        · exact same'.trans (inner behind)
        · exact left'
    · exact Or.inr ⟨left, fun behind => inner (first.hasInner.trans behind)⟩
  · rcases second.innerUsers with same | left
    · rcases first.innerUsers with same' | left
      · exact Or.inl (same.trans same')
      · exact Or.inr (same.trans left)
    · exact Or.inr left
  · rw [eq', eq, append_assoc]

theorem write {line : Entry User} (kind : Line line) (w : World User) :
    Changes Line w (w.write line) :=
  ⟨rfl, Or.inl rfl, Or.inl rfl, [line], rfl, forall_mem_singleton.mpr kind⟩

theorem modify {h : Workflow User → Workflow User}
    (users : ∀ x, (h x).user1 = x.user1 ∧ (h x).user2 = x.user2) (d : Door) (w : World User) :
    Changes Line w (w.modify d h) := by
  have kept (x : Workflow User) : (h x).users = x.users := by
    unfold Workflow.users
    rw [(users x).1, (users x).2]
  cases d with
  | outer => exact same rfl (kept _) rfl rfl
  | inner => exact same rfl rfl (kept _) rfl

theorem removeLoggedUsers (d : Door) (w : World User) :
    Changes Line w (w.removeLoggedUsers d) := by
  cases d with
  | outer =>
    rw [removeLoggedUsers_outer]
    refine ⟨rfl, Or.inr ⟨rfl, fun behind => ?_⟩, ?_, [], (append_nil _).symm,
      forall_mem_nil _⟩
    · dsimp only
      rw [if_pos behind]
      rfl
    · dsimp only
      split
      · exact Or.inr rfl
      · exact Or.inl rfl
  | inner =>
    exact ⟨rfl, Or.inl rfl, Or.inr rfl, [], (append_nil _).symm, forall_mem_nil _⟩

variable (plain : ∀ line : Entry User, line.Plain → Line line)
  (send : ∀ (event : Event) (w : World User),
    event = .outerDoorStart ∨ event = .outerDoorCancel → Changes Line w (f event w))
include plain send

theorem frame (d : Door) (w : World User) : Frame f d (Changes Line w) where
  write _ _ kind _ kept := kept.trans (.write (plain _ kind) _)
  modify _ _ users kept := kept.trans (.modify users _ _)
  removeLoggedUsers kept := kept.trans (.removeLoggedUsers _ _)
  send coupling kept := kept.trans (send _ _ coupling)
  raise kept := kept.trans (same rfl rfl rfl rfl)

theorem unLockDoor (sm : Machine User)
    (command : ∀ user1 user2, (sm.context.workflow d).users = (some user1, user2) →
      Line (.unLock d (sm.context.loginDoor d) user1 user2)) :
    Changes Line sm.context (unLockDoor cfg f d sm).context := by
  unfold ExtractionWorkflow.unLockDoor
  split
  · exact .refl _
  · next user eq =>
    have kind := command user _ (Prod.ext eq rfl)
    have written := Changes.write kind sm.context
    dsimp only
    split
    · have keeps := frame plain send d sm.context
      exact keeps.raise (keeps.execute (by decide) (by decide) written)
    · exact written.trans
        (.modify (h := ({ · with hasUnlocked := true })) (fun _ => ⟨rfl, rfl⟩) d _)

theorem waitUnlockDoorEntry (sm : Machine User) (entered : Line (.entry d sm.currentState))
    (command : ∀ user1 user2, (sm.context.workflow d).users = (some user1, user2) →
      Line (.unLock d (sm.context.loginDoor d) user1 user2)) :
    Changes Line sm.context
      (waitUnlockDoorEntry d (ExtractionWorkflow.unLockDoor cfg f d) sm).context := by
  unfold ExtractionWorkflow.waitUnlockDoorEntry
  have workflow := workflow_write (.entry d sm.currentState) sm.context d
  have sent : Changes Line _ (ExtractionWorkflow.unLockDoor cfg f d _).context :=
    unLockDoor plain send (onContext (World.write (.entry d sm.currentState)) sm)
      (fun user1 user2 eq => command user1 user2 ((congrArg Workflow.users workflow).symm.trans eq))
  have written := (Changes.write entered sm.context).trans sent
  dsimp only
  split
  · exact written
  · exact written.trans (.modify (h := ({ · with timer := true })) (fun _ => ⟨rfl, rfl⟩) d _)

theorem move (start : ∀ w : World User, ((f .outerDoorStart w).workflow d).users =
      (w.workflow d).users ∧ (f .outerDoorStart w).hasInner = w.hasInner)
    {state next : FlowState} {w : World User}
    (entered : next.unlocks = true → next ≠ state → Line (.entry d next) ∧
      ∀ user1 user2, (w.workflow d).users = (some user1, user2) →
        Line (.unLock d (w.loginDoor d) user1 user2)) :
    Changes Line w
      (move cfg f d (ExtractionWorkflow.unLockDoor cfg f d) state next w).context := by
  have keeps := frame plain send d w
  unfold ExtractionWorkflow.move
  split
  · next ne =>
    have left : Changes Line w (((states cfg f d (ExtractionWorkflow.unLockDoor cfg f d)
        state).exit ⟨next, w⟩).context) := keeps.exit state (.refl w)
    cases quiet : next.unlocks with
    | false => exact keeps.entry quiet left
    | true =>
      rcases entered quiet ne with ⟨entry, command⟩
      generalize exited : (states cfg f d (ExtractionWorkflow.unLockDoor cfg f d) state).exit
        ⟨next, w⟩ = sm at left ⊢
      have reached : sm.currentState = next := exited ▸ exit_currentState state _
      have users : (sm.context.workflow d).users = (w.workflow d).users ∧
          sm.context.hasInner = w.hasInner := exited ▸ exit_users start state _
      have sent : Changes Line sm.context (ExtractionWorkflow.waitUnlockDoorEntry d
          (ExtractionWorkflow.unLockDoor cfg f d) sm).context := by
        refine waitUnlockDoorEntry plain send sm (reached ▸ entry) fun user1 user2 eq => ?_
        unfold loginDoor
        rw [users.2]
        exact command user1 user2 (users.1.symm.trans eq)
      cases next <;> first
        | exact left.trans sent
        | cases quiet
  · exact .refl w

end Changes

section Quiet

variable {Line : Entry User → Prop} (plain : ∀ line : Entry User, line.Plain → Line line)
include plain

theorem executeInner_changes {event : Event} (login : event ≠ .userLogin)
    (opening : event ≠ .outerDoorOpen) (w : World User) :
    Changes Line w (executeInner cfg event w) :=
  (Changes.frame plain (fun _ w _ => .refl w) .inner w).quietRun login opening (.refl w)

theorem sendInner_changes (event : Event) (w : World User)
    (coupling : event = .outerDoorStart ∨ event = .outerDoorCancel) :
    Changes Line w (sendInner cfg event w) := by
  unfold sendInner
  split
  · rcases coupling with rfl | rfl <;> exact executeInner_changes plain (by decide) (by decide) w
  · exact .refl w

theorem execute_changes {event : Event} (login : event ≠ .userLogin)
    (opening : event ≠ .outerDoorOpen) (d : Door) (w : World User) :
    Changes Line w (execute cfg d event w) := by
  cases d with
  | outer =>
    exact (Changes.frame plain (sendInner_changes plain) .outer w).quietRun login opening (.refl w)
  | inner => exact executeInner_changes plain login opening w

theorem cancelTimeDelay_changes (d : Door) (w : World User) :
    Changes Line w (cancelTimeDelay cfg d w) := by
  unfold cancelTimeDelay
  split
  · exact .same rfl rfl rfl rfl
  · have cancelled : Changes Line w (execute cfg d .cancelTimeDelay w) :=
      execute_changes plain (by decide) (by decide) d w
    dsimp only
    split
    · exact cancelled.trans (sendInner_changes plain _ _ (Or.inr rfl))
    · exact cancelled

theorem timerExpired_changes (d : Door) {w : World User}
    (expired : Line (.timerExpired d (w.workflow d).currentState)) :
    Changes Line w (timerExpired cfg d w) := by
  unfold timerExpired
  split
  · have stopped : Changes Line w (w.stopTimer d) :=
      .modify (h := ({ · with timer := false })) (fun _ => ⟨rfl, rfl⟩) d w
    have written := stopped.trans (.write expired _)
    refine written.trans ?_
    apply execute_changes plain <;> decide
  · exact .refl w

end Quiet

/-- Whether the inner door's machine answers the outer door's opening with a command. -/
def World.StandsBy (w : World User) : Prop :=
  w.hasInner = true ∧ w.inner.isDoorOpen = false ∧
    (w.inner.currentState = .idle ∨ w.inner.currentState = .waitOuterDoorOpen)

instance (w : World User) : Decidable w.StandsBy :=
  inferInstanceAs (Decidable (_ ∧ _ ∧ _))

theorem sendInner_standsBy {event : Event} {w : World User}
    (coupling : event = .outerDoorStart ∨ event = .outerDoorCancel)
    (after : (sendInner cfg event w).StandsBy) : w.StandsBy := by
  unfold sendInner at after
  split at after
  · rcases coupling with rfl | rfl
    · rw [executeInner_start] at after
      split at after
      · next idle => exact ⟨after.1, after.2.1, Or.inl idle⟩
      · exact after
    · rw [executeInner_cancel] at after
      split at after
      · next waiting => exact ⟨after.1, after.2.1, Or.inr waiting⟩
      · exact after
  · exact after

/-- While the outer door's machine runs, the inner one comes to stand by only if it did. -/
theorem execute_standsBy {event : Event} (login : event ≠ .userLogin)
    (opening : event ≠ .outerDoorOpen) (w : World User)
    (after : (execute cfg .outer event w).StandsBy) : w.StandsBy := by
  have frame : Frame (sendInner cfg) .outer fun w' : World User => w'.StandsBy → w.StandsBy :=
    { write := fun _ _ _ _ kept after => kept after
      modify := fun _ _ _ kept after => kept after
      removeLoggedUsers := fun kept after => by
        rw [removeLoggedUsers_outer] at after
        refine kept ⟨after.1, ?_, ?_⟩
        · have closed := after.2.1
          dsimp only at closed
          split at closed <;> exact closed
        · have state := after.2.2
          dsimp only at state
          split at state <;> exact state
      send := fun coupling kept after => kept (sendInner_standsBy coupling after)
      raise := fun kept after => kept after }
  exact frame.quietRun login opening id after

theorem loginNext_unlocks {state : FlowState} {w : World User}
    (unlocks : (loginNext cfg d state w).1.unlocks = true)
    (ne : (loginNext cfg d state w).1 ≠ state) : isLoginComplete cfg d w = true := by
  cases complete : isLoginComplete cfg d w with
  | true => rfl
  | false =>
    have stays : (loginNext cfg d state w).1 = state ∨ (loginNext cfg d state w).1 = .idle := by
      cases state <;> simp [loginNext, complete]
    rcases stays with same | idle
    · exact absurd same ne
    · rw [idle] at unlocks
      cases unlocks

theorem hasTimeDelay_users (w : World User) :
    ((hasTimeDelay cfg d w).2.workflow d).users = (w.workflow d).users ∧
      (hasTimeDelay cfg d w).2.hasInner = w.hasInner := by
  unfold hasTimeDelay
  split
  · cases d <;> exact ⟨rfl, rfl⟩
  · repeat' split
    all_goals exact ⟨rfl, rfl⟩

theorem loginNext_users (state : FlowState) (w : World User) :
    ((loginNext cfg d state w).2.workflow d).users = (w.workflow d).users ∧
      (loginNext cfg d state w).2.hasInner = w.hasInner := by
  cases state with
  | idle =>
    unfold loginNext
    dsimp only
    split
    · exact hasTimeDelay_users w
    · exact ⟨rfl, rfl⟩
  | _ => exact ⟨rfl, rfl⟩

theorem handleLogin_changes {Line : Entry User → Prop}
    (plain : ∀ line : Entry User, line.Plain → Line line) {w : World User}
    (entered : ∀ next, next = (loginNext cfg .outer w.outer.currentState
        (w.write (.login .outer (isLoginComplete cfg .outer w)))).1 →
      next.unlocks = true → next ≠ w.outer.currentState → isLoginComplete cfg .outer w = true →
      Line (.entry .outer next) ∧ ∀ user1 user2, w.outer.users = (some user1, user2) →
        Line (.unLock .outer (w.loginDoor .outer) user1 user2)) :
    Changes Line (w.write (.login .outer (isLoginComplete cfg .outer w)))
      (handleLogin cfg .outer w) := by
  unfold handleLogin execute run
  dsimp only
  generalize logged : w.write (.login .outer (isLoginComplete cfg .outer w)) = w' at entered ⊢
  have keeps : Frame (sendInner cfg) .outer (Changes Line w') :=
    Changes.frame plain (sendInner_changes plain) .outer w'
  have guarded : Changes Line w' (loginNext cfg .outer w'.outer.currentState w').2 :=
    keeps.loginNext _ (.refl w')
  have users : (loginNext cfg .outer w'.outer.currentState w').2.outer.users = w'.outer.users ∧
      (loginNext cfg .outer w'.outer.currentState w').2.hasInner = w'.hasInner :=
    loginNext_users (d := .outer) _ w'
  refine keeps.modify _ (fun _ => ⟨rfl, rfl⟩) ?_
  rw [execute_login]
  refine guarded.trans (.move plain (sendInner_changes plain) ?_ ?_)
  · intro w
    have apart : InnerOnly w (sendInner cfg .outerDoorStart w) := sendInner_innerOnly _ w
    exact ⟨congrArg Workflow.users apart.outer, apart.hasInner⟩
  · intro unlocks ne
    have complete := loginNext_unlocks unlocks ne
    subst logged
    have command := entered _ rfl unlocks ne complete
    refine ⟨command.1, fun user1 user2 eq => ?_⟩
    unfold loginDoor
    rw [users.2]
    exact command.2 user1 user2 (users.1.symm.trans eq)

theorem executeInner_opening {Line : Entry User → Prop}
    (plain : ∀ line : Entry User, line.Plain → Line line) {w : World User}
    (entered : w.inner.currentState = .idle ∨ w.inner.currentState = .waitOuterDoorOpen →
      Line (.entry .inner .waitUnlockDoor) ∧ ∀ user1 user2, w.inner.users = (some user1, user2) →
        Line (.unLock .inner .inner user1 user2)) :
    Changes Line w (executeInner cfg .outerDoorOpen w) := by
  unfold executeInner run
  have keeps := Changes.frame plain (f := fun _ w => w) (fun _ w _ => .refl w) .inner w
  refine keeps.modify _ (fun _ => ⟨rfl, rfl⟩) ?_
  refine execute_other (R := fun sm => Changes Line w sm.context) (by decide) w ?_
    (fun _ => .refl w) ?_
  · intro next mem
    rcases arrows_opening mem with ⟨standby, reached⟩
    rcases entered standby with ⟨entry, command⟩
    refine .move plain (fun _ w _ => .refl w) (fun w => ⟨rfl, rfl⟩) fun _ _ => ⟨?_, command⟩
    rw [reached]
    exact entry
  · exact fun _ event => by cases event

/-! ## States -/

theorem run_currentState (event : Event) (w : World User) :
    ((run cfg f d event w).workflow d).currentState =
      (executeStateMachine (states cfg f d (unLockDoor cfg f d))
        ⟨(w.workflow d).currentState, w⟩ event).currentState := by
  unfold run
  cases d <;> rfl

/-- An event other than a login or the outer door's opening takes an arrow if there is one. -/
theorem execute_currentState {event : Event} (login : event ≠ .userLogin)
    (opening : event ≠ .outerDoorOpen) (d : Door) (w : World User) :
    (event, ((execute cfg d event w).workflow d).currentState) ∈
        arrows (w.workflow d).currentState ∨
      ((execute cfg d event w).workflow d).currentState = (w.workflow d).currentState ∧
        ∀ next, (event, next) ∉ arrows (w.workflow d).currentState := by
  have ran (f : Event → World User → World User) :
      (event, ((run cfg f d event w).workflow d).currentState) ∈
          arrows (w.workflow d).currentState ∨
        ((run cfg f d event w).workflow d).currentState = (w.workflow d).currentState ∧
          ∀ next, (event, next) ∉ arrows (w.workflow d).currentState := by
    rw [run_currentState]
    refine execute_other (R := fun sm => (event, sm.currentState) ∈ arrows _ ∨
      sm.currentState = (w.workflow d).currentState ∧ ∀ next, (event, next) ∉ arrows _) login w
      (fun next mem => ?_) (fun none => Or.inr ⟨rfl, none⟩) fun state expired => ?_
    · rw [move_currentState (arrows_unlocks mem opening)]
      exact Or.inl mem
    · rw [state, expired]
      exact Or.inr ⟨rfl, by simp [arrows]⟩
  cases d with
  | outer => exact ran (sendInner cfg)
  | inner => exact ran fun _ w => w

theorem unLockDoor_currentState (sm : Machine User) :
    (unLockDoor cfg f d sm).currentState = sm.currentState ∨
      (.unlockError, (unLockDoor cfg f d sm).currentState) ∈ arrows sm.currentState := by
  have failed (w : World User) :
      (executeStateMachine (states cfg f d id) ⟨sm.currentState, w⟩ .unlockError).currentState =
          sm.currentState ∨
        (.unlockError, (executeStateMachine (states cfg f d id) ⟨sm.currentState, w⟩
          .unlockError).currentState) ∈ arrows sm.currentState := by
    refine execute_other (R := fun m => m.currentState = sm.currentState ∨
      (.unlockError, m.currentState) ∈ arrows sm.currentState) ?_ w ?_ ?_ ?_
    · decide
    · intro next mem
      rw [move_currentState (arrows_unlocks mem (by decide))]
      exact Or.inr mem
    · exact fun _ => Or.inl rfl
    · exact fun _ _ => Or.inl rfl
  unfold unLockDoor
  split
  · exact Or.inl rfl
  dsimp only
  split
  · exact failed _
  · exact Or.inl rfl

theorem enter_currentState (state next : FlowState) (w : World User) :
    (move cfg f d (unLockDoor cfg f d) state next w).currentState = next ∨
      next.unlocks = true ∧ (.unlockError,
        (move cfg f d (unLockDoor cfg f d) state next w).currentState) ∈ arrows next := by
  by_cases ne : next = state
  · rw [ne, move_self]
    exact Or.inl rfl
  cases quiet : next.unlocks with
  | false => exact Or.inl (move_currentState quiet w)
  | true =>
    rw [move_ne ne]
    generalize exited : (states cfg f d (unLockDoor cfg f d) state).exit ⟨next, w⟩ = sm
    have reached : sm.currentState = next := exited ▸ exit_currentState state _
    have entered : (waitUnlockDoorEntry d (unLockDoor cfg f d) sm).currentState = next ∨
        (.unlockError, (waitUnlockDoorEntry d (unLockDoor cfg f d) sm).currentState) ∈
          arrows next := by
      subst reached
      unfold waitUnlockDoorEntry
      dsimp only
      split <;> exact unLockDoor_currentState _
    cases next <;> first
      | exact entered.imp_right fun mem => ⟨rfl, mem⟩
      | cases quiet

theorem handleLogin_currentState (w : World User) :
    ∃ next, next = (loginNext cfg .outer w.outer.currentState
        (w.write (.login .outer (isLoginComplete cfg .outer w)))).1 ∧
      ((handleLogin cfg .outer w).outer.currentState = next ∨ next.unlocks = true ∧
        (.unlockError, (handleLogin cfg .outer w).outer.currentState) ∈ arrows next) := by
  refine ⟨_, rfl, ?_⟩
  have ran : (handleLogin cfg .outer w).outer.currentState = _ :=
    run_currentState (d := .outer) .userLogin _
  rw [ran, execute_login]
  exact enter_currentState _ _ _
/-! ## Reports -/

/-- The reports that open a door for its machine. -/
def Op.Opens (cfg : Config User) (d : Door) : Op User → Prop
  | .plunger door isOpen =>
    door = d ∧ isOpen = true ∧ (cfg.sensorType d = .plunger ∨ cfg.sensorType d = .both)
  | .locker door isUnlocked => door = d ∧ isUnlocked = true ∧ cfg.sensorType d = .locker
  | _ => False

instance (d : Door) : (op : Op User) → Decidable (op.Opens cfg d)
  | .plunger .. | .locker .. => inferInstanceAs (Decidable (_ ∧ _))
  | .onLoginUser .. | .removeLoggedUsers _ | .forceTimeDelayOverride .. | .setInnerDoorWorkflow _
  | .cancelTimeDelay _ | .timerExpired _ | .board _ => inferInstanceAs (Decidable False)

section Reports

variable {P : World User → Prop} {w : World User}
  (execute : ∀ event w, event = .closeDoor ∨ event = .lockDoor ∨ event = .unlockDoor → P w →
    P (execute cfg d event w))
  (door : ∀ isDoorOpen w, P w → P (setDoorState d isDoorOpen w))
  (lock : ∀ isDoorLock w, P w → P (setLockState d isDoorLock w)) (start : P w)
include execute start

include door in
theorem plunger_rule {isOpen : Bool}
    (opening : (Op.plunger d isOpen).Opens cfg d → P (onDoorOpen cfg d w)) :
    P (plunger cfg d isOpen w) := by
  have closed := execute .closeDoor _ (Or.inl rfl) start
  unfold plunger andThen
  cases sensor : cfg.sensorType d <;> cases isOpen
  case plunger.true | both.true =>
    have opened := opening ⟨rfl, rfl, by rw [sensor]; decide⟩
    dsimp only
    split
    · exact opened
    · exact door _ _ opened
  case plunger.false | plungerExt.false => exact execute _ _ (Or.inr (Or.inl rfl)) (door _ _ closed)
  case both.false => exact door _ _ closed
  case plungerExt.true => exact door _ _ start
  all_goals exact start

include lock in
theorem locker_rule {isUnlocked : Bool}
    (opening : (Op.locker d isUnlocked).Opens cfg d → P (onDoorOpen cfg d w)) :
    P (locker cfg d isUnlocked w) := by
  unfold locker andThen
  cases sensor : cfg.sensorType d <;> cases isUnlocked
  case locker.true =>
    have opened := opening ⟨rfl, rfl, sensor⟩
    dsimp only
    split
    · exact opened
    · exact lock _ _ opened
  case locker.false =>
    exact lock _ _ (execute _ _ (Or.inr (Or.inl rfl)) (execute _ _ (Or.inl rfl) start))
  case both.true => exact lock _ _ (execute _ _ (Or.inr (Or.inr rfl)) start)
  case both.false => exact lock _ _ (execute _ _ (Or.inr (Or.inl rfl)) start)
  all_goals exact start

end Reports

end CimArm.ExtractionWorkflow
