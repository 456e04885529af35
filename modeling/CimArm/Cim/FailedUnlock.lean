import CimArm.Cim.DoorDelay
import CimArm.Cim.DoorStates
import CimArm.Cim.DoorViolation

/-!
# Commands that fail

The machine of a door sends the command to unlock it while it enters a state.  When the board
refuses, the machine handles the error there, inside the entry, and the exception goes on.

* `step_outcome`: a command that is refused leaves the machine idle, or locked and open if it
  took its door to be open, without users and without a timer.
* `refused_safe_iff`: so it is where its door is just in case it knew of the door.
* `failedUnlock_safe`: it does in every run in which it notices what happens to the door.  A
  machine that waits for the board with the door open misses that it is closed; a lock that
  opens during the time delay counts as an open door.
-/

namespace CimArm.ExtractionWorkflow

open Engine World List

variable {User : Type} {cfg : Config User} {f : Event → World User → World User} {d : Door}
  {g : Machine User → Machine User}

/-! ## What should be -/

/-- The doors, and whether one of them is open by the reports. -/
structure Observed (User : Type) : Type where
  world : World User
  isOpen : Bool

def observe [DecidableEq User] (cfg : Config User) (d : Door) (op : Op User)
    (s : Observed User) : Observed User where
  world := step cfg op s.world
  isOpen := if op.Opens cfg d then true else if op.Closes cfg d then false else s.isOpen

/-- The users are gone and the timer is off. -/
structure Ended (d : Door) (w : World User) : Prop where
  users : (w.workflow d).users = (none, none)
  innerUsers : d = .outer → w.hasInner = true → w.inner.users = (none, none)
  timer : (w.workflow d).timer = false

/-- The safe state of a door: idle, or locked and open. -/
structure Safe (d : Door) (s : Observed User) : Prop where
  state : (s.world.workflow d).currentState = if s.isOpen then .doorLockAndOpen else .idle
  ended : Ended d s.world

/-- A command for a door is sent, and the board refuses it. -/
def Fails [DecidableEq User] (cfg : Config User) (d : Door) (op : Op User) (w : World User) :
    Prop :=
  w.unlockFails = true ∧ ∃ lines, (step cfg op w).log = w.log ++ lines ∧ Commanded d lines

/-! ## The other door -/

/-- What a machine sends to the other door leaves its own alone. -/
structure Apart (f : Event → World User → World User) (d : Door) : Prop where
  workflow : ∀ event w, (f event w).workflow d = w.workflow d
  hasInner : ∀ event w, (f event w).hasInner = w.hasInner
  unlockFails : ∀ event w, (f event w).unlockFails = w.unlockFails

theorem Apart.frame (apart : Apart f d) (w : World User) :
    Frame f d fun w' => w'.unlockFails = w.unlockFails where
  write _ _ _ _ kept := kept
  modify _ _ _ kept := by cases d <;> exact kept
  removeLoggedUsers {w'} kept := by
    cases d with
    | outer =>
      rw [removeLoggedUsers_outer]
      exact kept
    | inner => exact kept
  send _ kept := (apart.unlockFails _ _).trans kept
  raise kept := kept

theorem Apart.alone : Apart (fun _ w => w : Event → World User → World User) d :=
  ⟨fun _ _ => rfl, fun _ _ => rfl, fun _ _ => rfl⟩

theorem Apart.run (apart : Apart f d) (event : Event) (w : World User) :
    (run cfg f d event w).unlockFails = w.unlockFails :=
  (apart.frame w).run (fun _ kept => kept) event rfl

theorem Apart.sendInner : Apart (sendInner cfg) .outer where
  workflow event w := (sendInner_innerOnly event w).outer
  hasInner event w := (sendInner_innerOnly event w).hasInner
  unlockFails event w := by
    unfold ExtractionWorkflow.sendInner
    split
    · exact Apart.alone.run event w
    · rfl

/-! ## A command that is refused -/

theorem removeLoggedUsers_workflow (w : World User) :
    (w.removeLoggedUsers d).workflow d =
      { w.workflow d with user1 := none, user2 := none, forceTimeDelayOverride := false } := by
  cases d with
  | outer =>
    rw [removeLoggedUsers_outer]
    rfl
  | inner => rfl

theorem removeLoggedUsers_ended {w : World User} (timer : (w.workflow d).timer = false) :
    Ended d (w.removeLoggedUsers d) := by
  have own := removeLoggedUsers_workflow (d := d) w
  refine ⟨by rw [own]; rfl, fun outer hasInner => ?_, by rw [own]; exact timer⟩
  subst outer
  rw [removeLoggedUsers_outer] at hasInner ⊢
  exact congrArg Workflow.users (if_pos hasInner)

theorem stopTimer_timer (w : World User) : ((w.stopTimer d).workflow d).timer = false := by
  cases d <;> rfl

theorem idleEntry_ended (apart : Apart f d) {w : World User}
    (timer : (w.workflow d).timer = false) : Ended d (idleEntry f d w) := by
  refine removeLoggedUsers_ended ?_
  have sent := apart.workflow .outerDoorCancel (w.write (.entry d .idle))
  rw [workflow_write] at sent
  have own : (((f .outerDoorCancel (w.write (.entry d .idle))).modify d
      ({ · with hasUnlocked := false })).workflow d).timer =
        ((f .outerDoorCancel (w.write (.entry d .idle))).workflow d).timer := by
    cases d <;> rfl
  rw [own, sent, timer]

theorem doorLockAndOpenEntry_ended {w : World User} (timer : (w.workflow d).timer = false) :
    Ended d (doorLockAndOpenEntry d w) := by
  have ended : Ended d ((w.write (.entry d .doorLockAndOpen)).removeLoggedUsers d) :=
    removeLoggedUsers_ended (by rw [workflow_write]; exact timer)
  unfold doorLockAndOpenEntry
  dsimp only
  split
  · exact ended
  · refine ⟨?_, ended.innerUsers, ?_⟩
    · rw [doorViolationAction, workflow_write]
      exact ended.users
    · rw [doorViolationAction, workflow_write]
      exact ended.timer

/-- The state in which a refused command leaves the machine. -/
def FlowState.refused (state : FlowState) : FlowState :=
  if state.opened then .doorLockAndOpen else .idle

theorem unlockError_ended (apart : Apart f d) {state : FlowState}
    (unlocks : state.unlocks = true) (w : World User) :
    (executeStateMachine (states cfg f d g) ⟨state, w⟩ .unlockError).currentState =
        state.refused ∧
      Ended d (executeStateMachine (states cfg f d g) ⟨state, w⟩ .unlockError).context := by
  cases state with
  | waitUnlockDoor => exact ⟨rfl, idleEntry_ended apart (stopTimer_timer w)⟩
  | waitUnlockDoorWithOpenDoor =>
    exact ⟨rfl, doorLockAndOpenEntry_ended (stopTimer_timer w)⟩
  | _ => cases unlocks

theorem Ended.modify {w : World User} (ended : Ended d w) (door : Door)
    {h : Workflow User → Workflow User}
    (kept : ∀ x, (h x).users = x.users ∧ (h x).timer = x.timer) : Ended d (w.modify door h) := by
  cases door with
  | outer =>
    cases d with
    | outer =>
      exact ⟨(kept _).1.trans ended.users, ended.innerUsers, (kept _).2.trans ended.timer⟩
    | inner => exact ⟨ended.users, fun outer => (by cases outer), ended.timer⟩
  | inner =>
    cases d with
    | outer =>
      exact ⟨ended.users, fun outer hasInner => (kept _).1.trans (ended.innerUsers outer hasInner),
        ended.timer⟩
    | inner =>
      exact ⟨(kept _).1.trans ended.users, fun outer => (by cases outer),
        (kept _).2.trans ended.timer⟩

/-- The command of a user is refused: the error is handled before the exception goes on. -/
theorem unLockDoor_ended (apart : Apart f d) {sm : Machine User}
    (unlocks : sm.currentState.unlocks = true) {user1 : User}
    (user : (sm.context.workflow d).user1 = some user1) (refuses : sm.context.unlockFails = true) :
    (unLockDoor cfg f d sm).context.raised = true ∧
      (unLockDoor cfg f d sm).currentState = sm.currentState.refused ∧
      Ended d (unLockDoor cfg f d sm).context := by
  unfold unLockDoor
  rw [user]
  dsimp only
  rw [if_pos refuses]
  obtain ⟨reached, ended⟩ := @unlockError_ended _ cfg _ _ id apart _ unlocks
    (sm.context.write (.unLock d (sm.context.loginDoor d) user1 (sm.context.workflow d).user2))
  exact ⟨rfl, reached, ended.users, ended.innerUsers, ended.timer⟩

theorem waitUnlockDoorEntry_ended (apart : Apart f d) {sm : Machine User}
    (unlocks : sm.currentState.unlocks = true) {user1 : User}
    (user : (sm.context.workflow d).user1 = some user1) (refuses : sm.context.unlockFails = true) :
    (waitUnlockDoorEntry d (unLockDoor cfg f d) sm).currentState = sm.currentState.refused ∧
      Ended d (waitUnlockDoorEntry d (unLockDoor cfg f d) sm).context := by
  have user : ((onContext (write (.entry d sm.currentState)) sm).context.workflow d).user1 =
      some user1 := by
    rw [← user]
    exact congrArg Workflow.user1 (workflow_write _ _ d)
  obtain ⟨raised, ended⟩ := @unLockDoor_ended _ cfg _ _ apart
    (onContext (write (.entry d sm.currentState)) sm) unlocks _ user refuses
  unfold waitUnlockDoorEntry
  dsimp only
  rw [if_pos raised]
  exact ended

theorem move_ended (apart : Apart f d) {state next : FlowState} (ne : next ≠ state)
    (unlocks : next.unlocks = true) {w : World User} {user1 : User}
    (user : (w.workflow d).user1 = some user1) (refuses : w.unlockFails = true) :
    (move cfg f d (unLockDoor cfg f d) state next w).currentState = next.refused ∧
      Ended d (move cfg f d (unLockDoor cfg f d) state next w).context := by
  rw [move_ne ne]
  generalize exited : (states cfg f d (unLockDoor cfg f d) state).exit ⟨next, w⟩ = sm
  have reached : sm.currentState = next := exited ▸ exit_currentState state _
  have users : (sm.context.workflow d).users = (w.workflow d).users :=
    exited ▸ (exit_users (fun w => ⟨congrArg Workflow.users (apart.workflow _ w),
      apart.hasInner _ w⟩) state ⟨next, w⟩).1
  have first : (sm.context.workflow d).user1 = some user1 := (congrArg Prod.fst users).trans user
  have refuses : sm.context.unlockFails = true := by
    rw [← exited]
    exact ((apart.frame w).exit state rfl).trans refuses
  have sends : sm.currentState.unlocks = true := by rw [reached, unlocks]
  have entered := @waitUnlockDoorEntry_ended _ cfg _ _ apart _ sends _ first refuses
  rw [reached] at entered
  cases next with
  | waitUnlockDoor => exact entered
  | waitUnlockDoorWithOpenDoor => exact entered
  | _ => cases unlocks

/-! ## Steps -/

/-- The lines that are not a command for a door. -/
def Entry.Other (d : Door) (line : Entry User) : Prop :=
  ∀ loginDoor user1 user2, line ≠ .unLock d loginDoor user1 user2

theorem other_of_plain (line : Entry User) (plain : line.Plain) : line.Other d := by
  rintro loginDoor user1 user2 rfl
  exact plain

/-- No command for a door is sent. -/
def Silent (d : Door) (w w' : World User) : Prop :=
  ∃ lines, w'.log = w.log ++ lines ∧ ∀ line ∈ lines, line.Other d

theorem Silent.same {w w' : World User} (log : w'.log = w.log) : Silent d w w' :=
  ⟨[], by rw [log, append_nil], forall_mem_nil _⟩

theorem Silent.trans {a b c : World User} (first : Silent d a b) (second : Silent d b c) :
    Silent d a c := by
  obtain ⟨lines, log, others⟩ := first
  obtain ⟨more, log', others'⟩ := second
  exact ⟨lines ++ more, by rw [log', log, append_assoc],
    forall_mem_append.2 ⟨others, others'⟩⟩

/-- What a step is for the commands of a door: there is none, or the machine has ended as it
should from its state. -/
def Outcome (d : Door) (w w' : World User) : Prop :=
  Silent d w w' ∨
    (w'.workflow d).currentState = (w.workflow d).currentState.refused ∧ Ended d w'

/-- Before the step there may be changes that send no command and leave the machine as it is. -/
theorem Outcome.after {w₀ w w' : World User} (outcome : Outcome d w w') (silent : Silent d w₀ w)
    (state : (w.workflow d).currentState.refused = (w₀.workflow d).currentState.refused) :
    Outcome d w₀ w' := by
  rcases outcome with quiet | ⟨reached, ended⟩
  · exact .inl (silent.trans quiet)
  · exact .inr ⟨reached.trans state, ended⟩

theorem loginNext_refused {state : FlowState} {w : World User}
    (unlocks : (loginNext cfg d state w).1.unlocks = true)
    (ne : (loginNext cfg d state w).1 ≠ state) :
    (loginNext cfg d state w).1.refused = state.refused := by
  have complete := loginNext_unlocks unlocks ne
  cases state with
  | idle =>
    unfold loginNext at unlocks ⊢
    simp only [complete, if_pos] at unlocks ⊢
    cases delay : (hasTimeDelay cfg d w).1 with
    | false => rfl
    | true =>
      rw [delay] at unlocks
      cases unlocks
  | timeDelay => cases unlocks
  | accessTime | waitCloseDoor | waitCloseDoorWarning | waitCloseDoorError | openDoorViolation
  | doorLockAndOpen =>
    unfold loginNext
    simp only [complete, if_pos]
    rfl
  | _ => exact absurd rfl ne

theorem login_other (door : Door) (complete : Bool) :
    (.login door complete : Entry User).Other d := by
  rintro _ _ _ ⟨⟩

theorem handleLogin_outcome {w : World User} (refuses : w.unlockFails = true) :
    Outcome .outer w (handleLogin cfg .outer w) := by
  have apart : Apart (sendInner cfg) .outer := .sendInner
  generalize logged : w.write (.login .outer (isLoginComplete cfg .outer w)) = w₁
  have same : w₁.outer = w.outer := by rw [← logged]; rfl
  by_cases sends : (loginNext cfg .outer w.outer.currentState w₁).1.unlocks = true ∧
      (loginNext cfg .outer w.outer.currentState w₁).1 ≠ w.outer.currentState
  · obtain ⟨unlocks, ne⟩ := sends
    have complete := loginNext_unlocks unlocks ne
    obtain ⟨user1, user⟩ := Option.ne_none_iff_exists'.1 (isLoginComplete_user1 complete)
    have guarded : (loginNext cfg .outer w.outer.currentState w₁).2.outer.users = w₁.outer.users :=
      (@loginNext_users _ cfg .outer _ w₁).1
    have kept : (loginNext cfg .outer w.outer.currentState w₁).2.unlockFails = w₁.unlockFails :=
      (apart.frame w₁).loginNext _ rfl
    obtain ⟨reached, ended⟩ := @move_ended _ cfg _ _ apart _ _ ne unlocks
      (loginNext cfg .outer w.outer.currentState w₁).2 user1
      ((congrArg Prod.fst guarded).trans user) (kept.trans (by rw [← logged]; exact refuses))
    refine .inr ?_
    unfold handleLogin execute run
    dsimp only
    rw [logged]
    show _ ∧ _
    rw [show (w₁.workflow .outer).currentState = w.outer.currentState from
      congrArg Workflow.currentState same, execute_login]
    exact ⟨reached.trans (loginNext_refused unlocks ne),
      ended.modify .outer fun _ => ⟨rfl, rfl⟩⟩
  · have changes : Changes (Entry.Other .outer)
        (w.write (.login .outer (isLoginComplete cfg .outer w))) (handleLogin cfg .outer w) := by
      refine handleLogin_changes other_of_plain fun next reached unlocks ne _ => ?_
      rw [logged] at reached
      subst reached
      exact absurd ⟨unlocks, ne⟩ sends
    have written : Silent .outer w (w.write (.login .outer (isLoginComplete cfg .outer w))) :=
      ⟨[_], rfl, forall_mem_singleton.2 (login_other _ _)⟩
    exact .inl (written.trans changes.lines)

theorem handleLogin_silent (w : World User) : Silent .inner w (handleLogin cfg .outer w) := by
  have changes : Changes (Entry.Other .inner)
      (w.write (.login .outer (isLoginComplete cfg .outer w))) (handleLogin cfg .outer w) := by
    refine handleLogin_changes other_of_plain fun next _ _ _ _ => ⟨?_, fun user1 user2 _ => ?_⟩
    · rintro _ _ _ ⟨⟩
    · rintro _ _ _ ⟨⟩
  have written : Silent .inner w (w.write (.login .outer (isLoginComplete cfg .outer w))) :=
    ⟨[_], rfl, forall_mem_singleton.2 (login_other _ _)⟩
  exact written.trans changes.lines

theorem refused_of_standby {state : FlowState}
    (standby : state = .idle ∨ state = .waitOuterDoorOpen) :
    state.refused = .idle ∧ state ≠ .waitUnlockDoor := by
  rcases standby with rfl | rfl
  · exact ⟨rfl, by decide⟩
  · exact ⟨rfl, by decide⟩

theorem executeInner_refused {w : World User} (refuses : w.unlockFails = true) :
    Silent .inner w (executeInner cfg .outerDoorOpen w) ∨
      (w.inner.currentState = .idle ∨ w.inner.currentState = .waitOuterDoorOpen) ∧
        (executeInner cfg .outerDoorOpen w).inner.currentState = .idle ∧
        Ended .inner (executeInner cfg .outerDoorOpen w) := by
  cases user : w.inner.user1 with
  | none =>
    have changes : Changes (Entry.Other .inner) w (executeInner cfg .outerDoorOpen w) := by
      refine executeInner_opening other_of_plain fun _ => ⟨?_, fun user1 user2 users => ?_⟩
      · rintro _ _ _ ⟨⟩
      have first : w.inner.user1 = some user1 := congrArg Prod.fst users
      rw [user] at first
      cases first
    exact .inl changes.lines
  | some user1 =>
    unfold executeInner run
    refine execute_other (R := fun sm => Silent .inner w
        (sm.context.modify .inner ({ · with currentState := sm.currentState })) ∨ _ ∧
      sm.currentState = .idle ∧
        Ended .inner (sm.context.modify .inner ({ · with currentState := sm.currentState })))
      (by decide) w (fun next mem => ?_) (fun _ => .inl (.same rfl)) fun _ event => by cases event
    obtain ⟨standby, rfl⟩ := arrows_opening mem
    obtain ⟨refused, ne⟩ := refused_of_standby standby
    obtain ⟨reached, ended⟩ :=
      @move_ended _ cfg _ .inner Apart.alone _ _ ne.symm rfl w user1 user refuses
    exact .inr ⟨standby, reached, ended.modify .inner fun _ => ⟨rfl, rfl⟩⟩

theorem onDoorOpen_outcome {w : World User} (refuses : w.unlockFails = true) :
    Outcome .inner w (onDoorOpen cfg .outer w) := by
  have executed : Changes (Entry.Other .inner) w (execute cfg .outer .openDoor w) :=
    execute_changes other_of_plain (by decide) (by decide) .outer w
  have silent : Silent .inner w (execute cfg .outer .openDoor w) := executed.lines
  have refuses : (execute cfg .outer .openDoor w).unlockFails = true :=
    (Apart.sendInner.run _ w).trans refuses
  unfold onDoorOpen
  dsimp only
  split
  · rename_i behind
    rcases @executeInner_refused _ cfg _ refuses with quiet | ⟨standby, reached, ended⟩
    · exact .inl (silent.trans quiet)
    have before : w.StandsBy := execute_standsBy (by decide) (by decide) w
      ⟨behind.2.1, by simpa using behind.2.2, standby⟩
    exact .inr ⟨reached.trans (refused_of_standby before.2.2).1.symm, ended⟩
  · exact .inl silent

theorem execute_silent {event : Event}
    (report : event = .closeDoor ∨ event = .lockDoor ∨ event = .unlockDoor) (door : Door)
    (w : World User) : Silent d w (execute cfg door event w) := by
  have changes : Changes (Entry.Other d) w (execute cfg door event w) := by
    rcases report with rfl | rfl | rfl
    · exact execute_changes other_of_plain (by decide) (by decide) door w
    · exact execute_changes other_of_plain (by decide) (by decide) door w
    · exact execute_changes other_of_plain (by decide) (by decide) door w
  exact changes.lines

variable {door : Door}

theorem onDoorOpen_silent (own : door = .outer → d = .outer) (w : World User) :
    Silent d w (onDoorOpen cfg door w) := by
  have executed : Changes (Entry.Other d) w (execute cfg door .openDoor w) :=
    execute_changes other_of_plain (by decide) (by decide) door w
  have silent : Silent d w (execute cfg door .openDoor w) := executed.lines
  unfold onDoorOpen
  dsimp only
  split
  · rename_i behind
    obtain rfl := own behind.1
    obtain ⟨lines, log, inner⟩ := (@executeInner_innerOnly _ cfg .outerDoorOpen
      (execute cfg door .openDoor w)).lines
    refine silent.trans ⟨lines, log, fun line here loginDoor user1 user2 same => ?_⟩
    have door := inner line here
    rw [same] at door
    cases door
  · exact silent

theorem Silent.modify {w w' : World User} (silent : Silent d w w') (door : Door)
    (h : Workflow User → Workflow User) : Silent d w (w'.modify door h) := by
  cases door with
  | outer => exact silent
  | inner => exact silent

theorem plunger_silent (own : door = .outer → d = .outer) (isOpen : Bool) (w : World User) :
    Silent d w (plunger cfg door isOpen w) :=
  plunger_rule (fun _ _ report silent => silent.trans (execute_silent report door _))
    (fun _ _ silent => silent.modify door _) (.same rfl) fun _ => onDoorOpen_silent own w

theorem locker_silent (own : door = .outer → d = .outer) (isUnlocked : Bool) (w : World User) :
    Silent d w (locker cfg door isUnlocked w) :=
  locker_rule (fun _ _ report silent => silent.trans (execute_silent report door _))
    (fun _ _ silent => silent.modify door _) (.same rfl) fun _ => onDoorOpen_silent own w

theorem Outcome.modify_outer {w w' : World User} (outcome : Outcome .inner w w')
    (h : Workflow User → Workflow User) : Outcome .inner w (w'.modify .outer h) := by
  rcases outcome with silent | ⟨reached, ended⟩
  · exact .inl silent
  · exact .inr ⟨reached, ended.users, fun outer => (by cases outer), ended.timer⟩

theorem plunger_outcome {isOpen : Bool} {w : World User} (refuses : w.unlockFails = true) :
    Outcome .inner w (plunger cfg .outer isOpen w) := by
  have opened : Outcome .inner w (onDoorOpen cfg .outer w) := onDoorOpen_outcome refuses
  have closed : Silent .inner w (execute cfg .outer .closeDoor w) :=
    execute_silent (.inl rfl) .outer w
  unfold plunger andThen
  split
  · split
    · exact opened
    · exact opened.modify_outer _
  · split
    · exact opened
    · exact opened.modify_outer _
  · exact .inl (.same rfl)
  · exact .inl closed
  · exact .inl (closed.trans (execute_silent (.inr (.inl rfl)) .outer _))
  · exact .inl (closed.trans (execute_silent (.inr (.inl rfl)) .outer _))
  · exact .inl (.same rfl)
  · exact .inl (.same rfl)

theorem locker_outcome {isUnlocked : Bool} {w : World User} (refuses : w.unlockFails = true) :
    Outcome .inner w (locker cfg .outer isUnlocked w) := by
  have opened : Outcome .inner w (onDoorOpen cfg .outer w) := onDoorOpen_outcome refuses
  have closed : Silent .inner w (execute cfg .outer .closeDoor w) :=
    execute_silent (.inl rfl) .outer w
  unfold locker andThen
  split
  · exact .inl (closed.trans (execute_silent (.inr (.inl rfl)) .outer _))
  · split
    · exact opened
    · exact opened.modify_outer _
  · exact .inl (execute_silent (.inr (.inl rfl)) .outer w)
  · exact .inl (execute_silent (.inr (.inr rfl)) .outer w)
  · exact .inl (.same rfl)
  · exact .inl (.same rfl)
  · exact .inl (.same rfl)

/-- Who logs in at the outer door may be set at the inner one, which changes neither log nor
states. -/
theorem setInner_same (w : World User) (p : Prop) [Decidable p]
    (h : Workflow User → Workflow User) :
    (if p then w.modify .inner h else w).log = w.log ∧
      (if p then w.modify .inner h else w).unlockFails = w.unlockFails ∧
      (if p then w.modify .inner h else w).outer.currentState = w.outer.currentState := by
  split
  · exact ⟨rfl, rfl, rfl⟩
  · exact ⟨rfl, rfl, rfl⟩

theorem login_outcome {w w₁ : World User} (refuses : w.unlockFails = true)
    (same : w₁.log = w.log ∧ w₁.unlockFails = w.unlockFails ∧
      w₁.outer.currentState = w.outer.currentState) :
    Outcome d w (handleLogin cfg .outer w₁) := by
  have silent : Silent d w w₁ := .same same.1
  cases d with
  | outer =>
    exact (handleLogin_outcome (same.2.1.trans refuses)).after silent
      (congrArg FlowState.refused same.2.2)
  | inner => exact .inl (Silent.trans (.same same.1) (handleLogin_silent w₁))

variable [DecidableEq User]

theorem onLoginUser_outcome {w : World User} (refuses : w.unlockFails = true) (door : Door)
    (user : User) : Outcome d w (onLoginUser cfg door user w) := by
  unfold onLoginUser
  split
  · exact .inl (.same rfl)
  cases door with
  | outer =>
    split
    · exact login_outcome refuses (setInner_same (w.modify .outer _) _ _)
    · split
      · split
        · exact .inl (.same rfl)
        split
        · exact .inl (.same rfl)
        · exact login_outcome refuses (setInner_same (w.modify .outer _) _ _)
      · exact .inl (.same rfl)
  | inner =>
    split
    · exact .inl (.same rfl)
    · split
      · split
        · exact .inl (.same rfl)
        split
        · exact .inl (.same rfl)
        · exact .inl (.same rfl)
      · exact .inl (.same rfl)

theorem report_silent {op : Op User} (report : op.Opens cfg d ∨ op.Closes cfg d)
    (w : World User) : Silent d w (step cfg op w) := by
  have quiet : Silent d w { w with raised := false } := .same rfl
  cases op with
  | plunger door isOpen =>
    obtain rfl : door = d := by
      rcases report with opens | closes
      · exact opens.1
      · exact closes.1
    exact quiet.trans (plunger_silent id isOpen _)
  | locker door isUnlocked =>
    obtain rfl : door = d := by
      rcases report with opens | closes
      · exact opens.1
      · exact closes.1
    exact quiet.trans (locker_silent id isUnlocked _)
  | _ =>
    rcases report with opens | closes
    · cases opens
    · cases closes

omit [DecidableEq User] in
theorem outer_of_not {door : Door} (apart : ¬(door = .outer ∧ d = .inner)) (own : door = .outer) :
    d = .outer := by
  cases d with
  | outer => rfl
  | inner => exact absurd ⟨own, rfl⟩ apart

theorem step_outcome {w : World User} (refuses : w.unlockFails = true) (op : Op User) :
    Outcome d w (step cfg op w) := by
  have quiet : Silent d w { w with raised := false } := .same rfl
  have state : ({ w with raised := false } : World User).workflow d = w.workflow d := by
    cases d <;> rfl
  have refused := congrArg (fun flow => FlowState.refused (Workflow.currentState flow)) state
  have refuses : ({ w with raised := false } : World User).unlockFails = true := refuses
  have plain := @other_of_plain User d
  unfold step
  cases op with
  | onLoginUser door user => exact (onLoginUser_outcome refuses door user).after quiet refused
  | removeLoggedUsers door => exact .inl (Changes.removeLoggedUsers door _).lines
  | forceTimeDelayOverride door value => cases door <;> exact .inl (.same rfl)
  | setInnerDoorWorkflow hasInner => exact .inl (.same rfl)
  | cancelTimeDelay door => exact .inl (cancelTimeDelay_changes plain door _).lines
  | timerExpired door =>
    exact .inl (timerExpired_changes plain door (by rintro _ _ _ ⟨⟩)).lines
  | plunger door isOpen =>
    by_cases behind : door = .outer ∧ d = .inner
    · obtain ⟨rfl, rfl⟩ := behind
      exact (plunger_outcome refuses).after quiet refused
    · exact .inl (quiet.trans (plunger_silent (outer_of_not behind) isOpen _))
  | locker door isUnlocked =>
    by_cases behind : door = .outer ∧ d = .inner
    · obtain ⟨rfl, rfl⟩ := behind
      exact (locker_outcome refuses).after quiet refused
    · exact .inl (quiet.trans (locker_silent (outer_of_not behind) isUnlocked _))
  | board unlockFails => exact .inl (.same rfl)

/-! ## Runs -/

/-- What the machine takes its door to be. -/
def Follows (d : Door) (s : Observed User) : Prop :=
  (s.world.workflow d).currentState.opened = s.isOpen

/-- What a machine would not notice: the door closes while the machine waits for the board with
the door open, or its lock opens during the time delay. -/
def Noticed (cfg : Config User) (d : Door) (s : Observed User) (op : Op User) : Prop :=
  (op.Closes cfg d → (s.world.workflow d).currentState ≠ .waitUnlockDoorWithOpenDoor) ∧
    (op = .locker d true → cfg.sensorType d = .both →
      (s.world.workflow d).currentState ≠ .timeDelay)

instance (s : Observed User) (op : Op User) : Decidable (Noticed cfg d s op) :=
  inferInstanceAs (Decidable ((_ → _) ∧ (_ → _ → _)))

theorem Follows.step {s : Observed User} (follows : Follows d s) {op : Op User}
    (noticed : Noticed cfg d s op) : Follows d (observe cfg d op s) := by
  show (ExtractionWorkflow.step cfg op s.world |>.workflow d).currentState.opened =
    if op.Opens cfg d then true else if op.Closes cfg d then false else s.isOpen
  split
  · rename_i opens
    exact step_opens opens s.world
  split
  · rename_i closes
    exact step_closes closes (noticed.1 closes)
  rename_i opens closes
  cases isOpen : s.isOpen with
  | true =>
    exact kept_opened.stepSame opens closes (follows.trans isOpen)
      fun _ _ next mem => opened_of_arrow mem (by decide) (follows.trans isOpen)
  | false =>
    exact kept_shut.stepSame opens closes (follows.trans isOpen)
      fun report both next mem => arrows_shut mem (by decide) (follows.trans isOpen)
        fun _ => noticed.2 report both

/-- A command that is refused leaves the machine where its door is just in case the machine
knew where that is. -/
theorem refused_safe_iff {s : Observed User} {op : Op User} (fails : Fails cfg d op s.world) :
    Safe d (observe cfg d op s) ↔ Follows d s := by
  obtain ⟨refuses, lines, log, loginDoor, user1, user2, sent⟩ := fails
  have loud : ¬Silent d s.world (step cfg op s.world) := by
    rintro ⟨lines', log', others⟩
    obtain rfl := append_cancel_left (log.symm.trans log')
    exact others _ sent loginDoor user1 user2 rfl
  have report : ¬(op.Opens cfg d ∨ op.Closes cfg d) := fun report => loud (report_silent report _)
  have isOpen : (observe cfg d op s).isOpen = s.isOpen := by
    rw [not_or] at report
    exact (if_neg report.1).trans (if_neg report.2)
  obtain ⟨reached, ended⟩ := (step_outcome refuses op).resolve_left loud
  have reached : ((observe cfg d op s).world.workflow d).currentState =
      if (s.world.workflow d).currentState.opened then .doorLockAndOpen else .idle := reached
  constructor
  · intro safe
    have state := reached.symm.trans safe.state
    rw [isOpen] at state
    unfold Follows
    cases machine : (s.world.workflow d).currentState.opened <;> cases door : s.isOpen <;>
      rw [machine, door] at state <;> first
      | rfl
      | cases state
  · intro follows
    refine ⟨?_, ended⟩
    rw [reached, isOpen, follows]

/-- In every run in which the machine notices what happens to its door, a command that is
refused leaves it in a safe state. -/
theorem failedUnlock_safe {ops : List (Op User)}
    (noticed : Trace.Always (observe cfg d) (Noticed cfg d) ops ⟨.start, false⟩) :
    Trace.Always (observe cfg d)
      (fun s op => Fails cfg d op s.world → Safe d (observe cfg d op s)) ops ⟨.start, false⟩ :=
  Trace.Always.of_invariant (Follows d)
    (fun follows noticed =>
      ⟨follows.step noticed, fun fails => (refused_safe_iff fails).2 follows⟩)
    (by cases d <;> rfl) noticed

/-- The board refuses a command with the door closed, and another one with it open. -/
def refusedTwice : List (Op Nat) :=
  [.forceTimeDelayOverride .outer true, .board true, .onLoginUser .outer 1, .plunger .outer true,
   .onLoginUser .outer 1]

theorem failedUnlock_safe_refusedTwice :
    (Trace.after (step oneKey) refusedTwice World.start).log.count (.unLock .outer .outer 1 none) =
        2 ∧
      Trace.Always (observe oneKey .outer)
        (fun s op => Fails oneKey .outer op s.world → Safe .outer (observe oneKey .outer op s))
        refusedTwice ⟨.start, false⟩ :=
  ⟨by decide, failedUnlock_safe (by decide)⟩

/-- The door is opened and a user logs in; it is closed before the board has answered, and the
time runs out.  The board refuses the next command. -/
def shutMeanwhile : List (Op Nat) :=
  [.plunger .outer true, .onLoginUser .outer 1, .plunger .outer false, .timerExpired .outer,
   .board true, .onLoginUser .outer 1]

/-- The machine takes the closed door to be locked and open. -/
theorem failedUnlock_shut :
    ¬∀ (cfg : Config Nat) (d : Door) (ops : List (Op Nat)),
      Trace.Always (observe cfg d)
        (fun s op => Fails cfg d op s.world → Safe d (observe cfg d op s)) ops ⟨.start, false⟩ := by
  intro always
  have refused := (always oneKey .outer shutMeanwhile).2.2.2.2.2.1
  have safe := refused ⟨by decide, [.login .outer true, .entry .outer .waitUnlockDoorWithOpenDoor,
    .unLock .outer .outer 1 none, .entry .outer .doorLockAndOpen], by decide, .outer, 1, none,
    by decide⟩
  exact absurd safe.state (by decide)

end CimArm.ExtractionWorkflow
