import CimArm.Cim.WorkflowMoves
import Mathlib.Data.List.DropRight

/-!
# Silent openings

A door that opens although nothing has been said of it since its machine was idle is a
violation.  The log since then tells what has been said: `Excused` of an opening that is
expected, `Alarmed` of a violation that has been noticed.  `Watched` is the invariant of
each door's machine, and `alarmed_run` the result: openings that nothing excuses do not
pass in silence.
-/

namespace CimArm.ExtractionWorkflow

open Engine World List

variable {User : Type} {cfg : Config User}

/-! ## Since the machine was idle -/

def Entry.entersIdle (d : Door) : Entry User → Bool
  | .entry door .idle => door = d
  | _ => false

/-- The log of a door since its machine was idle. -/
def sinceIdle (d : Door) (log : List (Entry User)) : List (Entry User) :=
  log.rtakeWhile fun line => !line.entersIdle d

theorem sinceIdle_append (d : Door) (log : List (Entry User)) {lines : List (Entry User)}
    (busy : ∀ line ∈ lines, line.entersIdle d = false) :
    sinceIdle d (log ++ lines) = sinceIdle d log ++ lines := by
  induction lines using List.reverseRecOn with
  | nil => rw [append_nil, append_nil]
  | append_singleton lines line ih =>
    rcases forall_mem_append.mp busy with ⟨before, last⟩
    have last := forall_mem_singleton.mp last
    rw [← append_assoc, sinceIdle, rtakeWhile_concat_pos _ _ _ (by rw [last]; rfl)]
    rw [← append_assoc, ← ih before, sinceIdle]

theorem entersIdle_door {d : Door} {line : Entry User} (other : line.door ≠ d) :
    line.entersIdle d = false := by
  cases line with
  | entry door state =>
    cases state <;> first
      | rfl
      | exact decide_eq_false other
  | _ => rfl

/-- A command to the board. -/
def Commanded (d : Door) (lines : List (Entry User)) : Prop :=
  ∃ loginDoor user1 user2, .unLock d loginDoor user1 user2 ∈ lines

/-- An opening is expected: after a command, after the lock has been reported unlocked, or
for an inner door after the outer one has been opened. -/
def Excused (d : Door) (lines : List (Entry User)) : Prop :=
  Commanded d lines ∨ .entry d .waitLockDoor ∈ lines ∨
    d = .inner ∧ .entry .inner .waitUnlockDoor ∈ lines

/-- A violation has been noticed, as such or with the lock still locked. -/
def Alarmed (d : Door) (lines : List (Entry User)) : Prop :=
  .doorViolation d ∈ lines ∧
    (.entry d .openDoorViolation ∈ lines ∨ .entry d .doorLockAndOpen ∈ lines)

section Mono

variable {d : Door} {lines more : List (Entry User)} (sub : lines ⊆ more)
include sub

theorem Commanded.mono (commanded : Commanded d lines) : Commanded d more := by
  rcases commanded with ⟨loginDoor, user1, user2, mem⟩
  exact ⟨loginDoor, user1, user2, sub mem⟩

theorem Excused.mono (excused : Excused d lines) : Excused d more := by
  rcases excused with commanded | unlocked | ⟨inner, opened⟩
  · exact Or.inl (commanded.mono sub)
  · exact Or.inr (Or.inl (sub unlocked))
  · exact Or.inr (Or.inr ⟨inner, sub opened⟩)

theorem Alarmed.mono (alarmed : Alarmed d lines) : Alarmed d more :=
  ⟨sub alarmed.1, alarmed.2.imp (fun mem => sub mem) fun mem => sub mem⟩

end Mono

/-! ## One machine -/

/-- The states in which nothing is known of an opening. -/
def FlowState.awaits : FlowState → Bool
  | .idle | .timeDelay | .accessTime | .waitOuterDoorOpen => true
  | _ => false

/-- The invariant of a door's machine in a state. -/
structure Watched (d : Door) (state : FlowState) (w : World User) : Prop where
  unlocked : (w.workflow d).hasUnlocked = true → Commanded d (sinceIdle d w.log)
  explained : state.awaits = true ∨ Excused d (sinceIdle d w.log) ∨
    Alarmed d (sinceIdle d w.log)

/-- More is logged since the machine was idle. -/
structure Grows (d : Door) (w w' : World User) : Prop where
  unlocked : (w'.workflow d).hasUnlocked = (w.workflow d).hasUnlocked
  sub : sinceIdle d w.log ⊆ sinceIdle d w'.log

namespace Grows

variable {d : Door}

theorem refl (w : World User) : Grows d w w := ⟨rfl, List.Subset.refl _⟩

theorem trans {a b c : World User} (first : Grows d a b) (second : Grows d b c) : Grows d a c :=
  ⟨second.unlocked.trans first.unlocked, List.Subset.trans first.sub second.sub⟩

theorem lines {w w' : World User} (unlocked : (w'.workflow d).hasUnlocked =
      (w.workflow d).hasUnlocked) {lines : List (Entry User)} (log : w'.log = w.log ++ lines)
    (busy : ∀ line ∈ lines, line.entersIdle d = false) : Grows d w w' := by
  refine ⟨unlocked, ?_⟩
  rw [log, sinceIdle_append d w.log busy]
  exact subset_append_left _ _

theorem write {line : Entry User} (busy : line.entersIdle d = false) (w : World User) :
    Grows d w (w.write line) ∧ line ∈ sinceIdle d (w.write line).log := by
  refine ⟨lines (by cases d <;> rfl) rfl (forall_mem_singleton.mpr busy), ?_⟩
  show line ∈ sinceIdle d (w.log ++ [line])
  rw [sinceIdle_append d w.log (forall_mem_singleton.mpr busy)]
  exact mem_append_right _ (mem_singleton.mpr rfl)

theorem modify {h : Workflow User → Workflow User}
    (unlocked : ∀ x, (h x).hasUnlocked = x.hasUnlocked) (door : Door) (w : World User) :
    Grows d w (w.modify door h) := by
  cases d <;> cases door <;> first
    | exact ⟨rfl, List.Subset.refl _⟩
    | exact ⟨unlocked _, List.Subset.refl _⟩

theorem removeLoggedUsers (door : Door) (w : World User) :
    Grows d w (w.removeLoggedUsers door) := by
  cases door with
  | outer =>
    rw [removeLoggedUsers_outer]
    refine ⟨?_, List.Subset.refl _⟩
    cases d with
    | outer => rfl
    | inner =>
      show (if w.hasInner = true then _ else _ : Workflow User).hasUnlocked = _
      split <;> rfl
  | inner => cases d <;> exact ⟨rfl, List.Subset.refl _⟩

theorem watched {w w' : World User} (grows : Grows d w w') {state : FlowState}
    (watched : Watched d state w) : Watched d state w' :=
  ⟨fun unlocked => (watched.unlocked (grows.unlocked.symm.trans unlocked)).mono grows.sub,
    watched.explained.imp_right fun explained =>
      explained.imp (fun excused => excused.mono grows.sub) fun alarmed => alarmed.mono grows.sub⟩

end Grows

section Machine

variable {f : Event → World User → World User} {d : Door} {g : Machine User → Machine User}
  (send : ∀ (event : Event) (w : World User), Grows d w (f event w))

theorem entry_busy {state : FlowState} (ne : state ≠ .idle) (door : Door) :
    (.entry door state : Entry User).entersIdle d = false := by
  cases state <;> first
    | rfl
    | exact absurd rfl ne

theorem Grows.timerEntry {state : FlowState} (ne : state ≠ .idle) (w : World User) :
    Grows d w (timerEntry d state w) ∧
      .entry d state ∈ sinceIdle d (ExtractionWorkflow.timerEntry d state w).log := by
  rcases Grows.write (entry_busy ne d) w with ⟨written, mem⟩
  have started : Grows d (w.write (.entry d state)) (ExtractionWorkflow.timerEntry d state w) :=
    .modify (h := ({ · with timer := true })) (fun _ => rfl) d _
  exact ⟨written.trans started, started.sub mem⟩

include send in
theorem Grows.exit (state : FlowState) (sm : Machine User) :
    Grows d sm.context ((states cfg f d g state).exit sm).context := by
  cases state with
  | idle => exact send .outerDoorStart sm.context
  | waitOuterDoorOpen | waitCloseDoorError | openDoorViolation | doorLockAndOpen => exact .refl _
  | _ => exact .modify (h := ({ · with timer := false })) (fun _ => rfl) d _

/-- What explains that a machine enters a state. -/
def Explained (d : Door) (next : FlowState) (w : World User) : Prop :=
  next.awaits = true ∨ next = .openDoorViolation ∨ next = .doorLockAndOpen ∨
    next = .waitLockDoor ∨ Excused d (sinceIdle d w.log) ∨ Alarmed d (sinceIdle d w.log)

omit send in
theorem Grows.unlocks {w w' : World User} (grows : Grows d w w')
    (unlocked : (w.workflow d).hasUnlocked = true → Commanded d (sinceIdle d w.log))
    (h : (w'.workflow d).hasUnlocked = true) : Commanded d (sinceIdle d w'.log) :=
  (unlocked (grows.unlocked.symm.trans h)).mono grows.sub

theorem idleEntry_locked (w : World User) : ((idleEntry f d w).workflow d).hasUnlocked = false := by
  unfold idleEntry
  dsimp only
  rw [(Grows.removeLoggedUsers d _).unlocked]
  cases d <;> rfl

/-- With the lock still locked, the violation is noticed unless a command has gone out. -/
theorem doorLockAndOpenEntry_grows (w : World User) :
    Grows d w (doorLockAndOpenEntry d w) ∧ ((w.workflow d).hasUnlocked = true ∨
      Alarmed d (sinceIdle d (doorLockAndOpenEntry d w).log)) := by
  rcases @Grows.write _ d (.entry d .doorLockAndOpen) rfl w with ⟨written, entered⟩
  have left := Grows.removeLoggedUsers (d := d) d (w.write (.entry d .doorLockAndOpen))
  have grows := written.trans left
  unfold doorLockAndOpenEntry
  dsimp only
  split
  · next unlocked => exact ⟨grows, Or.inl (grows.unlocked.symm.trans unlocked)⟩
  · rcases @Grows.write _ d (.doorViolation d) rfl
      ((w.write (.entry d .doorLockAndOpen)).removeLoggedUsers d) with ⟨violated, mem⟩
    exact ⟨grows.trans violated, Or.inr ⟨mem, Or.inr (violated.sub (left.sub entered))⟩⟩

include send in
theorem openDoorViolationEntry_grows (w : World User) :
    Grows d w (openDoorViolationEntry f d w) ∧
      Alarmed d (sinceIdle d (openDoorViolationEntry f d w).log) := by
  rcases @Grows.write _ d (.entry d .openDoorViolation) rfl w with ⟨written, entered⟩
  rcases @Grows.write _ d (.doorViolation d) rfl (w.write (.entry d .openDoorViolation)) with
    ⟨violated, mem⟩
  have sent := send .outerDoorCancel
    ((w.write (.entry d .openDoorViolation)).write (.doorViolation d))
  exact ⟨(written.trans violated).trans sent, sent.sub mem,
    Or.inl (sent.sub (violated.sub entered))⟩

include send in
theorem Watched.entry {next : FlowState} (quiet : next.unlocks = false) {w : World User}
    (unlocked : (w.workflow d).hasUnlocked = true → Commanded d (sinceIdle d w.log))
    (explained : Explained d next w) :
    Watched d next ((states cfg f d g next).entry ⟨next, w⟩).context := by
  have busy (ne : next ≠ .idle) := Grows.timerEntry (d := d) ne w
  have known (awaits : next.awaits = false) (open1 : next ≠ .openDoorViolation)
      (open2 : next ≠ .doorLockAndOpen) (lock : next ≠ .waitLockDoor) :
      Excused d (sinceIdle d w.log) ∨ Alarmed d (sinceIdle d w.log) := by
    rcases explained with h | h | h | h | known
    · rw [awaits] at h
      cases h
    · exact absurd h open1
    · exact absurd h open2
    · exact absurd h lock
    · exact known
  cases next with
  | idle =>
    refine ⟨fun unlocked => ?_, Or.inl rfl⟩
    have locked : ((idleEntry f d w).workflow d).hasUnlocked = true := unlocked
    rw [idleEntry_locked] at locked
    cases locked
  | waitOuterDoorOpen => exact ⟨unlocked, Or.inl rfl⟩
  | timeDelay => exact (busy (by decide)).1.watched ⟨unlocked, Or.inl rfl⟩
  | accessTime =>
    have written := (@Grows.write _ d (.entry d .accessTime) rfl w).1
    have left := Grows.removeLoggedUsers (d := d) d (w.write (.entry d .accessTime))
    exact (written.trans left).trans (.modify (h := ({ · with timer := true })) (fun _ => rfl) d _)
      |>.watched ⟨unlocked, Or.inl rfl⟩
  | openDoorViolation =>
    rcases openDoorViolationEntry_grows send w with ⟨grows, alarmed⟩
    exact ⟨grows.unlocks unlocked, Or.inr (Or.inr alarmed)⟩
  | doorLockAndOpen =>
    rcases doorLockAndOpenEntry_grows (d := d) w with ⟨grows, commanded | alarmed⟩
    · exact ⟨grows.unlocks unlocked, Or.inr (Or.inl (Or.inl ((unlocked commanded).mono grows.sub)))⟩
    · exact ⟨grows.unlocks unlocked, Or.inr (Or.inr alarmed)⟩
  | waitLockDoor =>
    rcases busy (by decide) with ⟨grows, mem⟩
    exact ⟨grows.unlocks unlocked, Or.inr (Or.inl (Or.inr (Or.inl mem)))⟩
  | waitUnlockDoor | waitUnlockDoorWithOpenDoor => cases quiet
  | waitOpenDoor | waitCloseDoor | waitCloseDoorWarning =>
    have known := known rfl (by decide) (by decide) (by decide)
    exact (busy (by decide)).1.watched ⟨unlocked, Or.inr known⟩
  | waitLockDoorError =>
    have known := known rfl (by decide) (by decide) (by decide)
    exact ((busy (by decide)).1.trans (send _ _)).watched ⟨unlocked, Or.inr known⟩
  | waitCloseDoorError =>
    have known := known rfl (by decide) (by decide) (by decide)
    have written := (@Grows.write _ d (.entry d .waitCloseDoorError) rfl w).1
    have alarmed := (@Grows.write _ d (.activateAlarm d) rfl
      (w.write (.entry d .waitCloseDoorError))).1
    exact ((written.trans alarmed).trans (send _ _)).watched ⟨unlocked, Or.inr known⟩

theorem Explained.grows {next : FlowState} {w w' : World User} (grows : Grows d w w')
    (explained : Explained d next w) : Explained d next w' := by
  rcases explained with h | h | h | h | known
  · exact Or.inl h
  · exact Or.inr (Or.inl h)
  · exact Or.inr (Or.inr (Or.inl h))
  · exact Or.inr (Or.inr (Or.inr (Or.inl h)))
  · exact Or.inr (Or.inr (Or.inr (Or.inr
      (known.imp (fun excused => excused.mono grows.sub) fun alarmed => alarmed.mono grows.sub))))

/-- From a state in which nothing is known, an arrow leads to another one, to a violation
or to an open lock. -/
theorem Watched.explain {state next : FlowState} {event : Event} {w : World User}
    (watched : Watched d state w) (mem : (event, next) ∈ arrows state)
    (opening : event ≠ .outerDoorOpen) : Explained d next w := by
  have arrow : state.awaits = true → ∀ a ∈ arrows state, a.1 ≠ .outerDoorOpen →
      a.2.awaits = true ∨ a.2 = .openDoorViolation ∨ a.2 = .doorLockAndOpen ∨
        a.2 = .waitLockDoor := by
    cases state <;> decide
  rcases watched.explained with awaits | known
  · rcases arrow awaits _ mem opening with h | h | h | h
    · exact Or.inl h
    · exact Or.inr (Or.inl h)
    · exact Or.inr (Or.inr (Or.inl h))
    · exact Or.inr (Or.inr (Or.inr (Or.inl h)))
  · exact Or.inr (Or.inr (Or.inr (Or.inr known)))

include send

theorem Watched.move {state next : FlowState} (quiet : next.unlocks = false) {w : World User}
    (watched : Watched d state w) (explained : Explained d next w) :
    Watched d next (move cfg f d g state next w).context := by
  by_cases same : next = state
  · rw [same, move_self]
    exact watched
  rw [move_ne same]
  have left : Grows d w ((states cfg f d g state).exit ⟨next, w⟩).context :=
    Grows.exit send state ⟨next, w⟩
  have reached : ((states cfg f d g state).exit ⟨next, w⟩).currentState = next :=
    exit_currentState state _
  generalize (states cfg f d g state).exit ⟨next, w⟩ = sm at left reached ⊢
  subst reached
  exact Watched.entry send quiet (left.unlocks watched.unlocked) (explained.grows left)

theorem Watched.execute {state : FlowState} {event : Event} (login : event ≠ .userLogin)
    (opening : event ≠ .outerDoorOpen) {w : World User} (watched : Watched d state w) :
    Watched d (executeStateMachine (states cfg f d g) ⟨state, w⟩ event).currentState
      (executeStateMachine (states cfg f d g) ⟨state, w⟩ event).context := by
  refine execute_other (R := fun sm => Watched d sm.currentState sm.context) login w
    (fun next mem => ?_) (fun _ => watched) fun _ _ => ?_
  · rw [move_currentState (arrows_unlocks mem opening)]
    exact watched.move send (arrows_unlocks mem opening) (watched.explain mem opening)
  · exact (@Grows.write _ d (.activateAlarm d) rfl w).1.watched watched

omit send in
theorem Watched.raise {state : FlowState} {w : World User} (watched : Watched d state w) :
    Watched d state (raise w) := by
  have grows : Grows d w (ExtractionWorkflow.raise w) :=
    ⟨by cases d <;> rfl, List.Subset.refl _⟩
  exact grows.watched watched

theorem Watched.unLockDoor {sm : Machine User}
    (unlocked : (sm.context.workflow d).hasUnlocked = true →
      Commanded d (sinceIdle d sm.context.log))
    (explained : (sm.context.workflow d).user1 = none →
      Excused d (sinceIdle d sm.context.log) ∨ Alarmed d (sinceIdle d sm.context.log)) :
    Watched d (unLockDoor cfg f d sm).currentState (unLockDoor cfg f d sm).context := by
  unfold ExtractionWorkflow.unLockDoor
  split
  · next free => exact ⟨unlocked, Or.inr (explained free)⟩
  · next user1 _ =>
    rcases @Grows.write _ d (.unLock d (sm.context.loginDoor d) user1
      (sm.context.workflow d).user2) rfl sm.context with ⟨written, mem⟩
    have commanded : Commanded d (sinceIdle d (sm.context.write (.unLock d
      (sm.context.loginDoor d) user1 (sm.context.workflow d).user2)).log) := ⟨_, _, _, mem⟩
    have watched : Watched d sm.currentState (sm.context.write (.unLock d
        (sm.context.loginDoor d) user1 (sm.context.workflow d).user2)) :=
      ⟨written.unlocks unlocked, Or.inr (Or.inl (Or.inl commanded))⟩
    dsimp only
    split
    · exact Watched.raise (watched.execute send (by decide) (by decide))
    · refine ⟨fun _ => ?_, Or.inr (Or.inl (Or.inl ?_))⟩ <;> cases d <;> exact commanded

theorem Watched.waitUnlockDoorEntry {sm : Machine User}
    (unlocked : (sm.context.workflow d).hasUnlocked = true →
      Commanded d (sinceIdle d sm.context.log))
    (ne : sm.currentState ≠ .idle)
    (explained : (sm.context.workflow d).user1 = none →
      d = .inner ∧ sm.currentState = .waitUnlockDoor ∨
        Excused d (sinceIdle d sm.context.log) ∨ Alarmed d (sinceIdle d sm.context.log)) :
    Watched d (waitUnlockDoorEntry d (ExtractionWorkflow.unLockDoor cfg f d) sm).currentState
      (ExtractionWorkflow.waitUnlockDoorEntry d
        (ExtractionWorkflow.unLockDoor cfg f d) sm).context := by
  rcases Grows.write (entry_busy ne d) sm.context with ⟨written, mem⟩
  have workflow := workflow_write (.entry d sm.currentState) sm.context d
  have sent : Watched d
      (ExtractionWorkflow.unLockDoor cfg f d
        (onContext (World.write (.entry d sm.currentState)) sm)).currentState
      (ExtractionWorkflow.unLockDoor cfg f d
        (onContext (World.write (.entry d sm.currentState)) sm)).context := by
    refine Watched.unLockDoor send (written.unlocks unlocked) fun free => ?_
    rcases explained (workflow ▸ free) with ⟨rfl, state⟩ | known
    · exact Or.inl (Or.inr (Or.inr ⟨rfl, state ▸ mem⟩))
    · exact known.imp (fun excused => excused.mono written.sub) fun alarmed =>
        alarmed.mono written.sub
  unfold ExtractionWorkflow.waitUnlockDoorEntry
  dsimp only
  split
  · exact sent
  · exact Grows.watched (.modify (h := ({ · with timer := true })) (fun _ => rfl) d _) sent

theorem Watched.unlock {state next : FlowState} (unlocks : next.unlocks = true)
    (ne : next ≠ state) {w : World User} (watched : Watched d state w)
    (start : ∀ w : World User, ((f .outerDoorStart w).workflow d).users =
      (w.workflow d).users ∧ (f .outerDoorStart w).hasInner = w.hasInner)
    (explained : (w.workflow d).user1 = none → d = .inner ∧ next = .waitUnlockDoor ∨
      Excused d (sinceIdle d w.log) ∨ Alarmed d (sinceIdle d w.log)) :
    Watched d (ExtractionWorkflow.move cfg f d (ExtractionWorkflow.unLockDoor cfg f d) state next
        w).currentState
      (ExtractionWorkflow.move cfg f d (ExtractionWorkflow.unLockDoor cfg f d) state next
        w).context := by
  rw [move_ne ne]
  have left : Grows d w ((states cfg f d (ExtractionWorkflow.unLockDoor cfg f d) state).exit
    ⟨next, w⟩).context := Grows.exit send state ⟨next, w⟩
  have users : (((states cfg f d (ExtractionWorkflow.unLockDoor cfg f d) state).exit
    ⟨next, w⟩).context.workflow d).users = (w.workflow d).users := (exit_users start state _).1
  have reached : ((states cfg f d (ExtractionWorkflow.unLockDoor cfg f d) state).exit
    ⟨next, w⟩).currentState = next := exit_currentState state _
  generalize (states cfg f d (ExtractionWorkflow.unLockDoor cfg f d) state).exit ⟨next, w⟩ = sm
    at left users reached ⊢
  have busy : sm.currentState ≠ .idle := by
    rintro idle
    rw [← reached, idle] at unlocks
    cases unlocks
  have entered : Watched d (ExtractionWorkflow.waitUnlockDoorEntry d
      (ExtractionWorkflow.unLockDoor cfg f d) sm).currentState
      (ExtractionWorkflow.waitUnlockDoorEntry d
        (ExtractionWorkflow.unLockDoor cfg f d) sm).context := by
    refine .waitUnlockDoorEntry send (left.unlocks watched.unlocked) busy fun free => ?_
    rcases explained ((congrArg Prod.fst users).symm.trans free) with ⟨inner, state⟩ | known
    · exact Or.inl ⟨inner, reached.trans state⟩
    · exact Or.inr (known.imp (fun excused => excused.mono left.sub) fun alarmed =>
        alarmed.mono left.sub)
  cases next <;> first
    | exact entered
    | cases unlocks

omit send in
theorem openNext_cases (d : Door) (state : FlowState) (w : World User) :
    state.awaits = true ∧ (openNext d state w = .doorLockAndOpen ∨
        openNext d state w = .openDoorViolation) ∨
      state.awaits = false ∧ (openNext d state w = state ∨
        openNext d state w = .waitCloseDoor ∨ openNext d state w = .waitCloseDoorWarning) := by
  cases state with
  | idle | waitOuterDoorOpen | timeDelay | accessTime =>
    refine Or.inl ⟨rfl, ?_⟩
    unfold openNext
    dsimp only
    split
    · exact Or.inl rfl
    · exact Or.inr rfl
  | waitUnlockDoor | waitOpenDoor => exact Or.inr ⟨rfl, Or.inr (Or.inl rfl)⟩
  | waitLockDoor | waitLockDoorError => exact Or.inr ⟨rfl, Or.inr (Or.inr rfl)⟩
  | _ => exact Or.inr ⟨rfl, Or.inl rfl⟩

theorem Watched.openDoor {state : FlowState} {w : World User} (watched : Watched d state w)
    (silent : ¬ Excused d (sinceIdle d w.log)) :
    Alarmed d (sinceIdle d
      (executeStateMachine (states cfg f d g) ⟨state, w⟩ .openDoor).context.log) := by
  rw [execute_openDoor]
  have left (next : FlowState) : Grows d w ((states cfg f d g state).exit ⟨next, w⟩).context :=
    Grows.exit send state ⟨next, w⟩
  rcases openNext_cases d state w with ⟨awaits, opened⟩ | ⟨known, closing⟩
  · have locked : (w.workflow d).hasUnlocked ≠ true :=
      fun unlocked => silent (Or.inl (watched.unlocked unlocked))
    have ne : openNext d state w ≠ state := by
      rintro same
      rcases opened with next | next <;> rw [← same, next] at awaits <;> cases awaits
    rw [move_ne ne]
    rcases opened with next | next <;> rw [next]
    · rcases (doorLockAndOpenEntry_grows (d := d) _).2 with unlocked | alarmed
      · exact absurd ((left .doorLockAndOpen).unlocked.symm.trans unlocked) locked
      · exact alarmed
    · exact (openDoorViolationEntry_grows send _).2
  · have alarmed : Alarmed d (sinceIdle d w.log) := by
      rcases watched.explained with awaits | excused | alarmed
      · rw [known] at awaits
        cases awaits
      · exact absurd excused silent
      · exact alarmed
    refine alarmed.mono (Grows.sub ?_)
    by_cases same : openNext d state w = state
    · rw [same, move_self]
      exact .refl w
    · rw [move_ne same]
      rcases closing with stays | next | next
      · exact absurd stays same
      · rw [next]
        exact (left _).trans (Grows.timerEntry (by decide) _).1
      · rw [next]
        exact (left _).trans (Grows.timerEntry (by decide) _).1

end Machine

/-! ## Two machines -/

/-- The invariant of both machines. -/
def BothWatched (w : World User) : Prop :=
  ∀ d, Watched d (w.workflow d).currentState w

theorem InnerOnly.grows {w w' : World User} (innerOnly : InnerOnly w w') : Grows .outer w w' := by
  rcases innerOnly.lines with ⟨lines, log, own⟩
  refine .lines (congrArg Workflow.hasUnlocked innerOnly.outer) log fun line mem => ?_
  exact entersIdle_door (by rw [own line mem]; decide)

theorem BothWatched.grows {w w' : World User} (watched : BothWatched w)
    (grows : ∀ d, Grows d w w')
    (state : ∀ d, (w'.workflow d).currentState = (w.workflow d).currentState) :
    BothWatched w' := by
  intro d
  rw [state d]
  exact (grows d).watched (watched d)

theorem BothWatched.modify {w : World User} (watched : BothWatched w) (door : Door)
    {h : Workflow User → Workflow User}
    (kept : ∀ x, (h x).hasUnlocked = x.hasUnlocked ∧ (h x).currentState = x.currentState) :
    BothWatched (w.modify door h) := by
  refine watched.grows (fun d => .modify (fun x => (kept x).1) door w) fun d => ?_
  cases d <;> cases door <;> first
    | rfl
    | exact (kept _).2

theorem run_watched {f : Event → World User → World User} {d : Door} {event : Event}
    {w : World User}
    (watched : Watched d
      (executeStateMachine (states cfg f d (unLockDoor cfg f d))
        ⟨(w.workflow d).currentState, w⟩ event).currentState
      (executeStateMachine (states cfg f d (unLockDoor cfg f d))
        ⟨(w.workflow d).currentState, w⟩ event).context) :
    Watched d ((run cfg f d event w).workflow d).currentState (run cfg f d event w) := by
  have grows : Grows d (executeStateMachine (states cfg f d (unLockDoor cfg f d))
      ⟨(w.workflow d).currentState, w⟩ event).context (run cfg f d event w) := by
    unfold run
    apply Grows.modify
    exact fun _ => rfl
  rw [run_currentState]
  exact grows.watched watched

theorem executeInner_inner {event : Event} (login : event ≠ .userLogin) {w : World User}
    (watched : Watched .inner w.inner.currentState w) :
    Watched .inner (executeInner cfg event w).inner.currentState (executeInner cfg event w) := by
  refine run_watched (d := .inner) ?_
  by_cases opening : event = .outerDoorOpen
  · refine execute_other (R := fun sm => Watched .inner sm.currentState sm.context) login w
      (fun next mem => ?_) (fun _ => watched) fun _ expired => ?_
    · rw [opening] at mem
      rcases arrows_opening mem with ⟨standby, rfl⟩
      refine watched.unlock (fun _ w => .refl w) rfl ?_ (fun _ => ⟨rfl, rfl⟩) fun _ =>
        Or.inl ⟨rfl, rfl⟩
      rintro same
      change .waitUnlockDoor = w.inner.currentState at same
      change w.inner.currentState = _ ∨ w.inner.currentState = _ at standby
      rw [← same] at standby
      rcases standby with h | h <;> cases h
    · rw [opening] at expired
      cases expired
  · exact watched.execute (fun _ w => .refl w) login opening

theorem executeInner_watched {event : Event} (login : event ≠ .userLogin) {w : World User}
    (watched : BothWatched w) : BothWatched (executeInner cfg event w) := by
  intro d
  cases d with
  | outer =>
    have apart : InnerOnly w (executeInner cfg event w) := executeInner_innerOnly event w
    show Watched .outer (executeInner cfg event w).outer.currentState _
    rw [apart.outer]
    exact apart.grows.watched (watched .outer)
  | inner => exact executeInner_inner login (watched .inner)

theorem sendInner_watched {event : Event} (login : event ≠ .userLogin) {w : World User}
    (watched : BothWatched w) : BothWatched (sendInner cfg event w) := by
  unfold sendInner
  split
  · exact executeInner_watched login watched
  · exact watched

theorem frame_inner : Frame (sendInner cfg) .outer
    fun w : World User => Watched .inner w.inner.currentState w where
  write line _ _ own watched :=
    (Grows.write (entersIdle_door (by rw [own]; decide)) _).1.watched watched
  modify h w _ watched := by
    have grows : Grows .inner w (w.modify .outer h) := ⟨rfl, List.Subset.refl _⟩
    exact grows.watched watched
  removeLoggedUsers {w} watched := by
    have state : (w.removeLoggedUsers .outer).inner.currentState = w.inner.currentState := by
      rw [removeLoggedUsers_outer]
      dsimp only
      split <;> rfl
    rw [state]
    exact (Grows.removeLoggedUsers .outer w).watched watched
  send {event w} coupling watched := by
    unfold sendInner
    split
    · exact executeInner_inner (by rcases coupling with rfl | rfl <;> decide) watched
    · exact watched
  raise watched := watched.raise

theorem runOuter_inner (event : Event) {w : World User} (watched : BothWatched w) :
    Watched .inner (run cfg (sendInner cfg) .outer event w).inner.currentState
      (run cfg (sendInner cfg) .outer event w) :=
  frame_inner.run
    (fun own watched => (Grows.write (entersIdle_door (by rw [own]; decide)) _).1.watched watched)
    event (watched .inner)

theorem execute_watched {event : Event} (login : event ≠ .userLogin)
    (opening : event ≠ .outerDoorOpen) (door : Door) {w : World User} (watched : BothWatched w) :
    BothWatched (execute cfg door event w) := by
  cases door with
  | inner => exact executeInner_watched login watched
  | outer =>
    intro d
    cases d with
    | inner => exact runOuter_inner event watched
    | outer =>
      have send (event : Event) (w : World User) : Grows .outer w (sendInner cfg event w) :=
        (sendInner_innerOnly event w).grows
      exact run_watched ((watched .outer).execute send login opening)

/-! ## Logins -/

theorem loginNext_grows {d : Door} (state : FlowState) (w : World User) :
    Grows d w (loginNext cfg d state w).2 := by
  have delay : Grows d w (hasTimeDelay cfg d w).2 := by
    unfold hasTimeDelay
    split
    · exact .modify (h := ({ · with forceTimeDelayOverride := false })) (fun _ => rfl) d w
    · repeat' split
      all_goals exact .refl w
  cases state with
  | idle =>
    unfold loginNext
    dsimp only
    split
    · exact delay
    · exact .refl w
  | _ => exact .refl w

theorem loginNext_awaits {d : Door} {state : FlowState} {w : World User}
    (awaits : state.awaits = true) (quiet : (loginNext cfg d state w).1.unlocks = false) :
    (loginNext cfg d state w).1.awaits = true := by
  revert quiet
  cases state with
  | idle =>
    unfold loginNext
    dsimp only
    split
    · cases (hasTimeDelay cfg d w).1
      · intro quiet
        cases quiet
      · exact fun _ => rfl
    · exact fun _ => rfl
  | timeDelay | waitOuterDoorOpen => exact fun _ => rfl
  | accessTime =>
    unfold loginNext
    dsimp only
    split
    · intro quiet
      cases quiet
    · exact fun _ => rfl
  | _ => cases awaits

theorem isLoginComplete_user1 {d : Door} {w : World User}
    (complete : isLoginComplete cfg d w = true) : (w.workflow d).user1 ≠ none := by
  intro free
  unfold isLoginComplete at complete
  rw [free] at complete
  simp at complete

theorem login_outer {state : FlowState} {w : World User} (watched : Watched .outer state w) :
    Watched .outer
      (executeStateMachine (states cfg (sendInner cfg) .outer
        (unLockDoor cfg (sendInner cfg) .outer)) ⟨state, w⟩ .userLogin).currentState
      (executeStateMachine (states cfg (sendInner cfg) .outer
        (unLockDoor cfg (sendInner cfg) .outer)) ⟨state, w⟩ .userLogin).context := by
  have send (event : Event) (w : World User) : Grows .outer w (sendInner cfg event w) :=
    (sendInner_innerOnly event w).grows
  have guarded : Watched .outer state (loginNext cfg .outer state w).2 :=
    (loginNext_grows state w).watched watched
  rw [execute_login]
  cases unlocks : (loginNext cfg .outer state w).1.unlocks with
  | false =>
    rw [move_currentState unlocks]
    refine guarded.move send unlocks ?_
    rcases guarded.explained with awaits | known
    · exact Or.inl (loginNext_awaits awaits unlocks)
    · exact Or.inr (Or.inr (Or.inr (Or.inr known)))
  | true =>
    by_cases same : (loginNext cfg .outer state w).1 = state
    · rw [same, move_self]
      exact guarded
    · have users := (@loginNext_users _ cfg .outer state w).1
      refine guarded.unlock send unlocks same (fun w => ?_) fun free => ?_
      · have apart : InnerOnly w (sendInner cfg .outerDoorStart w) := sendInner_innerOnly _ w
        exact ⟨congrArg Workflow.users apart.outer, apart.hasInner⟩
      · have first : (w.workflow .outer).user1 = none :=
          (congrArg Prod.fst users).symm.trans free
        exact absurd first (isLoginComplete_user1 (loginNext_unlocks unlocks same))

theorem handleLogin_watched (d : Door) {w : World User} (watched : BothWatched w) :
    BothWatched (handleLogin cfg d w) := by
  cases d with
  | inner => exact watched
  | outer =>
    have logged : BothWatched (w.write (.login .outer (isLoginComplete cfg .outer w))) := by
      refine watched.grows (fun d => (Grows.write rfl w).1) fun d => ?_
      rw [workflow_write]
    intro d
    cases d with
    | outer => exact run_watched (login_outer (logged .outer))
    | inner => exact runOuter_inner .userLogin logged

/-! ## Runs -/

/-- An opening since the machine was idle is excused, or alarms. -/
def NotSilent [DecidableEq User] (cfg : Config User) (w : World User) (op : Op User) : Prop :=
  ∀ d, op.Opens cfg d → ¬ Excused d (sinceIdle d w.log) →
    Alarmed d (sinceIdle d (step cfg op w).log)

theorem onDoorOpen_watched (d : Door) {w : World User} (watched : BothWatched w) :
    BothWatched (onDoorOpen cfg d w) := by
  have opened : BothWatched (execute cfg d .openDoor w) :=
    execute_watched (by decide) (by decide) d watched
  unfold onDoorOpen
  dsimp only
  split
  · exact executeInner_watched (by decide) opened
  · exact opened

theorem execute_alarmed {d : Door} {w : World User} (watched : BothWatched w)
    (silent : ¬ Excused d (sinceIdle d w.log)) :
    Alarmed d (sinceIdle d (execute cfg d .openDoor w).log) := by
  cases d with
  | outer =>
    have send (event : Event) (w : World User) : Grows .outer w (sendInner cfg event w) :=
      (sendInner_innerOnly event w).grows
    exact (watched .outer).openDoor send silent
  | inner => exact (watched .inner).openDoor (fun _ w => .refl w) silent

theorem onDoorOpen_alarmed {d : Door} {w : World User} (watched : BothWatched w)
    (silent : ¬ Excused d (sinceIdle d w.log)) :
    Alarmed d (sinceIdle d (onDoorOpen cfg d w).log) := by
  have alarmed : Alarmed d (sinceIdle d (execute cfg d .openDoor w).log) :=
    execute_alarmed watched silent
  unfold onDoorOpen
  dsimp only
  split
  · next behind =>
    rcases behind with ⟨rfl, -⟩
    exact alarmed.mono (executeInner_innerOnly _ _).grows.sub
  · exact alarmed

theorem removeLoggedUsers_watched (d : Door) {w : World User} (watched : BothWatched w) :
    BothWatched (w.removeLoggedUsers d) := by
  refine watched.grows (fun _ => .removeLoggedUsers d w) fun door => ?_
  cases d with
  | inner => cases door <;> rfl
  | outer =>
    rw [removeLoggedUsers_outer]
    cases door with
    | outer => rfl
    | inner =>
      show (if w.hasInner = true then _ else _ : Workflow User).currentState = _
      split <;> rfl

theorem BothWatched.raise {w : World User} (watched : BothWatched w) : BothWatched (raise w) :=
  watched.grows (fun d => by cases d <;> exact ⟨rfl, List.Subset.refl _⟩)
    fun d => by cases d <;> rfl

theorem cancelTimeDelay_watched (d : Door) {w : World User} (watched : BothWatched w) :
    BothWatched (cancelTimeDelay cfg d w) := by
  unfold cancelTimeDelay
  split
  · exact watched.raise
  have cancelled : BothWatched (execute cfg d .cancelTimeDelay w) :=
    execute_watched (by decide) (by decide) d watched
  dsimp only
  split
  · exact sendInner_watched (by decide) cancelled
  · exact cancelled

theorem timerExpired_watched (d : Door) {w : World User} (watched : BothWatched w) :
    BothWatched (timerExpired cfg d w) := by
  unfold timerExpired
  split
  · have stopped : BothWatched (w.stopTimer d) :=
      watched.modify d (h := ({ · with timer := false })) fun _ => ⟨rfl, rfl⟩
    refine execute_watched (by decide) (by decide) d ?_
    refine stopped.grows (fun d => (Grows.write rfl _).1) fun d => ?_
    rw [workflow_write]
  · exact watched

variable [DecidableEq User]

theorem onLoginUser_watched (d : Door) (user : User) {w : World User} (watched : BothWatched w) :
    BothWatched (onLoginUser cfg d user w) := by
  have first :
      BothWatched (setInnerUser1 d user (w.modify d ({ · with user1 := some user }))) := by
    have set := watched.modify d (h := ({ · with user1 := some user })) fun _ => ⟨rfl, rfl⟩
    unfold setInnerUser1
    split
    · exact set.modify .inner fun _ => ⟨rfl, rfl⟩
    · exact set
  have second :
      BothWatched (setInnerUser2 d user (w.modify d ({ · with user2 := some user }))) := by
    have set := watched.modify d (h := ({ · with user2 := some user })) fun _ => ⟨rfl, rfl⟩
    unfold setInnerUser2
    split
    · exact set.modify .inner fun _ => ⟨rfl, rfl⟩
    · exact set
  unfold onLoginUser
  split
  · exact watched.raise
  split
  · exact handleLogin_watched d first
  split
  · split
    · exact watched.raise
    split
    · exact watched.raise
    · exact handleLogin_watched d second
  · exact watched

theorem BothWatched.step {w : World User} (op : Op User) (watched : BothWatched w) :
    BothWatched (step cfg op w) := by
  have quiet : BothWatched { w with raised := false } :=
    watched.grows (fun d => by cases d <;> exact ⟨rfl, List.Subset.refl _⟩)
      fun d => by cases d <;> rfl
  have events (d : Door) (event : Event) (w : World User)
      (report : event = .closeDoor ∨ event = .lockDoor ∨ event = .unlockDoor)
      (watched : BothWatched w) : BothWatched (execute cfg d event w) := by
    rcases report with rfl | rfl | rfl <;> exact execute_watched (by decide) (by decide) d watched
  cases op with
  | onLoginUser d user => exact onLoginUser_watched d user quiet
  | removeLoggedUsers d => exact removeLoggedUsers_watched d quiet
  | forceTimeDelayOverride d value =>
    exact quiet.modify d (h := ({ · with forceTimeDelayOverride := value })) fun _ => ⟨rfl, rfl⟩
  | setInnerDoorWorkflow hasInner =>
    exact watched.grows (fun d => by cases d <;> exact ⟨rfl, List.Subset.refl _⟩)
      fun d => by cases d <;> rfl
  | cancelTimeDelay d => exact cancelTimeDelay_watched d quiet
  | timerExpired d => exact timerExpired_watched d quiet
  | plunger d isOpen =>
    exact plunger_rule (events d) (fun _ _ watched => watched.modify d fun _ => ⟨rfl, rfl⟩) quiet
      fun _ => onDoorOpen_watched d quiet
  | locker d isUnlocked =>
    exact locker_rule (events d) (fun _ _ watched => watched.modify d fun _ => ⟨rfl, rfl⟩) quiet
      fun _ => onDoorOpen_watched d quiet
  | board unlockFails =>
    exact watched.grows (fun d => by cases d <;> exact ⟨rfl, List.Subset.refl _⟩)
      fun d => by cases d <;> rfl

theorem BothWatched.notSilent {w : World User} (op : Op User) (watched : BothWatched w) :
    NotSilent cfg w op := by
  intro d opens silent
  have quiet : BothWatched { w with raised := false } :=
    watched.grows (fun d => by cases d <;> exact ⟨rfl, List.Subset.refl _⟩)
      fun d => by cases d <;> rfl
  have alarmed : Alarmed d (sinceIdle d (onDoorOpen cfg d { w with raised := false }).log) :=
    onDoorOpen_alarmed quiet silent
  cases op with
  | plunger door isOpen =>
    rcases opens with ⟨rfl, rfl, sensor⟩
    show Alarmed door (sinceIdle door (plunger cfg door true { w with raised := false }).log)
    unfold plunger andThen
    rcases sensor with sensor | sensor <;> rw [sensor] <;> dsimp only <;> split
    case inl.isTrue | inr.isTrue => exact alarmed
    all_goals cases door <;> exact alarmed
  | locker door isUnlocked =>
    rcases opens with ⟨rfl, rfl, sensor⟩
    show Alarmed door (sinceIdle door (locker cfg door true { w with raised := false }).log)
    unfold locker andThen
    rw [sensor]
    dsimp only
    split
    · exact alarmed
    · cases door <;> exact alarmed
  | _ => cases opens

/-- In every run, an opening since the machine was idle is excused, or alarms. -/
theorem alarmed_run (ops : List (Op User)) :
    Trace.Always (ExtractionWorkflow.step cfg) (NotSilent cfg) ops World.start := by
  refine Trace.Always.of_invariant BothWatched
    (fun watched _ => ⟨watched.step _, watched.notSilent _⟩) ?_ (Trace.Always.unconditional ops _)
  intro d
  cases d <;> exact ⟨fun unlocked => (by cases unlocked), Or.inl rfl⟩

/-- Doors with a plunger and a locker, which nobody opens. -/
def bothSensors : Config Nat where
  keyCount _ := 1
  delayOpenTime _ := 0
  sensorType _ := .both
  doors _ := []
  profile := id
  timeDelayOverride _ := false
  dualAccessList := []

/-- The lock is reported unlocked while the machine is idle, and the door opens: the machine
waits for it to be closed, without an alarm. -/
theorem silent_unlocked :
    (Trace.after (ExtractionWorkflow.step bothSensors)
        [.locker .outer true, .plunger .outer true] World.start).log =
      [.entry .outer .waitLockDoor, .entry .outer .waitCloseDoorWarning] := by
  decide

end CimArm.ExtractionWorkflow
