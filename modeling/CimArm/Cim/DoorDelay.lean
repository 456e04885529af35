import CimArm.Cim.WorkflowMoves

/-!
# The time delay

A complete login starts the time delay of a door.  When its timer has expired, the users
log in once more within the access time, and the door is unlocked.  `Paced` is the
invariant of the timers, and `delayed_run` is the result: unless the delay does not
apply, the state that unlocks the door is entered in no other way.  The machine of an
inner door knows no delay, it waits for the outer door's opening.
-/

namespace CimArm.ExtractionWorkflow

open Engine World List

variable {User : Type} {cfg : Config User}

/-! ## Logins and timers -/

/-- The complete logins of the outer door, or of one that stands alone, and its timers. -/
def Entry.Paces : Entry User → Bool
  | .login .outer true | .timerExpired .outer _ => true
  | _ => false

/-- The last login was complete, and the time delay has expired since. -/
def AfterDelay (log : List (Entry User)) : Prop :=
  [.login .outer true, .timerExpired .outer .timeDelay] <:+ log.filter Entry.Paces

/-- The door is reported open. -/
def FlowState.isOpen : FlowState → Bool
  | .waitCloseDoor | .waitCloseDoorWarning | .waitCloseDoorError | .openDoorViolation
  | .doorLockAndOpen => true
  | _ => false

/-- The delay does not apply: it is overridden, for one login or by a user's profile, the
inner door is open, or there is none. -/
def Exempt (cfg : Config User) (w : World User) (user : User) : Prop :=
  w.outer.forceTimeDelayOverride = true ∨
    (∃ logged, (w.outer.user1 = some logged ∨ w.outer.user2 = some logged ∨ user = logged) ∧
      cfg.overridesTimeDelay logged = true) ∨
    w.hasInner = true ∧ w.inner.isDoorOpen = true ∨ getDelayOpenTime cfg .outer w = 0

/-- The operation is a login that completes, and the delay is over or does not apply. -/
def Waited [DecidableEq User] (cfg : Config User) (w : World User) (op : Op User) : Prop :=
  ∃ user, op = .onLoginUser .outer user ∧
    w.log ++ [.login .outer true] <+: (step cfg op w).log ∧
    (AfterDelay w.log ∨ Exempt cfg w user)

/-- The lines that an operation may log. -/
def Allowed [DecidableEq User] (cfg : Config User) (w : World User) (op : Op User) :
    Entry User → Prop
  | .entry .outer .waitUnlockDoor => Waited cfg w op
  | .unLock .outer .. => Waited cfg w op ∨ w.outer.currentState.isOpen = true
  | .entry .inner .waitUnlockDoor | .unLock .inner .. =>
    op.Opens cfg .outer ∧ w.StandsBy
  | _ => True

def Delayed [DecidableEq User] (cfg : Config User) (w : World User) (op : Op User) : Prop :=
  ∃ lines, (step cfg op w).log = w.log ++ lines ∧ ∀ line ∈ lines, Allowed cfg w op line

/-! ## Guards -/

variable {d : Door}

theorem hasTimeDelay_false {w : World User} (none : (hasTimeDelay cfg d w).1 = false) :
    (w.workflow d).forceTimeDelayOverride = true ∨
      (w.workflow d).user1.any cfg.overridesTimeDelay = true ∨
      (w.workflow d).user2.any cfg.overridesTimeDelay = true ∨
      w.hasInner = true ∧ w.inner.isDoorOpen = true ∨ getDelayOpenTime cfg d w = 0 := by
  unfold hasTimeDelay at none
  split at none
  · next force => exact Or.inl force
  split at none
  · next first => exact Or.inr (Or.inl first)
  split at none
  · next inner => exact Or.inr (Or.inr (Or.inr (Or.inl inner.2)))
  split at none
  · next second => exact Or.inr (Or.inr (Or.inl second.2.2))
  · exact Or.inr (Or.inr (Or.inr (Or.inr (by simpa using none))))

theorem loginNext_cases {state : FlowState} {w : World User}
    (unlocks : (loginNext cfg d state w).1.unlocks = true)
    (ne : (loginNext cfg d state w).1 ≠ state) : (loginNext cfg d state w).1 = .waitUnlockDoor ∧
        (state = .accessTime ∨ state = .idle ∧ (hasTimeDelay cfg d w).1 = false) ∨
      (loginNext cfg d state w).1 = .waitUnlockDoorWithOpenDoor ∧ state.isOpen = true := by
  have complete := loginNext_unlocks unlocks ne
  cases state with
  | idle =>
    cases delay : (hasTimeDelay cfg d w).1 with
    | false => exact Or.inl ⟨by simp [loginNext, complete, delay], Or.inr ⟨rfl, rfl⟩⟩
    | true =>
      have next : (loginNext cfg d .idle w).1 = .timeDelay := by simp [loginNext, complete, delay]
      rw [next] at unlocks
      cases unlocks
  | accessTime => exact Or.inl ⟨by simp [loginNext, complete], Or.inl rfl⟩
  | timeDelay => cases unlocks
  | waitCloseDoor | waitCloseDoorWarning | waitCloseDoorError | openDoorViolation
  | doorLockAndOpen => exact Or.inr ⟨by simp [loginNext, complete], rfl⟩
  | _ => exact absurd rfl ne

/-- The time delay starts with a complete login of an idle machine, and a login that is not
complete leaves the access time as it is. -/
theorem loginNext_paced {state : FlowState} {w : World User} :
    ((loginNext cfg d state w).1 = .timeDelay → isLoginComplete cfg d w = true) ∧
      ((loginNext cfg d state w).1 = .accessTime →
        state = .accessTime ∧ isLoginComplete cfg d w = false) := by
  cases complete : isLoginComplete cfg d w <;>
    cases state <;> simp [loginNext, complete]
  cases (hasTimeDelay cfg d w).1 <;> simp

/-! ## The invariant -/

/-- The invariant: where the machine waits, a login and its delay have gone before. -/
structure Paced (w : World User) : Prop where
  timeDelay : w.outer.currentState = .timeDelay →
    [.login .outer true] <:+ w.log.filter Entry.Paces
  accessTime : w.outer.currentState = .accessTime → AfterDelay w.log

theorem Paced.start : Paced (.start : World User) :=
  ⟨fun state => (by cases state), fun state => (by cases state)⟩

theorem filter_paces {lines : List (Entry User)} (calm : ∀ line ∈ lines, line.Paces = false)
    (log : List (Entry User)) : (log ++ lines).filter Entry.Paces = log.filter Entry.Paces := by
  have none : lines.filter Entry.Paces = [] :=
    filter_eq_nil_iff.mpr fun line mem => by simp [calm line mem]
  rw [filter_append, none, append_nil]

variable [DecidableEq User]

/-- What neither starts nor ends a wait. -/
structure Calm (cfg : Config User) (op : Op User) (w w' : World User) : Prop where
  lines : ∃ lines, w'.log = w.log ++ lines ∧
    ∀ line ∈ lines, Allowed cfg w op line ∧ line.Paces = false
  state : w'.outer.currentState = w.outer.currentState ∨
    w'.outer.currentState ≠ .timeDelay ∧ w'.outer.currentState ≠ .accessTime

theorem allowed_of_plain {w : World User} {op : Op User} (line : Entry User)
    (plain : line.Plain) : Allowed cfg w op line ∧ line.Paces = false := by
  cases line with
  | entry d state => cases d <;> cases state <;> first
    | exact ⟨trivial, rfl⟩
    | cases plain
  | login | timerExpired | unLock => cases plain
  | _ => exact ⟨trivial, rfl⟩

namespace Calm

variable {op : Op User} {w w' : World User}

theorem refl : Calm cfg op w w :=
  ⟨⟨[], (append_nil _).symm, forall_mem_nil _⟩, Or.inl rfl⟩

theorem trans {w'' : World User} (calm : Calm cfg op w w')
    (lines : ∃ lines, w''.log = w'.log ++ lines ∧
      ∀ line ∈ lines, Allowed cfg w op line ∧ line.Paces = false)
    (state : w''.outer.currentState = w'.outer.currentState ∨
      w''.outer.currentState ≠ .timeDelay ∧ w''.outer.currentState ≠ .accessTime) :
    Calm cfg op w w'' := by
  rcases calm.lines with ⟨before, eq, allowed⟩
  rcases lines with ⟨more, eq', allowed'⟩
  refine ⟨⟨before ++ more, by rw [eq', eq, append_assoc],
    forall_mem_append.mpr ⟨allowed, allowed'⟩⟩, ?_⟩
  rcases state with same | other
  · rw [same]
    exact calm.state
  · exact Or.inr other

theorem same (calm : Calm cfg op w w') {w'' : World User} (log : w''.log = w'.log)
    (state : w''.outer.currentState = w'.outer.currentState) : Calm cfg op w w'' :=
  calm.trans ⟨[], by rw [log, append_nil], forall_mem_nil _⟩ (Or.inl state)

theorem modify (calm : Calm cfg op w w') (d : Door) {h : Workflow User → Workflow User}
    (state : ∀ x, (h x).currentState = x.currentState) : Calm cfg op w (w'.modify d h) := by
  cases d with
  | outer => exact calm.same rfl (state _)
  | inner => exact calm.same rfl rfl

omit [DecidableEq User] in
theorem arrows_calm {state next : FlowState} {event : Event}
    (mem : (event, next) ∈ arrows state) (timer : event ≠ .timerExpired) :
    next ≠ .timeDelay ∧ next ≠ .accessTime := by
  have arrow : ∀ a ∈ arrows state, a.1 ≠ .timerExpired → a.2 ≠ .timeDelay ∧ a.2 ≠ .accessTime := by
    cases state <;> decide
  exact arrow _ mem timer

theorem execute (calm : Calm cfg op w w') {event : Event} (login : event ≠ .userLogin)
    (opening : event ≠ .outerDoorOpen) (timer : event ≠ .timerExpired) (d : Door) :
    Calm cfg op w (execute cfg d event w') := by
  refine calm.trans (execute_changes allowed_of_plain login opening d w').lines ?_
  cases d with
  | outer =>
    rcases @execute_currentState _ cfg _ login opening .outer w' with mem | ⟨same, -⟩
    · exact Or.inr (arrows_calm mem timer)
    · exact Or.inl same
  | inner => exact Or.inl (congrArg _ (executeInner_innerOnly event w').outer)

theorem paced (calm : Calm cfg op w w') (paced : Paced w) : Paced w' := by
  rcases calm.lines with ⟨lines, eq, allowed⟩
  have history : w'.log.filter Entry.Paces = w.log.filter Entry.Paces := by
    rw [eq, filter_paces fun line mem => (allowed line mem).2]
  refine ⟨fun waits => ?_, fun waits => ?_⟩
  · rcases calm.state with same | ⟨other, -⟩
    · rw [history]
      exact paced.timeDelay (same.symm.trans waits)
    · exact absurd waits other
  · unfold AfterDelay
    rcases calm.state with same | ⟨-, other⟩
    · rw [history]
      exact paced.accessTime (same.symm.trans waits)
    · exact absurd waits other

theorem result (stepped : step cfg op w = w') (calm : Calm cfg op w w') (paced : Paced w) :
    Paced (step cfg op w) ∧ Delayed cfg w op := by
  rcases calm.lines with ⟨lines, eq, allowed⟩
  rw [← stepped] at eq
  exact ⟨stepped ▸ calm.paced paced, lines, eq, fun line mem => (allowed line mem).1⟩

end Calm

/-! ## Logins -/

/-- The world in which a user's login at the outer door is handled. -/
structure LogsIn (user : User) (w w' : World User) : Prop where
  state : w'.outer.currentState = w.outer.currentState
  force : w'.outer.forceTimeDelayOverride = w.outer.forceTimeDelayOverride
  users : ∀ logged, w'.outer.user1 = some logged ∨ w'.outer.user2 = some logged →
    w.outer.user1 = some logged ∨ w.outer.user2 = some logged ∨ user = logged
  hasInner : w'.hasInner = w.hasInner
  isDoorOpen : w'.inner.isDoorOpen = w.inner.isDoorOpen
  log : w'.log = w.log

omit [DecidableEq User] in
theorem LogsIn.exempt {user : User} {w w' : World User} (logsIn : LogsIn user w w')
    {line : Entry User} (none : (hasTimeDelay cfg .outer (w'.write line)).1 = false) :
    Exempt cfg w user := by
  have overridden {logged : Option User}
      (among : ∀ user, logged = some user →
        w'.outer.user1 = some user ∨ w'.outer.user2 = some user)
      (any : logged.any cfg.overridesTimeDelay = true) : Exempt cfg w user := by
    rcases (Option.any_eq_true _ _).mp any with ⟨logged, eq, overrides⟩
    exact Or.inr (Or.inl ⟨logged, logsIn.users logged (among logged eq), overrides⟩)
  rcases hasTimeDelay_false none with force | first | second | inner | delay
  · exact Or.inl (logsIn.force.symm.trans force)
  · exact overridden (fun _ eq => Or.inl eq) first
  · exact overridden (fun _ eq => Or.inr eq) second
  · exact Or.inr (Or.inr (Or.inl ⟨logsIn.hasInner.symm.trans inner.1,
      logsIn.isDoorOpen.symm.trans inner.2⟩))
  · refine Or.inr (Or.inr (Or.inr ?_))
    have door : (w'.write line).loginDoor .outer = w.loginDoor .outer := by
      show (if Door.outer = .outer ∧ w'.hasInner = true then Door.inner else .outer) = _
      rw [logsIn.hasInner]
      rfl
    unfold getDelayOpenTime at delay ⊢
    rw [← door]
    exact delay

theorem LogsIn.handleLogin {user : User} {w w' : World User} (logsIn : LogsIn user w w')
    (paced : Paced w)
    (handled : step cfg (.onLoginUser .outer user) w = handleLogin cfg .outer w') :
    Paced (step cfg (.onLoginUser .outer user) w) ∧ Delayed cfg w (.onLoginUser .outer user) := by
  have log : (w'.write (.login .outer (isLoginComplete cfg .outer w'))).log =
      w.log ++ [.login .outer (isLoginComplete cfg .outer w')] := by
    rw [← logsIn.log]
    rfl
  have completes (complete : isLoginComplete cfg .outer w' = true) :
      w.log ++ [.login .outer true] <+: (step cfg (.onLoginUser .outer user) w).log := by
    have written : Changes (fun _ => True) _ (ExtractionWorkflow.handleLogin cfg .outer w') :=
      handleLogin_changes (fun _ _ => trivial) fun _ _ _ _ _ => ⟨trivial, fun _ _ _ => trivial⟩
    rcases written.lines with ⟨lines, eq, -⟩
    rw [handled, eq, log, complete]
    exact prefix_append _ _
  have changes : Changes (fun line => Allowed cfg w (.onLoginUser .outer user) line ∧
      line.Paces = false) (w'.write (.login .outer (isLoginComplete cfg .outer w')))
      (ExtractionWorkflow.handleLogin cfg .outer w') := by
    refine handleLogin_changes allowed_of_plain ?_
    intro next eq unlocks ne complete
    subst eq
    rcases loginNext_cases unlocks ne with ⟨reached, wait⟩ | ⟨reached, isOpen⟩
    · have waited : Waited cfg w (.onLoginUser .outer user) := by
        refine ⟨user, rfl, completes complete, ?_⟩
        rcases wait with access | ⟨-, none⟩
        · exact Or.inl (paced.accessTime (logsIn.state.symm.trans access))
        · exact Or.inr (logsIn.exempt none)
      rw [reached]
      exact ⟨⟨waited, rfl⟩, fun _ _ _ => ⟨Or.inl waited, rfl⟩⟩
    · rw [logsIn.state] at isOpen
      rw [reached]
      exact ⟨⟨trivial, rfl⟩, fun _ _ _ => ⟨Or.inr isOpen, rfl⟩⟩
  rcases changes.lines with ⟨lines, eq, allowed⟩
  rw [log, ← handled] at eq
  refine ⟨?_, _, eq.trans (append_assoc ..), ?_⟩
  · have history : (step cfg (.onLoginUser .outer user) w).log.filter Entry.Paces =
        (w.log ++ [Entry.login .outer (isLoginComplete cfg .outer w')]).filter Entry.Paces := by
      rw [eq, filter_paces fun line mem => (allowed line mem).2]
    rcases @handleLogin_currentState _ cfg w' with ⟨next, leads, same | ⟨-, mem⟩⟩
    · rw [← handled] at same
      refine ⟨fun waits => ?_, fun waits => ?_⟩
      · have complete := loginNext_paced.1 (leads.symm.trans (same.symm.trans waits))
        change isLoginComplete cfg .outer w' = true at complete
        rw [history, complete, filter_append]
        exact suffix_append _ _
      · rcases loginNext_paced.2 (leads.symm.trans (same.symm.trans waits)) with
          ⟨access, incomplete⟩
        change isLoginComplete cfg .outer w' = false at incomplete
        unfold AfterDelay
        rw [history, incomplete, filter_paces (forall_mem_singleton.mpr rfl)]
        exact paced.accessTime (logsIn.state.symm.trans access)
    · rcases Calm.arrows_calm mem (by decide) with ⟨timeDelay, accessTime⟩
      rw [← handled] at timeDelay accessTime
      exact ⟨fun waits => absurd waits timeDelay, fun waits => absurd waits accessTime⟩
  · refine forall_mem_cons.mpr ⟨trivial, fun line mem => (allowed line mem).1⟩

omit [DecidableEq User] in
theorem LogsIn.setUser1 (user : User) (w : World User) :
    LogsIn user w (setInnerUser1 .outer user
      (World.modify .outer ({ · with user1 := some user }) { w with raised := false })) := by
  have users : ∀ logged, some user = some logged ∨ w.outer.user2 = some logged →
      w.outer.user1 = some logged ∨ w.outer.user2 = some logged ∨ user = logged := by
    rintro logged (new | second)
    · exact Or.inr (Or.inr (Option.some.inj new))
    · exact Or.inr (Or.inl second)
  unfold setInnerUser1
  split <;> exact ⟨rfl, rfl, users, rfl, rfl, rfl⟩

omit [DecidableEq User] in
theorem LogsIn.setUser2 (user : User) (w : World User) :
    LogsIn user w (setInnerUser2 .outer user
      (World.modify .outer ({ · with user2 := some user }) { w with raised := false })) := by
  have users : ∀ logged, w.outer.user1 = some logged ∨ some user = some logged →
      w.outer.user1 = some logged ∨ w.outer.user2 = some logged ∨ user = logged := by
    rintro logged (first | new)
    · exact Or.inl first
    · exact Or.inr (Or.inr (Option.some.inj new))
  unfold setInnerUser2
  split <;> exact ⟨rfl, rfl, users, rfl, rfl, rfl⟩

theorem onLoginUser_inner (user : User) (w : World User) :
    (onLoginUser cfg .inner user w).log = w.log ∧
      (onLoginUser cfg .inner user w).outer = w.outer := by
  unfold onLoginUser
  split
  · exact ⟨rfl, rfl⟩
  split
  · exact ⟨rfl, rfl⟩
  · split
    · split
      · exact ⟨rfl, rfl⟩
      split <;> exact ⟨rfl, rfl⟩
    · exact ⟨rfl, rfl⟩

theorem Paced.onLoginUser {w : World User} (paced : Paced w) (d : Door) (user : User) :
    Paced (step cfg (.onLoginUser d user) w) ∧ Delayed cfg w (.onLoginUser d user) := by
  have stepped : step cfg (.onLoginUser d user) w =
      ExtractionWorkflow.onLoginUser cfg d user { w with raised := false } := rfl
  cases d with
  | inner =>
    rcases @onLoginUser_inner _ cfg _ user { w with raised := false } with ⟨log, outer⟩
    exact Calm.result stepped (Calm.refl.same log (congrArg _ outer)) paced
  | outer =>
    unfold ExtractionWorkflow.onLoginUser at stepped
    split at stepped
    · exact Calm.result stepped (Calm.refl.same rfl rfl) paced
    split at stepped
    · exact LogsIn.handleLogin (LogsIn.setUser1 user _) paced stepped
    · split at stepped
      · split at stepped
        · exact Calm.result stepped (Calm.refl.same rfl rfl) paced
        split at stepped
        · exact Calm.result stepped (Calm.refl.same rfl rfl) paced
        · exact LogsIn.handleLogin (LogsIn.setUser2 user _) paced stepped
      · exact Calm.result stepped (Calm.refl.same rfl rfl) paced

/-! ## Timers and reports -/

theorem Calm.removeLoggedUsers {op : Op User} {w w' : World User} (calm : Calm cfg op w w')
    (d : Door) : Calm cfg op w (w'.removeLoggedUsers d) := by
  cases d with
  | outer =>
    rw [removeLoggedUsers_outer]
    exact calm.same rfl rfl
  | inner => exact calm.same rfl rfl

theorem Calm.cancelTimeDelay {op : Op User} {w w' : World User} (calm : Calm cfg op w w')
    (d : Door) : Calm cfg op w (cancelTimeDelay cfg d w') := by
  have cancelled : Calm cfg op w (ExtractionWorkflow.execute cfg d .cancelTimeDelay w') :=
    calm.execute (by decide) (by decide) (by decide) d
  unfold ExtractionWorkflow.cancelTimeDelay
  split
  · exact calm.same rfl rfl
  dsimp only
  split
  · exact cancelled.trans (sendInner_changes allowed_of_plain _ _ (Or.inr rfl)).lines
      (Or.inl (congrArg _ (sendInner_innerOnly _ _).outer))
  · exact cancelled

omit [DecidableEq User] in
theorem arrows_timerExpired {state next : FlowState}
    (expired : (Event.timerExpired, next) ∈ arrows state) :
    next ≠ .timeDelay ∧ (next = .accessTime → state = .timeDelay) := by
  have arrow : ∀ a ∈ arrows state, a.1 = .timerExpired →
      a.2 ≠ .timeDelay ∧ (a.2 = .accessTime → state = .timeDelay) := by
    cases state <;> decide
  exact arrow _ expired rfl

theorem Paced.timerExpired {w : World User} (paced : Paced w) (d : Door) :
    Paced (step cfg (.timerExpired d) w) ∧ Delayed cfg w (.timerExpired d) := by
  have quiet : Calm cfg (.timerExpired d) w { w with raised := false } := Calm.refl.same rfl rfl
  have stepped : step cfg (.timerExpired d) w =
      ExtractionWorkflow.timerExpired cfg d { w with raised := false } := rfl
  unfold ExtractionWorkflow.timerExpired at stepped
  split at stepped
  case isFalse => exact Calm.result stepped quiet paced
  generalize written : (World.stopTimer d { w with raised := false }).write
    (.timerExpired d ({ w with raised := false }.workflow d).currentState) = w' at stepped
  have log : w'.log = w.log ++ [.timerExpired d (w.workflow d).currentState] := by
    rw [← written]
    cases d <;> rfl
  have state : w'.outer.currentState = w.outer.currentState := by
    rw [← written]
    cases d <;> rfl
  have changes : Changes (fun line => Allowed cfg w (.timerExpired d) line ∧ line.Paces = false)
      w' (ExtractionWorkflow.execute cfg d .timerExpired w') :=
    execute_changes allowed_of_plain (by decide) (by decide) d w'
  rcases changes.lines with ⟨lines, eq, allowed⟩
  cases d with
  | inner =>
    have calm : Calm cfg (.timerExpired .inner) w w' :=
      Calm.refl.trans ⟨_, log, forall_mem_singleton.mpr ⟨trivial, rfl⟩⟩ (Or.inl state)
    have executed : Calm cfg (.timerExpired .inner) w
        (ExtractionWorkflow.execute cfg .inner .timerExpired w') :=
      calm.trans ⟨lines, eq, allowed⟩ (Or.inl (congrArg _ (executeInner_innerOnly _ _).outer))
    exact Calm.result stepped executed paced
  | outer =>
    rw [log, ← stepped] at eq
    refine ⟨?_, _, eq.trans (append_assoc ..), ?_⟩
    · have history : (step cfg (.timerExpired .outer) w).log.filter Entry.Paces =
          w.log.filter Entry.Paces ++ [.timerExpired .outer w.outer.currentState] := by
        rw [eq, filter_paces fun line mem => (allowed line mem).2, filter_append]
        rfl
      rcases @execute_currentState _ cfg .timerExpired (by decide) (by decide) .outer w' with
        expired | ⟨same, none⟩
      · change (_, (ExtractionWorkflow.execute cfg .outer .timerExpired w').outer.currentState) ∈
          arrows w'.outer.currentState at expired
        rw [← stepped, state] at expired
        rcases arrows_timerExpired expired with ⟨timeDelay, accessTime⟩
        refine ⟨fun waits => absurd waits timeDelay, fun waits => ?_⟩
        have delay := accessTime waits
        rcases paced.timeDelay delay with ⟨before, login⟩
        unfold AfterDelay
        rw [history, ← login, delay]
        exact ⟨before, by simp⟩
      · change (ExtractionWorkflow.execute cfg .outer .timerExpired w').outer.currentState =
          w'.outer.currentState at same
        change ∀ next, (Event.timerExpired, next) ∉ arrows w'.outer.currentState at none
        rw [← stepped, state] at same
        rw [state] at none
        refine ⟨fun waits => ?_, fun waits => ?_⟩
        · rw [same.symm.trans waits] at none
          exact absurd (mem_cons_self ..) (none .accessTime)
        · rw [same.symm.trans waits] at none
          exact absurd (mem_cons_self ..) (none .idle)
    · exact forall_mem_cons.mpr ⟨trivial, fun line mem => (allowed line mem).1⟩

theorem Calm.onDoorOpen {op : Op User} {w w' : World User} (calm : Calm cfg op w w') (d : Door)
    (opens : op.Opens cfg d) (standsBy : w'.StandsBy → w.StandsBy) :
    Calm cfg op w (onDoorOpen cfg d w') := by
  have opened : Calm cfg op w (ExtractionWorkflow.execute cfg d .openDoor w') :=
    calm.execute (by decide) (by decide) (by decide) d
  unfold ExtractionWorkflow.onDoorOpen
  dsimp only
  split
  · next behind =>
    rcases behind with ⟨rfl, behind, closed⟩
    refine opened.trans (Changes.lines (executeInner_opening allowed_of_plain fun state => ?_)) ?_
    · have after : (ExtractionWorkflow.execute cfg .outer .openDoor w').StandsBy :=
        ⟨behind, by simpa using closed, state⟩
      have before : w.StandsBy := standsBy (execute_standsBy (by decide) (by decide) w' after)
      exact ⟨⟨⟨opens, before⟩, rfl⟩, fun _ _ _ => ⟨⟨opens, before⟩, rfl⟩⟩
    · exact Or.inl (congrArg _ (executeInner_innerOnly _ _).outer)
  · exact opened

theorem Paced.step {w : World User} {op : Op User} (paced : Paced w) :
    Paced (step cfg op w) ∧ Delayed cfg w op := by
  have quiet : Calm cfg op w { w with raised := false } := Calm.refl.same rfl rfl
  have events (d : Door) (event : Event) (w' : World User)
      (report : event = .closeDoor ∨ event = .lockDoor ∨ event = .unlockDoor)
      (calm : Calm cfg op w w') : Calm cfg op w (ExtractionWorkflow.execute cfg d event w') := by
    rcases report with rfl | rfl | rfl <;>
      exact calm.execute (by decide) (by decide) (by decide) d
  cases op with
  | onLoginUser d user => exact paced.onLoginUser d user
  | removeLoggedUsers d =>
    exact Calm.result rfl (quiet.removeLoggedUsers d) paced
  | forceTimeDelayOverride d value =>
    exact Calm.result rfl
      (quiet.modify d (h := ({ · with forceTimeDelayOverride := value })) fun _ => rfl) paced
  | setInnerDoorWorkflow hasInner => exact Calm.result rfl (quiet.same rfl rfl) paced
  | cancelTimeDelay d => exact Calm.result rfl (quiet.cancelTimeDelay d) paced
  | timerExpired d => exact paced.timerExpired d
  | plunger d isOpen =>
    refine Calm.result rfl ?_ paced
    exact plunger_rule (events d) (fun _ _ calm => calm.modify d fun _ => rfl) quiet
      fun opens => quiet.onDoorOpen d opens id
  | locker d isUnlocked =>
    refine Calm.result rfl ?_ paced
    exact locker_rule (events d) (fun _ _ calm => calm.modify d fun _ => rfl) quiet
      fun opens => quiet.onDoorOpen d opens id
  | board unlockFails => exact Calm.result rfl (quiet.same rfl rfl) paced

/-- One key, a delay, and no user that overrides it. -/
def oneKey : Config Nat where
  keyCount _ := 1
  delayOpenTime _ := 60
  sensorType _ := .both
  doors _ := [.outer, .inner]
  profile := id
  timeDelayOverride _ := false
  dualAccessList := []

end CimArm.ExtractionWorkflow
