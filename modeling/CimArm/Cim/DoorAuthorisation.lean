import CimArm.Cim.WorkflowMoves
import Mathlib.Data.List.Nodup

/-!
# Who opens a door

A command to the board is meant for as many users as the door has keys, who are different,
have access and match.  The login checks this, for a door behind another one against the
inner door.  `Logged` is what the checks leave in the workflows, and
`commands_authorised` is the result for runs that are in order: the inner door's machine
answers the opening of the outer one with a command for whoever is logged in.
-/

namespace CimArm.ExtractionWorkflow

open Engine World List

variable {User : Type} {cfg : Config User}

/-! ## Users -/

/-- Users that a door lets in together. -/
structure Checked (cfg : Config User) (door : Door) (users : List User) : Prop where
  distinct : users.Nodup
  access : ∀ user ∈ users, cfg.hasAccessToDoor user door = true
  dual : users.Pairwise fun user1 user2 =>
    cfg.hasDualAccess (cfg.profile user1) (cfg.profile user2) = true

instance [DecidableEq User] (door : Door) (users : List User) :
    Decidable (Checked cfg door users) :=
  decidable_of_iff (users.Nodup ∧ (∀ user ∈ users, cfg.hasAccessToDoor user door = true) ∧
      users.Pairwise fun user1 user2 =>
        cfg.hasDualAccess (cfg.profile user1) (cfg.profile user2) = true)
    ⟨fun h => ⟨h.1, h.2.1, h.2.2⟩, fun h => ⟨h.1, h.2, h.3⟩⟩

/-- A command is authorised by as many checked users as the door has keys. -/
def Authorised (cfg : Config User) : Entry User → Prop
  | .unLock _ loginDoor user1 user2 =>
    (user1 :: user2.toList).length = cfg.keyCount loginDoor ∧
      Checked cfg loginDoor (user1 :: user2.toList)
  | _ => True

instance [DecidableEq User] : (line : Entry User) → Decidable (Authorised cfg line)
  | .unLock .. => inferInstanceAs (Decidable (_ ∧ _))
  | .entry .. | .login .. | .timerExpired .. | .doorViolation _ | .activateAlarm _ =>
    inferInstanceAs (Decidable True)

theorem authorised_of_plain (line : Entry User) (plain : line.Plain) : Authorised cfg line := by
  cases line with
  | unLock => cases plain
  | _ => trivial

/-- What the logins of a workflow leave: checked users, and a second one only after a first
and for two keys. -/
structure Accepted (cfg : Config User) (door : Door) (users : Option User × Option User) :
    Prop where
  checked : Checked cfg door (users.1.toList ++ users.2.toList)
  second : users.2.isSome → users.1.isSome ∧ cfg.keyCount door = 2

theorem Accepted.nobody (door : Door) : Accepted cfg door (none, none) :=
  ⟨⟨nodup_nil, forall_mem_nil _, List.Pairwise.nil⟩, fun h => by cases h⟩

variable {door : Door} {user user1 : User} {user2 : Option User}

theorem Accepted.first (access : cfg.hasAccessToDoor user door = true) :
    Accepted cfg door (some user, none) := by
  refine ⟨⟨?_, forall_mem_singleton.mpr access, ?_⟩, fun h => by cases h⟩
  · exact nodup_singleton user
  · exact pairwise_singleton _ user

theorem Accepted.pair {user2 : User} (first : Accepted cfg door (some user1, none))
    (keys : cfg.keyCount door = 2) (access : cfg.hasAccessToDoor user2 door = true)
    (ne : user1 ≠ user2) (dual : cfg.hasDualAccess (cfg.profile user1) (cfg.profile user2) = true) :
    Accepted cfg door (some user1, some user2) := by
  refine ⟨⟨?_, ?_, ?_⟩, fun _ => ⟨rfl, keys⟩⟩
  · exact nodup_cons.mpr ⟨by simpa using ne, nodup_singleton user2⟩
  · have access1 := first.checked.access user1 (mem_cons_self ..)
    exact forall_mem_cons.mpr ⟨access1, forall_mem_singleton.mpr access⟩
  · exact pairwise_pair.mpr dual

theorem Accepted.alone (both : Accepted cfg door (some user1, user2)) :
    Accepted cfg door (some user1, none) :=
  .first (both.checked.access user1 (mem_cons_self ..))

theorem Accepted.authorised {d : Door} (users : Accepted cfg door (some user1, user2))
    (complete : user2 = none → cfg.keyCount door = 1) :
    Authorised cfg (.unLock d door user1 user2) := by
  cases user2 with
  | none => exact ⟨(complete rfl).symm, users.checked⟩
  | some user2 => exact ⟨(users.second rfl).2.symm, users.checked⟩

theorem isLoginComplete_keys {d : Door} {w : World User} (complete : isLoginComplete cfg d w = true)
    (users : (w.workflow d).users = (some user1, user2)) (alone : user2 = none) :
    cfg.keyCount (w.loginDoor d) = 1 := by
  have second : (w.workflow d).user2 = none := (congrArg Prod.snd users).trans alone
  unfold isLoginComplete at complete
  rw [second] at complete
  change (if cfg.keyCount (w.loginDoor d) > 2 then false else _) = true at complete
  unfold keyCount at complete
  split at complete
  · cases complete
  split at complete
  · cases complete
  split at complete
  · cases complete
  split at complete
  · cases complete
  · next two =>
    have : cfg.keyCount (w.loginDoor d) ≠ 2 := fun h => two ⟨rfl, h⟩
    omega

/-! ## The workflows -/

/-- The invariant: accepted users in both workflows, and authorised commands. -/
structure Logged (cfg : Config User) (w : World User) : Prop where
  outer : Accepted cfg (w.loginDoor .outer) w.outer.users
  inner : ∀ user1 user2, w.inner.users = (some user1, user2) →
    Accepted cfg .inner (some user1, user2)
  commands : ∀ line ∈ w.log, Authorised cfg line

theorem Logged.start : Logged cfg World.start :=
  ⟨.nobody _, fun _ _ eq => (by cases eq), forall_mem_nil _⟩

theorem Logged.changes {w w' : World User} (logged : Logged cfg w)
    (changes : Changes (Authorised cfg) w w') : Logged cfg w' := by
  refine ⟨?_, ?_, ?_⟩
  · unfold loginDoor
    rw [changes.hasInner]
    rcases changes.outerUsers with same | ⟨left, _⟩
    · rw [same]
      exact logged.outer
    · rw [left]
      exact .nobody _
  · intro user1 user2 eq
    rcases changes.innerUsers with same | left
    · exact logged.inner user1 user2 (same.symm.trans eq)
    · rw [left] at eq
      cases eq
  · rcases changes.lines with ⟨lines, eq, authorised⟩
    rw [eq]
    exact forall_mem_append.mpr ⟨logged.commands, authorised⟩

theorem Logged.modify {w : World User} (logged : Logged cfg w) (d : Door)
    {h : Workflow User → Workflow User}
    (users : ∀ x, (h x).user1 = x.user1 ∧ (h x).user2 = x.user2) : Logged cfg (w.modify d h) :=
  logged.changes (.modify users d w)

theorem Logged.execute {w : World User} (logged : Logged cfg w) {event : Event}
    (login : event ≠ .userLogin) (opening : event ≠ .outerDoorOpen) (d : Door) :
    Logged cfg (execute cfg d event w) :=
  logged.changes (execute_changes authorised_of_plain login opening d w)

/-! ## Logins -/

theorem Logged.handleLogin {w : World User} (logged : Logged cfg w) (d : Door) :
    Logged cfg (handleLogin cfg d w) := by
  cases d with
  | inner => exact logged
  | outer =>
    refine logged.changes ((Changes.write trivial w).trans
      (handleLogin_changes authorised_of_plain ?_))
    intro next _ _ _ complete
    refine ⟨trivial, fun user1 user2 eq => ?_⟩
    have accepted : Accepted cfg (w.loginDoor .outer) (some user1, user2) := eq ▸ logged.outer
    exact accepted.authorised (isLoginComplete_keys complete eq)

/-- What operations have to meet.  The inner workflow takes no users of its own beside those
of the outer one, the coupling changes while nobody is logged in, and the outer door opens
with the inner one standing by only if the inner workflow's login is complete or empty. -/
def InOrder (cfg : Config User) (w : World User) (op : Op User) : Prop :=
  match op with
  | .onLoginUser .outer _ =>
    w.hasInner = true →
      if w.outer.user1.isNone then w.inner.user2 = none
      else w.inner.user1 = none ∨ w.inner.user1 = w.outer.user1
  | .onLoginUser .inner _ => w.inner.user1 = none → w.inner.user2 = none
  | .setInnerDoorWorkflow hasInner => hasInner ≠ w.hasInner → w.outer.users = (none, none)
  | .plunger .. | .locker .. =>
    op.Opens cfg .outer → w.StandsBy → w.inner.user1 = none ∨ isLoginComplete cfg .inner w = true
  | .removeLoggedUsers _ | .forceTimeDelayOverride .. | .cancelTimeDelay _ | .timerExpired _
  | .board _ => True

instance [DecidableEq User] (w : World User) (op : Op User) : Decidable (InOrder cfg w op) :=
  match op with
  | .onLoginUser .outer _ => inferInstanceAs (Decidable (_ → ite ..))
  | .onLoginUser .inner _ => inferInstanceAs (Decidable (_ → _))
  | .setInnerDoorWorkflow _ => inferInstanceAs (Decidable (_ → _))
  | .plunger .. => inferInstanceAs (Decidable (_ → _ → _))
  | .locker .. => inferInstanceAs (Decidable (_ → _ → _))
  | .removeLoggedUsers _ | .forceTimeDelayOverride .. | .cancelTimeDelay _ | .timerExpired _
  | .board _ => inferInstanceAs (Decidable True)

theorem Logged.setUser1 {w : World User} (logged : Logged cfg w)
    (access : cfg.hasAccessToDoor user (w.loginDoor .outer) = true) (free : w.outer.user1 = none)
    (inner : w.hasInner = true → w.inner.user2 = none) :
    Logged cfg (setInnerUser1 .outer user (w.modify .outer ({ · with user1 := some user }))) := by
  have second : w.outer.user2 = none := by
    cases eq : w.outer.user2 with
    | none => rfl
    | some user2 =>
      have first := (logged.outer.second (by unfold Workflow.users; rw [eq]; rfl)).1
      unfold Workflow.users at first
      rw [free] at first
      cases first
  have first : Accepted cfg (w.loginDoor .outer) (some user, w.outer.user2) :=
    second ▸ .first access
  unfold setInnerUser1
  split
  · next behind =>
    refine ⟨first, ?_, logged.commands⟩
    rintro user1 user2 eq
    have hasInner : w.hasInner = true := behind.2
    have door : w.loginDoor .outer = .inner := if_pos behind
    cases eq
    show Accepted cfg .inner (some user, w.inner.user2)
    rw [inner hasInner]
    exact .first (door ▸ access)
  · exact ⟨first, logged.inner, logged.commands⟩

theorem Logged.setUser2 {w : World User} (logged : Logged cfg w)
    (access : cfg.hasAccessToDoor user (w.loginDoor .outer) = true)
    (first : w.outer.user1 = some user1) (keys : keyCount cfg .outer w = 2) (ne : user1 ≠ user)
    (dual : cfg.hasDualAccess (cfg.profile user1) (cfg.profile user) = true)
    (inner : w.hasInner = true → w.inner.user1 = none ∨ w.inner.user1 = w.outer.user1) :
    Logged cfg (setInnerUser2 .outer user (w.modify .outer ({ · with user2 := some user }))) := by
  have accepted : Accepted cfg (w.loginDoor .outer) (some user1, w.outer.user2) := by
    rw [← first]
    exact logged.outer
  have pair := accepted.alone.pair keys access ne dual
  have outer : Accepted cfg (w.loginDoor .outer) (w.outer.user1, some user) := by
    rw [first]
    exact pair
  unfold setInnerUser2
  split
  · next behind =>
    refine ⟨outer, ?_, logged.commands⟩
    intro user1' user2' eq
    have door : w.loginDoor .outer = .inner := if_pos behind
    rcases inner behind.2 with free | same
    · have : some user1' = (none : Option User) := (congrArg Prod.fst eq).symm.trans free
      cases this
    · have logged1 : some user1' = some user1 :=
        (congrArg Prod.fst eq).symm.trans (same.trans first)
      have logged2 : some user = user2' := congrArg Prod.snd eq
      rw [logged1, ← logged2, ← door]
      exact pair
  · exact ⟨outer, logged.inner, logged.commands⟩

variable [DecidableEq User]

theorem Logged.onLoginUser {w : World User} (logged : Logged cfg w) {d : Door} {user : User}
    (inOrder : InOrder cfg w (.onLoginUser d user)) : Logged cfg (onLoginUser cfg d user w) := by
  unfold ExtractionWorkflow.onLoginUser
  split
  · exact logged.changes (.same rfl rfl rfl rfl)
  next denied =>
  have access : cfg.hasAccessToDoor user (w.loginDoor d) = true := by simpa using denied
  cases d with
  | outer =>
    split
    · next free =>
      have free : w.outer.user1 = none := free
      refine Logged.handleLogin (logged.setUser1 access free fun hasInner => ?_) .outer
      have order := inOrder hasInner
      rw [free] at order
      exact order
    · next user1 first =>
      have first : w.outer.user1 = some user1 := first
      split
      · next keys =>
        split
        · exact logged.changes (.same rfl rfl rfl rfl)
        split
        · exact logged.changes (.same rfl rfl rfl rfl)
        next ne mismatch =>
        have dual : cfg.hasDualAccess (cfg.profile user1) (cfg.profile user) = true := by
          simpa using mismatch
        refine Logged.handleLogin
          (logged.setUser2 access first keys ne dual fun hasInner => ?_) .outer
        have order := inOrder hasInner
        rw [first] at order
        rw [first]
        exact order
      · exact logged
  | inner =>
    have door : w.loginDoor .inner = .inner := if_neg fun h => by cases h.1
    rw [door] at access
    split
    · next free =>
      refine ⟨logged.outer, fun user1 user2 eq => ?_, logged.commands⟩
      have second : w.inner.user2 = none := inOrder free
      have users : (some user, w.inner.user2) = (some user1, user2) := eq
      rw [second] at users
      cases users
      exact .first access
    · next user1 first =>
      split
      · next keys =>
        split
        · exact logged.changes (.same rfl rfl rfl rfl)
        split
        · exact logged.changes (.same rfl rfl rfl rfl)
        next ne mismatch =>
        have dual : cfg.hasDualAccess (cfg.profile user1) (cfg.profile user) = true := by
          simpa using mismatch
        have accepted := logged.inner user1 w.inner.user2 (Prod.ext first rfl)
        have keys : cfg.keyCount .inner = 2 := door ▸ keys
        refine ⟨logged.outer, fun user1' user2' eq => ?_, logged.commands⟩
        have users : (w.inner.user1, some user) = (some user1', user2') := eq
        have first : w.inner.user1 = some user1 := first
        rw [first] at users
        cases users
        exact accepted.alone.pair keys access ne dual
      · exact logged

/-! ## The outer door's opening -/

omit [DecidableEq User] in
theorem Logged.onDoorOpen {w : World User} (logged : Logged cfg w)
    (complete : w.StandsBy → w.inner.user1 = none ∨ isLoginComplete cfg .inner w = true) :
    Logged cfg (onDoorOpen cfg .outer w) := by
  have executed : Changes (Authorised cfg) w (ExtractionWorkflow.execute cfg .outer .openDoor w) :=
    execute_changes authorised_of_plain (by decide) (by decide) .outer w
  have standsBy : (ExtractionWorkflow.execute cfg .outer .openDoor w).StandsBy → w.StandsBy :=
    execute_standsBy (by decide) (by decide) w
  have opened := logged.changes executed
  unfold ExtractionWorkflow.onDoorOpen
  dsimp only
  split
  · next behind =>
    refine opened.changes (executeInner_opening authorised_of_plain fun state => ⟨trivial, ?_⟩)
    intro user1 user2 eq
    have accepted := opened.inner user1 user2 eq
    refine accepted.authorised fun alone => ?_
    have before := standsBy ⟨behind.2.1, by simpa using behind.2.2, state⟩
    rcases executed.innerUsers with same | left
    · have users : w.inner.users = (some user1, user2) := same.symm.trans eq
      rcases complete before with free | complete
      · have : some user1 = none := (congrArg Prod.fst users).symm.trans free
        cases this
      · have door : w.loginDoor .inner = .inner := if_neg fun h => by cases h.1
        exact door ▸ isLoginComplete_keys complete users alone
    · rw [left] at eq
      cases eq
  · exact opened

/-! ## Runs -/

theorem Logged.step {w : World User} {op : Op User} (logged : Logged cfg w)
    (inOrder : InOrder cfg w op) : Logged cfg (step cfg op w) := by
  have quiet : Logged cfg { w with raised := false } :=
    logged.changes (.same rfl rfl rfl rfl)
  have events (d : Door) (event : Event) (w : World User)
      (report : event = .closeDoor ∨ event = .lockDoor ∨ event = .unlockDoor)
      (logged : Logged cfg w) : Logged cfg (ExtractionWorkflow.execute cfg d event w) := by
    rcases report with rfl | rfl | rfl <;> exact logged.execute (by decide) (by decide) d
  have opened (d : Door) (op : Op User) (opens : op.Opens cfg d) (inOrder : InOrder cfg w op) :
      Logged cfg (ExtractionWorkflow.onDoorOpen cfg d { w with raised := false }) := by
    cases d with
    | inner => exact quiet.execute (by decide) (by decide) .inner
    | outer =>
      cases op with
      | plunger d isOpen => exact quiet.onDoorOpen (inOrder opens)
      | locker d isUnlocked => exact quiet.onDoorOpen (inOrder opens)
      | _ => cases opens
  cases op with
  | onLoginUser d user => exact quiet.onLoginUser inOrder
  | removeLoggedUsers d => exact quiet.changes (.removeLoggedUsers d _)
  | forceTimeDelayOverride d value =>
    exact quiet.modify d (h := ({ · with forceTimeDelayOverride := value })) fun _ => ⟨rfl, rfl⟩
  | setInnerDoorWorkflow hasInner =>
    refine ⟨?_, logged.inner, logged.commands⟩
    by_cases same : hasInner = w.hasInner
    · rw [same]
      exact logged.outer
    · have users : w.outer.users = (none, none) := inOrder same
      show Accepted cfg _ w.outer.users
      rw [users]
      exact .nobody _
  | cancelTimeDelay d =>
    exact quiet.changes (cancelTimeDelay_changes authorised_of_plain d _)
  | timerExpired d =>
    exact quiet.changes (timerExpired_changes authorised_of_plain d trivial)
  | plunger d isOpen =>
    exact plunger_rule (events d) (fun _ _ logged => logged.modify d fun _ => ⟨rfl, rfl⟩) quiet
      fun opens => opened d _ opens inOrder
  | locker d isUnlocked =>
    exact locker_rule (events d) (fun _ _ logged => logged.modify d fun _ => ⟨rfl, rfl⟩) quiet
      fun opens => opened d _ opens inOrder
  | board unlockFails => exact quiet.changes (.same rfl rfl rfl rfl)

/-- In every run whose operations are in order, commands are authorised. -/
theorem commands_authorised {ops : List (Op User)}
    (inOrder : Trace.Always (ExtractionWorkflow.step cfg) (InOrder cfg) ops World.start) :
    ∀ line ∈ (Trace.after (ExtractionWorkflow.step cfg) ops World.start).log,
      Authorised cfg line :=
  (inOrder.after_of_invariant (Logged cfg) Logged.step .start).commands

/-- Two doors with two keys each, for users 1 and 2. -/
def twoKeys : Config Nat where
  keyCount _ := 2
  delayOpenTime _ := 0
  sensorType _ := .both
  doors _ := [.outer, .inner]
  profile := id
  timeDelayOverride _ := false
  dualAccessList := [(1, 2)]

/-- Both users log in, and both doors are opened. -/
def openBoth : List (Op Nat) :=
  [.setInnerDoorWorkflow true, .onLoginUser .outer 1, .onLoginUser .outer 2,
   .locker .outer true, .plunger .outer true]

theorem commands_authorised_openBoth :
    (.unLock .inner .inner 1 (some 2) ∈
        (Trace.after (ExtractionWorkflow.step twoKeys) openBoth World.start).log) ∧
      ∀ line ∈ (Trace.after (ExtractionWorkflow.step twoKeys) openBoth World.start).log,
        Authorised twoKeys line :=
  ⟨by decide, commands_authorised (by decide)⟩

/-- The doors have been opened; then user 1 alone logs in, and the outer door opens. -/
def openAgain : List (Op Nat) :=
  [.setInnerDoorWorkflow true, .onLoginUser .outer 1, .onLoginUser .outer 2, .plunger .outer true,
   .timerExpired .inner, .removeLoggedUsers .outer, .onLoginUser .outer 1, .plunger .outer false,
   .plunger .outer true]

/-- The inner door is unlocked for one user alone. -/
theorem not_authorised_openAgain :
    ¬ ∀ line ∈ (Trace.after (ExtractionWorkflow.step twoKeys) openAgain World.start).log,
        Authorised twoKeys line := by
  decide

end CimArm.ExtractionWorkflow
