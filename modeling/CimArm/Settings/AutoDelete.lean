import CimArm.Settings.UserDAO
import Mathlib.Data.List.Nodup

/-!
# Users that are inactivated and deleted by themselves

`verifiedAutoInactivateDelete` goes over the users by index.  A user who is not special and
has not logged in for more months than a limit is marked and stored, and a deleted one is
removed from the two working lists, where the index stays.  The lists hold references to the
users, and the store may raise.

* `Reached`: what the lists have in common in every state.
* `loop_outcome`: a run goes over every user once and stops only at a store that raises.
* `verified_iff`: a run does what it should unless a store raises, or a user that such a run
  left behind marked as deleted is inactivated.
-/

namespace CimArm.AutoDelete

open List Function

open UserDAO (UserException FICTICIOUS_PASSWORD)
open SafeBoxUsers (Fate)

/-! ## Users and limits -/

/-- A user object, with what is stored of it and what the run looks at. -/
structure User : Type extends UserDAO.User where
  isSpecialUser : Bool
  active : Bool
  lastLoginDateTime : BitVec 32

def BLANK_DURESS_PASSWORD : String := "0DURESS0"

def FICTICIOUS_DURESS_PASSWORD : String := "12344322"

/-- A limit in months is a `BOOL`, which is a byte with or without sign. -/
structure Limit : Type where
  months : Int
  lower : -128 ≤ months
  upper : months ≤ 255

/-- The product of a limit with the seconds of 30 days, as an `int` and then as the unsigned
difference of times it is compared with. -/
def Limit.seconds (limit : Limit) : BitVec 32 :=
  BitVec.ofInt 32 ((limit.months * 2592000).bmod (2 ^ 32))

/-- The time, the settings, and how the calls of the board end when a user is stored. -/
structure Env (Ref : Type) : Type where
  localTime : BitVec 32
  pinAutoInactivate : Limit
  pinAutoDelete : Limit
  settings : UserDAO.Settings
  useDuressPassword : Int → Bool
  logedUserPersonalId : String
  fates : Ref → Nat → Fate

inductive Event : Type
  | AUTO_INACTIVATE
  | AUTO_DELETE
  deriving DecidableEq

structure Audit : Type where
  eventId : Event
  additional : List Char
  deriving DecidableEq

/-- What `snprintf` puts in the buffer of 20. -/
def additional (user : User) : List Char := user.loginName.toList.take 18

variable {Ref : Type}

/-! ## The two checks -/

namespace Env

/-- A limit that is in use is exceeded. -/
def exceeds (env : Env Ref) (limit : Limit) (user : User) : Bool :=
  decide (0 < limit.months) &&
    decide (limit.seconds < env.localTime - user.lastLoginDateTime)

/-- A user that is looked at: the administrator, PIMS and Override are not, nor is anyone
when the clock was moved back behind the last log in. -/
def checks (env : Env Ref) (user : User) : Bool :=
  !user.isSpecialUser && decide (user.lastLoginDateTime ≤ env.localTime)

def inactivates (env : Env Ref) (user : User) : Bool :=
  env.checks user && env.exceeds env.pinAutoInactivate user

def deletes (env : Env Ref) (user : User) : Bool :=
  env.checks user && env.exceeds env.pinAutoDelete user

/-- `upd` -/
def upd (env : Env Ref) (user : User) : Bool := env.inactivates user || env.deletes user

/-- The user with its marks. -/
def mark (env : Env Ref) (user : User) : User :=
  { user with
    active := if env.inactivates user then false else user.active
    deleted := if env.deletes user then true else user.deleted }

def audits (env : Env Ref) (user : User) : List Audit :=
  (if env.inactivates user then [⟨.AUTO_INACTIVATE, additional user⟩] else []) ++
    (if env.deletes user then [⟨.AUTO_DELETE, additional user⟩] else [])

/-- The object that is handed to the store: without a duress password where the profile has
none. -/
def duress (env : Env Ref) (aProfileId : Int) (user : User) : User :=
  if env.useDuressPassword aProfileId then user
  else { user with duressPassword := BLANK_DURESS_PASSWORD }

/-- The exception of `applyChanges`, if any, the object and the table after it.  The store
leaves the fictitious passwords in the object. -/
def applyChanges (env : Env Ref) (r : Ref) (user : User) (db : UserDAO.State) :
    Option UserException × User × UserDAO.State :=
  match env.settings.getProfile user.uProfileId with
  | .error e => (some e, user, db)
  | .ok profile =>
    let user := env.duress profile.profileId user
    match UserDAO.store env.settings ⟨user.toUser, env.logedUserPersonalId, env.fates r⟩ db with
    | (some e, db) => (some e, user, db)
    | (none, db) =>
      (none, { user with
        password := FICTICIOUS_PASSWORD
        duressPassword := FICTICIOUS_DURESS_PASSWORD }, db)

end Env

/-! ## The lists -/

/-- The user objects, the lists of references to them, the table and the audits. -/
structure State (Ref : Type) : Type where
  user : Ref → User
  myUsers : List Ref
  myUsersCompleteList : List Ref
  myVisibleUsersList : List Ref
  db : UserDAO.State
  audits : List Audit

/-- How a run stops before its end. -/
inductive Stop : Type
  | raised (e : UserException)
  | COL_OUT_OF_BOUNDS_EX
  | endless
  deriving DecidableEq

/-- `for (i=0; i<=[list size]-1; ++i)` up to the first user with the id: the size has no
sign, so an empty list is read at 0. -/
def removeById (user : Ref → User) (aUserId : Int) (list : List Ref) : Except Stop (List Ref) :=
  if list.isEmpty then .error .COL_OUT_OF_BOUNDS_EX
  else .ok (list.eraseP fun r => (user r).userId = aUserId)

namespace State

def removeUserFromCollection (s : State Ref) (aUserId : Int) : Except Stop (State Ref) := do
  return { s with myUsers := ← removeById s.user aUserId s.myUsers }

def removeUserFromVisibleCollection (s : State Ref) (aUserId : Int) :
    Except Stop (State Ref) := do
  return { s with myVisibleUsersList := ← removeById s.user aUserId s.myVisibleUsersList }

def addUserToCollection (s : State Ref) (aUser : Ref) : State Ref :=
  { s with
    myUsers := s.myUsers ++ [aUser]
    myUsersCompleteList := s.myUsersCompleteList ++ [aUser]
    myVisibleUsersList := s.myVisibleUsersList ++ [aUser] }

/-- The lists as they are read from the table. -/
def load (user : Ref → User) (complete : List Ref) (db : UserDAO.State) (audits : List Audit) :
    State Ref where
  user := user
  myUsers := complete.filter fun r => !(user r).deleted
  myUsersCompleteList := complete
  myVisibleUsersList :=
    (complete.filter fun r => !(user r).deleted).filter fun r => !(user r).isSpecialUser
  db := db
  audits := audits

variable [DecidableEq Ref]

/-- The state after a user was marked and stored, whether or not that raised. -/
def put (s : State Ref) (env : Env Ref) (r : Ref) : State Ref :=
  { s with
    user := Function.update s.user r (env.applyChanges r (env.mark (s.user r)) s.db).2.1
    db := (env.applyChanges r (env.mark (s.user r)) s.db).2.2
    audits := s.audits ++ env.audits (s.user r) }

/-- The body of the loop for the user at an index: what stops it, the next index, and the
state. -/
def body (s : State Ref) (env : Env Ref) (i : Nat) (r : Ref) : Option Stop × Nat × State Ref :=
  if env.upd (s.user r) then
    let t := s.put env r
    match (env.applyChanges r (env.mark (s.user r)) s.db).1 with
    | some e => (some (.raised e), i, t)
    | none =>
      if (t.user r).deleted then
        match t.removeUserFromCollection (t.user r).userId with
        | .error stop => (some stop, i, t)
        | .ok t =>
          match t.removeUserFromVisibleCollection (t.user r).userId with
          | .error stop => (some stop, i, t)
          | .ok t => (none, i, t)
      else (none, i + 1, t)
  else (none, i + 1, s)

/-- `while (i < [myUsers size])`, with fuel. -/
def loop (env : Env Ref) : Nat → Nat → State Ref → Option Stop × State Ref
  | 0, _, s => (some .endless, s)
  | fuel + 1, i, s =>
    match s.myUsers[i]? with
    | none => (none, s)
    | some r =>
      match s.body env i r with
      | (some stop, _, t) => (some stop, t)
      | (none, i, t) => loop env fuel i t

def verifiedAutoInactivateDelete (env : Env Ref) (fuel : Nat) (s : State Ref) :
    Option Stop × State Ref :=
  loop env fuel 0 s

end State

/-! ## What is idle -/

/-- Not special, and idle for more months of 30 days than a limit that is in use. -/
def Env.Expired (env : Env Ref) (limit : Limit) (user : User) : Prop :=
  user.isSpecialUser = false ∧ 0 < limit.months ∧
    (user.lastLoginDateTime.toNat : Int) + limit.months * 2592000 < env.localTime.toNat

instance (env : Env Ref) (limit : Limit) (user : User) : Decidable (env.Expired limit user) :=
  inferInstanceAs (Decidable (_ ∧ _ ∧ _))

theorem Limit.seconds_toNat (limit : Limit) (used : 0 < limit.months) :
    (limit.seconds.toNat : Int) = limit.months * 2592000 := by
  have upper := limit.upper
  have fits : (limit.months * 2592000).bmod (2 ^ 32) = limit.months * 2592000 :=
    Int.bmod_eq_of_le (by omega) (by omega)
  rw [Limit.seconds, fits, BitVec.toNat_ofInt, Int.toNat_of_nonneg (by omega)]
  exact Int.emod_eq_of_lt (by omega) (by omega)

theorem Env.checks_exceeds (env : Env Ref) (limit : Limit) (user : User) :
    (env.checks user && env.exceeds limit user) = true ↔ env.Expired limit user := by
  unfold checks exceeds Expired
  simp only [Bool.and_eq_true, Bool.not_eq_true', decide_eq_true_eq, BitVec.le_def, BitVec.lt_def]
  constructor
  · rintro ⟨⟨common, past⟩, used, longer⟩
    have product := limit.seconds_toNat used
    rw [BitVec.toNat_sub_of_le past] at longer
    exact ⟨common, used, by omega⟩
  · rintro ⟨common, used, longer⟩
    have product := limit.seconds_toNat used
    have past : user.lastLoginDateTime.toNat ≤ env.localTime.toNat := by omega
    refine ⟨⟨common, past⟩, used, ?_⟩
    rw [BitVec.toNat_sub_of_le past]
    omega

theorem Env.inactivates_eq (env : Env Ref) (user : User) :
    env.inactivates user = decide (env.Expired env.pinAutoInactivate user) :=
  Bool.eq_iff_iff.2 ((env.checks_exceeds _ user).trans decide_eq_true_iff.symm)

theorem Env.deletes_eq (env : Env Ref) (user : User) :
    env.deletes user = decide (env.Expired env.pinAutoDelete user) :=
  Bool.eq_iff_iff.2 ((env.checks_exceeds _ user).trans decide_eq_true_iff.symm)

/-! ## Storing a user -/

namespace Env

variable (env : Env Ref) (r : Ref) (user : User) (db : UserDAO.State)

theorem applyChanges_object : ∃ password duressPassword, (env.applyChanges r user db).2.1 =
    { user with password := password, duressPassword := duressPassword } := by
  unfold applyChanges duress
  cases env.settings.getProfile user.uProfileId with
  | error e => exact ⟨user.password, user.duressPassword, rfl⟩
  | ok profile =>
    dsimp only
    split_ifs <;> split <;> exact ⟨_, _, rfl⟩

/-- The user that a run leaves when its store does not raise. -/
def stored : User :=
  { env.mark user with
    password := FICTICIOUS_PASSWORD
    duressPassword := FICTICIOUS_DURESS_PASSWORD }

variable {env r user db}

theorem applyChanges_stored (done : (env.applyChanges r (env.mark user) db).1 = none) :
    (env.applyChanges r (env.mark user) db).2.1 = env.stored user := by
  unfold applyChanges duress at done ⊢
  cases found : env.settings.getProfile (env.mark user).uProfileId with
  | error e =>
    rw [found] at done
    cases done
  | ok profile =>
    rw [found] at done
    dsimp only at done ⊢
    split_ifs at done ⊢
    all_goals
      split at done
      · cases done
      · rfl

end Env

/-! ## The lists in every state -/

/-- Where keys are distinct, erasing the first element with a key leaves those without it. -/
theorem eraseP_key {A K : Type} [DecidableEq K] {key : A → K} {list : List A}
    (distinct : (list.map key).Nodup) (k : K) :
    list.eraseP (key · = k) = list.filter (key · ≠ k) := by
  induction list with
  | nil => rfl
  | cons a list ih =>
    obtain ⟨fresh, distinct⟩ := nodup_cons.1 distinct
    by_cases same : key a = k
    · rw [eraseP_cons_of_pos (by simpa using same), filter_cons_of_neg (by simpa using same)]
      refine (filter_eq_self.2 fun b hb => ?_).symm
      refine decide_eq_true fun equal => fresh ?_
      rw [same, ← equal]
      exact mem_map_of_mem hb
    · rw [eraseP_cons_of_neg (by simpa using same),
        filter_cons_of_pos (by simpa using same), ih distinct]

/-- The references in the lists are of different users, each list is a part of the one before
it, and no user who is not special is missing among the visible ones. -/
structure State.Good (s : State Ref) : Prop where
  distinct : (s.myUsersCompleteList.map fun r => (s.user r).userId).Nodup
  working : s.myUsers.Sublist s.myUsersCompleteList
  visible : s.myVisibleUsersList.Sublist s.myUsers
  seen : ∀ r ∈ s.myUsers, (s.user r).isSpecialUser = false → r ∈ s.myVisibleUsersList

namespace State.Good

variable {s : State Ref}

theorem of_load (user : Ref → User) {complete : List Ref} (db : UserDAO.State)
    (audits : List Audit) (distinct : (complete.map fun r => (user r).userId).Nodup) :
    (load user complete db audits).Good where
  distinct := distinct
  working := filter_sublist
  visible := filter_sublist
  seen r hr common := mem_filter.2 ⟨hr, by simpa [load] using common⟩

theorem working_distinct (good : s.Good) : (s.myUsers.map fun r => (s.user r).userId).Nodup :=
  good.distinct.sublist (good.working.map _)

theorem visible_distinct (good : s.Good) :
    (s.myVisibleUsersList.map fun r => (s.user r).userId).Nodup :=
  good.working_distinct.sublist (good.visible.map _)

theorem edit (good : s.Good) {user : Ref → User} (db : UserDAO.State) (audits : List Audit)
    (same : ∀ r ∈ s.myUsersCompleteList, (user r).userId = (s.user r).userId ∧
      (user r).isSpecialUser = (s.user r).isSpecialUser) :
    State.Good { s with user := user, db := db, audits := audits } where
  distinct := by
    dsimp only
    rw [map_congr_left fun r hr => (same r hr).1]
    exact good.distinct
  working := good.working
  visible := good.visible
  seen r hr common := good.seen r hr ((same r (good.working.subset hr)).2 ▸ common)

theorem add (good : s.Good) {aUser : Ref}
    (fresh : ∀ r ∈ s.myUsersCompleteList, (s.user r).userId ≠ (s.user aUser).userId) :
    (s.addUserToCollection aUser).Good where
  distinct := by
    refine (map_append ..).symm ▸ nodup_append.2 ⟨good.distinct, ?_, ?_⟩
    · exact nodup_singleton _
    · intro a ha b hb
      obtain ⟨r, hr, rfl⟩ := mem_map.1 ha
      rw [mem_singleton.1 hb]
      exact fresh r hr
  working := good.working.append_right _
  visible := good.visible.append_right _
  seen r hr common := by
    rcases mem_append.1 hr with old | new
    · exact mem_append_left _ (good.seen r old common)
    · exact mem_append_right _ new

theorem filter (good : s.Good) (keep : Ref → Bool) :
    State.Good { s with
      myUsers := s.myUsers.filter keep
      myVisibleUsersList := s.myVisibleUsersList.filter keep } where
  distinct := good.distinct
  working := filter_sublist.trans good.working
  visible := good.visible.filter _
  seen r hr common := by
    obtain ⟨listed, kept⟩ := mem_filter.1 hr
    exact mem_filter.2 ⟨good.seen r listed common, kept⟩

end State.Good

theorem filter_ne_eq_self [DecidableEq Ref] {list : List Ref} {r : Ref} (absent : r ∉ list) :
    list.filter (· ≠ r) = list := by
  refine filter_eq_self.2 fun q hq => decide_eq_true fun same => absent ?_
  rwa [← same]

theorem removeById_eq [DecidableEq Ref] {user : Ref → User} {list : List Ref} {r : Ref}
    (distinct : (list.map fun r => (user r).userId).Nodup) (listed : r ∈ list) :
    removeById user (user r).userId list = .ok (list.filter (· ≠ r)) := by
  unfold removeById
  rw [if_neg (by cases list <;> simp_all), eraseP_key distinct]
  refine congrArg Except.ok (filter_congr fun q hq => decide_eq_decide.2 (not_congr ?_))
  exact ⟨fun same => inj_on_of_nodup_map distinct hq listed same, fun same => same ▸ rfl⟩

theorem State.Good.remove {s t u : State Ref} (good : s.Good) {aUserId : Int}
    (first : s.removeUserFromCollection aUserId = .ok t)
    (second : t.removeUserFromVisibleCollection aUserId = .ok u) : u.Good := by
  simp only [removeUserFromCollection, removeById] at first
  split_ifs at first
  · cases first
  · obtain rfl := Except.ok.inj first
    simp only [removeUserFromVisibleCollection, removeById] at second
    split_ifs at second
    · cases second
    · obtain rfl := Except.ok.inj second
      rw [eraseP_key good.working_distinct, eraseP_key good.visible_distinct]
      exact good.filter _

/-! ## One user -/

/-- The user is taken out of the working lists. -/
def Env.removes (env : Env Ref) (user : User) : Bool := env.upd user && (env.mark user).deleted

theorem Env.removes_eq (env : Env Ref) (user : User) : env.removes user =
    (decide (env.Expired env.pinAutoDelete user) ||
      (user.deleted && decide (env.Expired env.pinAutoInactivate user))) := by
  unfold removes upd mark
  rw [env.inactivates_eq, env.deletes_eq]
  cases decide (env.Expired env.pinAutoDelete user) <;>
    cases decide (env.Expired env.pinAutoInactivate user) <;> simp

section visit

variable [DecidableEq Ref] {s : State Ref} {env : Env Ref} {r : Ref}

/-- The state after the body for a user, when no store raises. -/
def State.visit (s : State Ref) (env : Env Ref) (r : Ref) : State Ref :=
  if env.upd (s.user r) then
    if (env.mark (s.user r)).deleted then
      { s.put env r with
        myUsers := s.myUsers.filter (· ≠ r)
        myVisibleUsersList := s.myVisibleUsersList.filter (· ≠ r) }
    else s.put env r
  else s

/-- The user is stored, where it has to be. -/
def State.Stores (s : State Ref) (env : Env Ref) (r : Ref) : Prop :=
  env.upd (s.user r) = true → (env.applyChanges r (env.mark (s.user r)) s.db).1 = none

theorem State.Good.put (good : s.Good) : (s.put env r).Good := by
  refine good.edit _ _ fun q _ => ?_
  by_cases same : q = r
  · subst same
    rw [update_self]
    obtain ⟨_, _, object⟩ := env.applyChanges_object q (env.mark (s.user q)) s.db
    rw [object]
    exact ⟨rfl, rfl⟩
  · rw [update_of_ne same]
    exact ⟨rfl, rfl⟩

theorem State.Good.visit (good : s.Good) : (s.visit env r).Good := by
  unfold State.visit
  split_ifs
  · exact good.put.filter _
  · exact good.put
  · exact good

theorem body_raises {e : UserException} (i : Nat) (due : env.upd (s.user r) = true)
    (raised : (env.applyChanges r (env.mark (s.user r)) s.db).1 = some e) :
    s.body env i r = (some (.raised e), i, s.put env r) := by
  unfold State.body
  rw [if_pos due, raised]

/-- Neither removal raises: a user who is marked is not special, so both lists have it. -/
theorem body_stores (good : s.Good) (i : Nat) (listed : r ∈ s.myUsers) (stores : s.Stores env r) :
    s.body env i r =
      (none, if env.removes (s.user r) then i else i + 1, s.visit env r) := by
  unfold State.body State.visit Env.removes
  by_cases due : env.upd (s.user r) = true
  · have done := stores due
    have object : (s.put env r).user r = env.stored (s.user r) :=
      (update_self ..).trans (Env.applyChanges_stored done)
    have common : (s.user r).isSpecialUser = false := by
      unfold Env.upd Env.inactivates Env.deletes Env.checks at due
      grind
    have seen : r ∈ s.myVisibleUsersList := good.seen r listed common
    rw [if_pos due, if_pos due, done, due, Bool.true_and]
    dsimp only
    rw [show ((s.put env r).user r).deleted = (env.mark (s.user r)).deleted by rw [object]; rfl]
    split_ifs
    · have kept : (s.put env r).Good := good.put
      have first : (s.put env r).removeUserFromCollection ((s.put env r).user r).userId =
          .ok { s.put env r with myUsers := s.myUsers.filter (· ≠ r) } := by
        unfold State.removeUserFromCollection
        rw [removeById_eq kept.working_distinct listed]
        rfl
      have second := removeById_eq kept.visible_distinct seen
      rw [first]
      dsimp only [State.removeUserFromVisibleCollection]
      rw [second]
      rfl
    · rfl
  · rw [if_neg due, if_neg due, if_neg (by simp [due])]

theorem visit_user_of_ne {q : Ref} (other : q ≠ r) : (s.visit env r).user q = s.user q := by
  unfold State.visit
  split_ifs
  · exact update_of_ne other ..
  · exact update_of_ne other ..
  · rfl

theorem visit_user_of_fresh {rest : List Ref} (fresh : r ∉ rest) :
    ∀ q ∈ rest, (s.visit env r).user q = s.user q := by
  intro q hq
  refine visit_user_of_ne fun same => fresh ?_
  rwa [← same]

theorem visit_user_self (stores : s.Stores env r) : (s.visit env r).user r =
    if env.upd (s.user r) then env.stored (s.user r) else s.user r := by
  unfold State.visit
  split_ifs with due
  · exact (update_self ..).trans (Env.applyChanges_stored (stores due))
  · exact (update_self ..).trans (Env.applyChanges_stored (stores due))
  · rfl

end visit

/-! ## The run -/

section run

variable [DecidableEq Ref] {s : State Ref} {env : Env Ref}

/-- The stores of the users that a run marks, made one after another, all succeed. -/
def AllStored (env : Env Ref) (user : Ref → User) : List Ref → UserDAO.State → Prop
  | [], _ => True
  | r :: rest, db =>
    if env.upd (user r) then
      (env.applyChanges r (env.mark (user r)) db).1 = none ∧
        AllStored env user rest (env.applyChanges r (env.mark (user r)) db).2.2
    else AllStored env user rest db

variable {rest done : List Ref}

omit [DecidableEq Ref] in
theorem AllStored.congr {user user' : Ref → User} {db : UserDAO.State}
    (same : ∀ r ∈ rest, user' r = user r) :
    AllStored env user' rest db ↔ AllStored env user rest db := by
  induction rest generalizing db with
  | nil => rfl
  | cons r rest ih =>
    have later {db : UserDAO.State} := @ih db fun q hq => same q (mem_cons_of_mem _ hq)
    simp only [AllStored, same r mem_cons_self, later]

theorem allStored_cons {r : Ref} (fresh : r ∉ rest) : AllStored env s.user (r :: rest) s.db ↔
      s.Stores env r ∧ AllStored env (s.visit env r).user rest (s.visit env r).db := by
  rw [AllStored, AllStored.congr (visit_user_of_fresh fresh)]
  unfold State.Stores State.visit
  split_ifs with due
  · simp [due, State.put]
  · simp [due, State.put]
  · simp [due]

/-- What a run has done when it went over the rest of the users. -/
structure Swept (env : Env Ref) (s e : State Ref) (done rest : List Ref) : Prop where
  myUsers : e.myUsers = done ++ rest.filter fun r => !env.removes (s.user r)
  visible : e.myVisibleUsersList =
    s.myVisibleUsersList.filter fun r => !(decide (r ∈ rest) && env.removes (s.user r))
  complete : e.myUsersCompleteList = s.myUsersCompleteList
  user : ∀ r, e.user r =
    if r ∈ rest ∧ env.upd (s.user r) = true then env.stored (s.user r) else s.user r

theorem visit_complete (r : Ref) : (s.visit env r).myUsersCompleteList = s.myUsersCompleteList := by
  unfold State.visit
  split_ifs <;> rfl

theorem visit_myUsers {r : Ref} (good : s.Good) (split : s.myUsers = done ++ r :: rest) :
    (s.visit env r).myUsers =
      if env.removes (s.user r) then done ++ rest else done ++ r :: rest := by
  have distinct : (done ++ r :: rest).Nodup := split ▸ good.working_distinct.of_map
  obtain ⟨fresh, -⟩ := nodup_cons.1 (nodup_append.1 distinct).2.1
  have earlier : r ∉ done := fun old =>
    (nodup_append.1 distinct).2.2 r old r mem_cons_self rfl
  have without : (done ++ r :: rest).filter (· ≠ r) = done ++ rest := by
    rw [filter_append, filter_cons_of_neg (by simp), filter_ne_eq_self earlier,
      filter_ne_eq_self fresh]
  unfold State.visit Env.removes
  by_cases due : env.upd (s.user r) = true
  · rw [if_pos due, due, Bool.true_and]
    split_ifs
    · exact (congrArg _ split).trans without
    · exact split
  · rw [if_neg due, if_neg (by simp [due]), split]

theorem visit_visible (r : Ref) : (s.visit env r).myVisibleUsersList =
    s.myVisibleUsersList.filter fun q => !(decide (q = r) && env.removes (s.user r)) := by
  unfold State.visit Env.removes
  by_cases due : env.upd (s.user r) = true
  · rw [if_pos due, due, Bool.true_and]
    split_ifs with deleted
    · simp [deleted]
    · simp [deleted, State.put]
  · rw [if_neg due]
    simp [due]

theorem Swept.cons {e : State Ref} {r : Ref} (good : s.Good) (split : s.myUsers = done ++ r :: rest)
    (stores : s.Stores env r)
    (swept : Swept env (s.visit env r) e (if env.removes (s.user r) then done else done ++ [r])
      rest) :
    Swept env s e done (r :: rest) := by
  have distinct : (done ++ r :: rest).Nodup := split ▸ good.working_distinct.of_map
  obtain ⟨fresh, -⟩ := nodup_cons.1 (nodup_append.1 distinct).2.1
  have same := @visit_user_of_fresh _ _ s env r _ fresh
  refine ⟨?_, ?_, swept.complete.trans (visit_complete r), fun q => ?_⟩
  · rw [swept.myUsers, filter_cons, filter_congr fun q hq => by rw [same q hq]]
    cases env.removes (s.user r) <;> simp
  · rw [swept.visible, visit_visible, filter_filter]
    refine filter_congr fun q _ => ?_
    by_cases later : q ∈ rest
    · have other : q ≠ r := fun equal => fresh (equal ▸ later)
      simp [later, other, same q later]
    · by_cases here : q = r
      · simp [here, fresh]
      · simp [here, later]
  · rw [swept.user q]
    by_cases here : q = r
    · subst here
      rw [if_neg fun both => fresh both.1, visit_user_self stores]
      simp
    · rw [visit_user_of_ne here]
      simp [here]

theorem Swept.nil (split : s.myUsers = done) : Swept env s s done [] where
  myUsers := split.trans (append_nil _).symm
  visible := (filter_eq_self.2 (by simp)).symm
  complete := rfl
  user r := (if_neg (by simp)).symm

/-- With fuel for the users that are left, a run goes over all of them when every store
succeeds, and stops at one that raises otherwise. -/
theorem loop_outcome {fuel : Nat} (good : s.Good) (split : s.myUsers = done ++ rest)
    (enough : rest.length < fuel) : (AllStored env s.user rest s.db ∧
        ∃ e, State.loop env fuel done.length s = (none, e) ∧ Swept env s e done rest) ∨
      (¬AllStored env s.user rest s.db ∧
        ∃ ex e, State.loop env fuel done.length s = (some (.raised ex), e)) := by
  induction rest generalizing s done fuel with
  | nil =>
    obtain ⟨fuel, rfl⟩ := Nat.exists_eq_add_of_lt enough
    rw [append_nil] at split
    have ended : s.myUsers[done.length]? = none := by simp [split]
    refine .inl ⟨trivial, s, ?_, .nil split⟩
    rw [length_nil, Nat.zero_add, State.loop, ended]
  | cons r rest ih =>
    obtain ⟨fuel, rfl⟩ : ∃ fuel', fuel = fuel' + 1 := ⟨fuel - 1, by grind⟩
    have distinct : (done ++ r :: rest).Nodup := split ▸ good.working_distinct.of_map
    obtain ⟨fresh, -⟩ := nodup_cons.1 (nodup_append.1 distinct).2.1
    have here : s.myUsers[done.length]? = some r := by simp [split]
    have listed : r ∈ s.myUsers := mem_of_getElem? here
    rw [allStored_cons fresh, State.loop, here]
    dsimp only
    by_cases stores : s.Stores env r
    · rw [body_stores good _ listed stores]
      -- the index and the users before it go on together
      obtain ⟨done', index, split'⟩ : ∃ done' : List Ref,
          (if env.removes (s.user r) then done.length else done.length + 1) = done'.length ∧
          done' = if env.removes (s.user r) then done else done ++ [r] := by
        refine ⟨_, ?_, rfl⟩
        split_ifs <;> simp
      have rest' : (s.visit env r).myUsers = done' ++ rest := by
        rw [visit_myUsers good split, split']
        split_ifs <;> simp
      rw [index]
      rcases ih good.visit rest' (Nat.lt_of_succ_lt_succ enough) with
        ⟨stored, e, ended, swept⟩ | ⟨fails, stopped⟩
      · exact .inl ⟨⟨stores, stored⟩, e, ended, .cons good split stores (split' ▸ swept)⟩
      · exact .inr ⟨fun both => fails both.2, stopped⟩
    · obtain ⟨due, failed⟩ := Classical.not_imp.1 stores
      obtain ⟨ex, raised⟩ := Option.ne_none_iff_exists'.1 failed
      rw [body_raises _ due raised]
      exact .inr ⟨fun both => stores both.1, ex, _, rfl⟩

theorem State.Good.loop (good : s.Good) (fuel i : Nat) : (State.loop env fuel i s).2.Good := by
  induction fuel generalizing s i with
  | zero => exact good
  | succ fuel ih =>
    rw [State.loop]
    cases here : s.myUsers[i]? with
    | none => exact good
    | some r =>
      have listed : r ∈ s.myUsers := mem_of_getElem? here
      dsimp only
      by_cases stores : s.Stores env r
      · rw [body_stores good _ listed stores]
        exact ih good.visit _
      · obtain ⟨due, failed⟩ := Classical.not_imp.1 stores
        obtain ⟨ex, raised⟩ := Option.ne_none_iff_exists'.1 failed
        rw [body_raises _ due raised]
        exact good.put

/-- The states that the manager can be in: the lists are loaded, users are edited, stored,
added and removed, and runs are made, which may have raised. -/
inductive Reached : State Ref → Prop
  | load (user : Ref → User) {complete : List Ref} (db : UserDAO.State) (audits : List Audit)
    (distinct : (complete.map fun r => (user r).userId).Nodup) :
    Reached (.load user complete db audits)
  | edit {s : State Ref} {user : Ref → User} (db : UserDAO.State) (audits : List Audit)
    (reached : Reached s)
    (same : ∀ r ∈ s.myUsersCompleteList, (user r).userId = (s.user r).userId ∧
      (user r).isSpecialUser = (s.user r).isSpecialUser) :
    Reached { s with user := user, db := db, audits := audits }
  | add {s : State Ref} {aUser : Ref} (reached : Reached s)
    (fresh : ∀ r ∈ s.myUsersCompleteList, (s.user r).userId ≠ (s.user aUser).userId) :
    Reached (s.addUserToCollection aUser)
  | remove {s t u : State Ref} {aUserId : Int} (reached : Reached s)
    (first : s.removeUserFromCollection aUserId = .ok t)
    (second : t.removeUserFromVisibleCollection aUserId = .ok u) : Reached u
  | run {s : State Ref} (env : Env Ref) (fuel : Nat) (reached : Reached s) :
    Reached (s.verifiedAutoInactivateDelete env fuel).2

theorem Reached.good (reached : Reached s) : s.Good := by
  induction reached with
  | load user db audits distinct => exact .of_load user db audits distinct
  | edit db audits _ same ih => exact ih.edit db audits same
  | add _ fresh ih => exact ih.add fresh
  | remove _ first second ih => exact ih.remove first second
  | run env fuel _ ih => exact ih.loop fuel 0

/-- What a run should do with every user and every list. -/
structure Performs (env : Env Ref) (s e : State Ref) : Prop where
  active : ∀ r ∈ s.myUsers, (e.user r).active =
    ((s.user r).active && !decide (env.Expired env.pinAutoInactivate (s.user r)))
  deleted : ∀ r ∈ s.myUsers, (e.user r).deleted =
    ((s.user r).deleted || decide (env.Expired env.pinAutoDelete (s.user r)))
  others : ∀ r, (r ∈ s.myUsers → ¬env.Expired env.pinAutoInactivate (s.user r) ∧
    ¬env.Expired env.pinAutoDelete (s.user r)) → e.user r = s.user r
  myUsers : e.myUsers =
    s.myUsers.filter fun r => !decide (env.Expired env.pinAutoDelete (s.user r))
  visible : e.myVisibleUsersList =
    s.myVisibleUsersList.filter fun r => !decide (env.Expired env.pinAutoDelete (s.user r))
  complete : e.myUsersCompleteList = s.myUsersCompleteList

/-- A user that an earlier run marked as deleted, and left in the lists when its store
raised, is not inactivated without being deleted again. -/
def NoneLeft (env : Env Ref) (s : State Ref) : Prop :=
  ∀ r ∈ s.myUsers, (s.user r).deleted = true →
    env.Expired env.pinAutoInactivate (s.user r) → env.Expired env.pinAutoDelete (s.user r)

omit [DecidableEq Ref] in
theorem NoneLeft.removes_eq (none : NoneLeft env s) {r : Ref} (listed : r ∈ s.myUsers) :
    env.removes (s.user r) = decide (env.Expired env.pinAutoDelete (s.user r)) := by
  rw [env.removes_eq, Bool.or_eq_left_iff_imp, Bool.and_eq_true, decide_eq_true_eq,
    decide_eq_true_eq]
  exact fun both => none r listed both.1 both.2

theorem Swept.performs {e : State Ref} (good : s.Good) (swept : Swept env s e [] s.myUsers)
    (none : NoneLeft env s) : Performs env s e where
  active r listed := by
    rw [swept.user r, ← env.inactivates_eq]
    unfold Env.stored Env.mark Env.upd
    cases env.inactivates (s.user r) <;> cases env.deletes (s.user r) <;> simp [listed]
  deleted r listed := by
    rw [swept.user r, ← env.deletes_eq]
    unfold Env.stored Env.mark Env.upd
    cases env.inactivates (s.user r) <;> cases env.deletes (s.user r) <;> simp [listed]
  others r fresh := by
    rw [swept.user r]
    refine if_neg fun both => ?_
    obtain ⟨listed, due⟩ := both
    obtain ⟨notInactivated, notDeleted⟩ := fresh listed
    unfold Env.upd at due
    rw [env.inactivates_eq, env.deletes_eq] at due
    simp [notInactivated, notDeleted] at due
  myUsers := by
    rw [swept.myUsers, nil_append]
    exact filter_congr fun r listed => by rw [none.removes_eq listed]
  visible := by
    rw [swept.visible]
    refine filter_congr fun r seen => ?_
    have listed : r ∈ s.myUsers := good.visible.subset seen
    rw [none.removes_eq listed, decide_eq_true listed, Bool.true_and]
  complete := swept.complete

/-- Where a run does what it should, no user was left in the lists marked as deleted. -/
theorem Performs.noneLeft {e : State Ref} (performs : Performs env s e)
    (swept : Swept env s e [] s.myUsers) : NoneLeft env s := by
  intro r listed deleted inactivated
  by_contra kept
  have present : r ∈ e.myUsers := by
    rw [performs.myUsers]
    exact mem_filter.2 ⟨listed, by simpa using kept⟩
  rw [swept.myUsers, nil_append] at present
  have removed := (mem_filter.1 present).2
  rw [env.removes_eq] at removed
  simp [deleted, inactivated] at removed

/-- A run on the lists of a state that was reached ends and does what it should exactly when
every store it makes succeeds and no user was left behind by a store that raised. -/
theorem verified_iff (reached : Reached s) (env : Env Ref) {fuel : Nat}
    (enough : s.myUsers.length < fuel) :
    (∃ e, s.verifiedAutoInactivateDelete env fuel = (none, e) ∧ Performs env s e) ↔
      AllStored env s.user s.myUsers s.db ∧ NoneLeft env s := by
  rcases @loop_outcome _ _ s env _ [] _ reached.good (nil_append _).symm enough with
    ⟨stored, e, ended, swept⟩ | ⟨fails, ex, e, stopped⟩
  · constructor
    · rintro ⟨e', ended', performs⟩
      obtain rfl : e = e' := congrArg Prod.snd (ended.symm.trans ended')
      exact ⟨stored, performs.noneLeft swept⟩
    · rintro ⟨-, none⟩
      exact ⟨e, ended, swept.performs reached.good none⟩
  · constructor
    · rintro ⟨e', ended', -⟩
      cases congrArg Prod.fst (stopped.symm.trans ended')
    · exact fun both => absurd both.1 fails

end run

/-! ## A user whose login device was taken away -/

/-- Users with a PIN or a key, who logged in 31 days ago; user 1 is the administrator. -/
def sampleUser (aUserId : Nat) : User where
  userId := aUserId
  uName := "N"
  uSurname := "S"
  loginName := String.ofList (List.replicate aUserId '1')
  password := FICTICIOUS_PASSWORD
  duressPassword := FICTICIOUS_DURESS_PASSWORD
  realPassword := ""
  uProfileId := 1
  loginMethod := if aUserId = 3 then .DALLASKEY else .PERSONALIDNUMBER
  key := if aUserId = 3 then "K" else ""
  deleted := false
  isSpecialUser := aUserId = 1
  active := true
  lastLoginDateTime := 0

/-- Users are deleted after a month, and keys are not read. -/
def sampleEnv : Env Nat where
  localTime := 2678400
  pinAutoInactivate := ⟨0, by omega, by omega⟩
  pinAutoDelete := ⟨1, by omega, by omega⟩
  settings := {
    profiles := [⟨1, .SecurityLevel_1, false⟩]
    pinLenght := 8
    loginDevType := .NONE
    ids_short := by simp [toShort] }
  useDuressPassword _ := true
  logedUserPersonalId := ""
  fates _ _ := .answers

def sampleDb : UserDAO.State where
  users := [1, 2, 3].map fun aUserId => (sampleUser aUserId).toUser.row aUserId
  lastUserId := 3
  board _ := none
  lastPassword _ := ""

/-- The clerk is deleted and the administrator is not. -/
theorem verified_deletes : ∃ e : State Nat,
    (State.load sampleUser [1, 2] sampleDb []).verifiedAutoInactivateDelete sampleEnv 3 =
      (none, e) ∧ Performs sampleEnv (.load sampleUser [1, 2] sampleDb []) e := by
  refine (verified_iff (.load sampleUser sampleDb [] (by decide)) sampleEnv (by decide)).2 ⟨?_, ?_⟩
  · change AllStored sampleEnv sampleUser [1, 2] sampleDb
    simp only [AllStored]
    decide
  · intro r _ deleted
    cases deleted

/-- A key that is no longer read raises in the store, and the run ends there. -/
theorem not_verified : ¬∀ (s : State Nat) (env : Env Nat) (fuel : Nat), Reached s →
    s.myUsers.length < fuel →
    ∃ e, s.verifiedAutoInactivateDelete env fuel = (none, e) ∧ Performs env s e := by
  intro all
  obtain ⟨e, ended, -⟩ := all (.load sampleUser [1, 3] sampleDb []) sampleEnv 3
    (.load sampleUser sampleDb [] (by decide)) (by decide)
  have raised : ((State.load sampleUser [1, 3] sampleDb []).verifiedAutoInactivateDelete
      sampleEnv 3).1 = some (.raised .DALLAS_NOT_AVAILABLE_EX) := by decide
  rw [ended] at raised
  cases raised

end CimArm.AutoDelete
