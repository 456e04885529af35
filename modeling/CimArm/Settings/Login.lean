import Mathlib.Data.List.Basic
import Mathlib.Tactic.SplitIfs

/-!
# Logging in

A user logs in with a name, a password and keys; which of them are needed depends on the
security level of the profile and on the login method.  The user is searched by name, or
by the first key where there is no name, and the password is put to the safe board.  The
remote login has a name and a password only.

* `trusted_iff`: when each credential that is needed has been checked against the user
  who is returned.

A key is compared whatever the login device is, but a difference raises only for two of
the devices; and at level 2 without a name, the password is put to the board for the
empty name.
-/

namespace CimArm.Login

open List

/-! ## Users -/

inductive SecurityLevel : Type
  | SecurityLevel_0
  | SecurityLevel_1
  | SecurityLevel_2
  | SecurityLevel_3
  deriving DecidableEq, Repr

inductive LoginMethod : Type
  | UNDEFINED
  | PERSONALIDNUMBER
  | DALLASKEY
  | SWIPE_CARD_READER
  | FINGERPRINT
  deriving DecidableEq, Repr

inductive LoginDevType : Type
  | UNDEFINED
  | NONE
  | DALLAS_KEY
  | SWIPE_CARD_READER
  deriving DecidableEq, Repr

inductive LoginException : Type
  | INEXISTENT_USER_EX
  | INACTIVE_USER_EX
  | REFERENCE_NOT_FOUND_EX
  | LOGIN_NAME_AND_PIN_REQUIRED_EX
  | PIN_REQUIRED_EX
  | INVALID_DALLAS_KEY_EX
  | INVALID_SWIPE_CARD_KEY_EX
  | DALLAS_KEY_REQUIRED_EX
  | SWIPE_CARD_KEY_REQUIRED_EX
  | DEVICE_KEY_REQUIRED_EX
  | WRONG_USER_NAME_OR_PASSWORD_EX
  | CIM_COMMAND_TIMEOUT_EX
  | CIM_UNDEFINED_RESPONSE_EX
  /-- One of the exceptions that `throwError` raises for an error of the board. -/
  | CIM_ERROR (anErrorCode : UInt8)
  deriving DecidableEq, Repr

def PIMS_USER_NAME : String := "00PIMS00"
def OVERRIDE_USER_NAME : String := "00OVER00"

structure User : Type where
  userId : Nat
  loginName : String
  fullName : String
  key : String
  active : Bool
  uProfileId : Nat
  loginMethod : LoginMethod
  deriving DecidableEq

/-- The users that serve the program itself. -/
def User.Special (user : User) : Prop :=
  user.loginName = PIMS_USER_NAME ∨ user.loginName = OVERRIDE_USER_NAME

instance (user : User) : Decidable user.Special :=
  inferInstanceAs (Decidable (_ ∨ _))

structure Profile : Type where
  profileId : Nat
  securityLevel : SecurityLevel

/-- The users, their profiles and the setting of the login device. -/
structure UserManager : Type where
  myUsers : List User
  myProfiles : List Profile
  loginDevType : LoginDevType

def UserManager.getSecurityLevel (m : UserManager) (aProfileId : Nat) : Option SecurityLevel :=
  (m.myProfiles.find? (·.profileId = aProfileId)).map (·.securityLevel)

/-! ## The safe board -/

/-- What comes back from the board for the validation of a user. -/
inductive Rta : Type
  | timeout
  | SBOX_FAILURE_CMD (anErrorCode : UInt8)
  | SBOX_SUCCESS_CMD (aditData2 : UInt8)
  | undefined
  deriving DecidableEq

/-- The answer to each personal id and password. -/
abbrev Board : Type := String → String → Rta

/-- 1 is the password and 0 is the duress password. -/
def sbValidateUser (board : Board) (aPersonalId aPassword : String) :
    Except LoginException Nat :=
  match board aPersonalId aPassword with
  | .timeout => .error .CIM_COMMAND_TIMEOUT_EX
  | .SBOX_FAILURE_CMD anErrorCode => .error (.CIM_ERROR anErrorCode)
  | .SBOX_SUCCESS_CMD aditData2 => .ok (if aditData2 = 0 then 1 else 0)
  | .undefined => .error .CIM_UNDEFINED_RESPONSE_EX

theorem sbValidateUser_le_one {board : Board} {aPersonalId aPassword : String} {pswResult : Nat}
    (answer : sbValidateUser board aPersonalId aPassword = .ok pswResult) :
    pswResult = 0 ∨ pswResult = 1 := by
  unfold sbValidateUser at answer
  split at answer
  all_goals cases answer
  split
  · exact .inr rfl
  · exact .inl rfl

/-- The board did not raise. -/
def Accepts (board : Board) (aPersonalId aPassword : String) : Prop :=
  ∃ pswResult, sbValidateUser board aPersonalId aPassword = .ok pswResult

/-! ## Login -/

/-- The end of a login and what the board was asked for. -/
structure Outcome (α : Type) : Type where
  asked : List (String × String)
  result : Except LoginException α

def Outcome.raise {α : Type} (e : LoginException) : Outcome α := ⟨[], .error e⟩

/-- By the first key without a name, by name with one; the first who matches. -/
def UserManager.searchUser (m : UserManager) (aLoginName : String) (aDallasKeys : List String) :
    Option User :=
  if aLoginName = "" then
    match aDallasKeys with
    | [] => none
    | dallasKey :: _ => m.myUsers.find? (dallasKey = ·.key)
  else m.myUsers.find? (·.loginName = aLoginName)

/-- What must be there for a level above 0, and what must not. -/
def validatePresent (loginDevType : LoginDevType) (user : User) (securityLevel : SecurityLevel)
    (aLoginName aPassword : String) (aDallasKeys : List String) : Except LoginException Unit :=
  if securityLevel = .SecurityLevel_3 ∧ (aLoginName = "" ∨ aPassword = "") then
    .error .LOGIN_NAME_AND_PIN_REQUIRED_EX
  else if securityLevel = .SecurityLevel_2 ∧ aPassword = "" then .error .PIN_REQUIRED_EX
  else if securityLevel = .SecurityLevel_1 ∧ user.loginMethod = .PERSONALIDNUMBER ∧
      (aLoginName = "" ∨ aPassword = "") then
    .error .LOGIN_NAME_AND_PIN_REQUIRED_EX
  else if securityLevel = .SecurityLevel_1 ∧ user.loginMethod = .PERSONALIDNUMBER ∧
      aDallasKeys ≠ [] then
    match loginDevType with
    | .DALLAS_KEY => .error .INVALID_DALLAS_KEY_EX
    | .SWIPE_CARD_READER => .error .INVALID_SWIPE_CARD_KEY_EX
    | _ => .ok ()
  else .ok ()

/-- Levels 2 and 3 need a key, and so do the methods that use one. -/
def KeyRequired (user : User) (securityLevel : SecurityLevel) : Prop :=
  securityLevel = .SecurityLevel_2 ∨ securityLevel = .SecurityLevel_3 ∨
    user.loginMethod = .DALLASKEY ∨ user.loginMethod = .SWIPE_CARD_READER

instance (user : User) (securityLevel : SecurityLevel) :
    Decidable (KeyRequired user securityLevel) :=
  inferInstanceAs (Decidable (_ ∨ _ ∨ _ ∨ _))

/-- Levels 2 and 3 need a password, and so does a login by name. -/
def PasswordRequired (securityLevel : SecurityLevel) (aLoginName : String) : Prop :=
  securityLevel = .SecurityLevel_2 ∨ securityLevel = .SecurityLevel_3 ∨ aLoginName ≠ ""

instance (securityLevel : SecurityLevel) (aLoginName : String) :
    Decidable (PasswordRequired securityLevel aLoginName) :=
  inferInstanceAs (Decidable (_ ∨ _ ∨ _))

def validateKey (loginDevType : LoginDevType) (user : User) (securityLevel : SecurityLevel)
    (aLoginName : String) (aDallasKeys : List String) : Except LoginException Unit :=
  if KeyRequired user securityLevel then
    match aDallasKeys with
    | [] =>
      match loginDevType with
      | .DALLAS_KEY => .error .DALLAS_KEY_REQUIRED_EX
      | .SWIPE_CARD_READER => .error .SWIPE_CARD_KEY_REQUIRED_EX
      | _ => .error .DEVICE_KEY_REQUIRED_EX
    | dallasKey :: _ =>
      if dallasKey ≠ user.key ∧ loginDevType = .DALLAS_KEY then .error .INVALID_DALLAS_KEY_EX
      else if dallasKey ≠ user.key ∧ loginDevType = .SWIPE_CARD_READER then
        .error .INVALID_SWIPE_CARD_KEY_EX
      else if securityLevel = .SecurityLevel_3 ∧
          (aLoginName = "" ∨ user.loginName ≠ aLoginName) then
        .error .WRONG_USER_NAME_OR_PASSWORD_EX
      else .ok ()
  else .ok ()

/-- The user, and whether it was the duress password. -/
def getUserByLogin (m : UserManager) (board : Board) (aLoginName aPassword : String)
    (aDallasKeys : List String) : Outcome (User × Bool) :=
  match m.searchUser aLoginName aDallasKeys with
  | none => .raise .INEXISTENT_USER_EX
  | some user =>
    if user.Special then .raise .INEXISTENT_USER_EX
    else if user.active = false then .raise .INACTIVE_USER_EX
    else
      match m.getSecurityLevel user.uProfileId with
      | none => .raise .REFERENCE_NOT_FOUND_EX
      | some securityLevel =>
        if securityLevel = .SecurityLevel_0 then ⟨[], .ok (user, false)⟩
        else
          match validatePresent m.loginDevType user securityLevel aLoginName aPassword
            aDallasKeys with
          | .error e => .raise e
          | .ok () =>
            if PasswordRequired securityLevel aLoginName then
              ⟨[(aLoginName, aPassword)],
                (sbValidateUser board aLoginName aPassword).bind fun pswResult =>
                  (validateKey m.loginDevType user securityLevel aLoginName aDallasKeys).map
                    fun _ => (user, pswResult ≠ 1)⟩
            else
              ⟨[], (validateKey m.loginDevType user securityLevel aLoginName aDallasKeys).map
                fun _ => (user, false)⟩

/-! ## Remote login -/

/-- What a remote login leaves behind. -/
structure RemoteLog : Type where
  cantLoginFails : Nat
  /-- The texts of the audits `Event_LOGIN_PIN_USER`. -/
  audits : List String

namespace RemoteLog

def incCantLoginFails (log : RemoteLog) : RemoteLog :=
  { log with cantLoginFails := log.cantLoginFails + 1 }

/-- The failures are forgotten and the login is audited. -/
def loggedIn (log : RemoteLog) (user : User) : RemoteLog where
  cantLoginFails := 0
  audits := log.audits ++ [user.loginName ++ "-" ++ user.fullName]

end RemoteLog

/-- The last user with a name. -/
def UserManager.searchRemoteUser (m : UserManager) (aLoginName : String) : Option User :=
  m.myUsers.reverse.find? (·.loginName = aLoginName)

/-- The body of the `TRY`. `toupper` is given the pointer, which it leaves as it is, so the
name itself is compared. -/
def tryRemoteUser (m : UserManager) (board : Board) (aLoginName aPassword : String)
    (log : RemoteLog) : Outcome User × RemoteLog :=
  if aLoginName = PIMS_USER_NAME ∨ aLoginName = OVERRIDE_USER_NAME then
    (.raise .INEXISTENT_USER_EX, log)
  else
    match m.searchRemoteUser aLoginName with
    | none => (.raise .INEXISTENT_USER_EX, log.incCantLoginFails)
    | some user =>
      match m.getSecurityLevel user.uProfileId with
      | none => (.raise .REFERENCE_NOT_FOUND_EX, log)
      | some .SecurityLevel_0 =>
        if user.active = false then (.raise .INACTIVE_USER_EX, log)
        else (⟨[], .ok user⟩, log.loggedIn user)
      | some _ =>
        match sbValidateUser board aLoginName aPassword with
        | .error e => (⟨[(aLoginName, aPassword)], .error e⟩, log)
        | .ok pswResult =>
          if pswResult ≠ 0 then
            if user.active = false then
              (⟨[(aLoginName, aPassword)], .error .INACTIVE_USER_EX⟩, log)
            else (⟨[(aLoginName, aPassword)], .ok user⟩, log.loggedIn user)
          else
            (⟨[(aLoginName, aPassword)], .error .INEXISTENT_USER_EX⟩, log.incCantLoginFails)

/-- Whatever was raised, it is the same exception that comes out. -/
def validateRemoteUser (m : UserManager) (board : Board) (aLoginName aPassword : String)
    (log : RemoteLog) : Outcome User × RemoteLog :=
  match tryRemoteUser m board aLoginName aPassword log with
  | (⟨asked, .error _⟩, log) => (⟨asked, .error .INEXISTENT_USER_EX⟩, log.incCantLoginFails)
  | (⟨asked, .ok user⟩, log) => (⟨asked, .ok user⟩, log)

/-! ## What a login trusts -/

inductive Attempt : Type
  | login (aLoginName aPassword : String) (aDallasKeys : List String)
  | remote (aLoginName aPassword : String)

namespace Attempt

def asked (m : UserManager) (board : Board) : Attempt → List (String × String)
  | login aLoginName aPassword aDallasKeys =>
    (getUserByLogin m board aLoginName aPassword aDallasKeys).asked
  | remote aLoginName aPassword => (validateRemoteUser m board aLoginName aPassword ⟨0, []⟩).1.asked

/-- The attempt gives a user. -/
def Returns (m : UserManager) (board : Board) (user : User) : Attempt → Prop
  | login aLoginName aPassword aDallasKeys =>
    ∃ duress, (getUserByLogin m board aLoginName aPassword aDallasKeys).result = .ok (user, duress)
  | remote aLoginName aPassword =>
    (validateRemoteUser m board aLoginName aPassword ⟨0, []⟩).1.result = .ok user

def password : Attempt → String
  | login _ aPassword _ => aPassword
  | remote _ aPassword => aPassword

/-- A remote login has no keys. -/
def keys : Attempt → List String
  | login _ _ aDallasKeys => aDallasKeys
  | remote _ _ => []

/-- The password has to be the user's own: by level, by name or from remote. -/
def NeedsPassword (securityLevel : SecurityLevel) : Attempt → Prop
  | login aLoginName _ _ => PasswordRequired securityLevel aLoginName
  | remote _ _ => True

end Attempt

/-- What there is to know of a user who is given by an attempt at some level. -/
structure Trusted (m : UserManager) (board : Board) (attempt : Attempt) (user : User)
    (securityLevel : SecurityLevel) : Prop where
  active : user.active = true
  ordinary : ¬ user.Special
  key : KeyRequired user securityLevel → attempt.keys.head? = some user.key
  password : attempt.NeedsPassword securityLevel →
    (user.loginName, attempt.password) ∈ attempt.asked m board ∧
      Accepts board user.loginName attempt.password
  duress : ∀ aLoginName aPassword, attempt = .remote aLoginName aPassword →
    sbValidateUser board aLoginName aPassword = .ok 1

/-- Every user given at a level above 0 has been checked. -/
def Sound (m : UserManager) (board : Board) (attempt : Attempt) : Prop :=
  ∀ user securityLevel, attempt.Returns m board user →
    m.getSecurityLevel user.uProfileId = some securityLevel →
    securityLevel ≠ .SecurityLevel_0 → Trusted m board attempt user securityLevel

/-- The user who is found is one who may log in at some level above 0. -/
structure Admitted (m : UserManager) (found : Option User) (user : User)
    (securityLevel : SecurityLevel) : Prop where
  found : found = some user
  ordinary : ¬ user.Special
  active : user.active = true
  level : m.getSecurityLevel user.uProfileId = some securityLevel
  above : securityLevel ≠ .SecurityLevel_0

/-- What lets a user in without a check: another key than the user's where the login device
is none of the two that raise, a password accepted for the empty name, and a remote login
of a user who needs a key. -/
def Attempt.Exposed (m : UserManager) (board : Board) : Attempt → Prop
  | login aLoginName aPassword aDallasKeys => ∃ user securityLevel,
      Admitted m (m.searchUser aLoginName aDallasKeys) user securityLevel ∧
      KeyRequired user securityLevel ∧
      (securityLevel ≠ .SecurityLevel_1 → aPassword ≠ "") ∧
      Accepts board aLoginName aPassword ∧
      (aLoginName ≠ "" ∧ m.loginDevType ≠ .DALLAS_KEY ∧ m.loginDevType ≠ .SWIPE_CARD_READER ∧
          (∃ dallasKey, aDallasKeys.head? = some dallasKey ∧ dallasKey ≠ user.key) ∨
        aLoginName = "" ∧ securityLevel = .SecurityLevel_2 ∧ user.loginName ≠ "")
  | remote aLoginName aPassword => ∃ user securityLevel,
      Admitted m (m.searchRemoteUser aLoginName) user securityLevel ∧
      KeyRequired user securityLevel ∧ sbValidateUser board aLoginName aPassword = .ok 1

/-! ## The steps of a login -/

section steps

variable {m : UserManager} {board : Board} {aLoginName aPassword : String}
  {aDallasKeys : List String} {user : User} {securityLevel : SecurityLevel}

theorem searchUser_key (found : m.searchUser "" aDallasKeys = some user) :
    aDallasKeys.head? = some user.key := by
  unfold UserManager.searchUser at found
  rw [if_pos rfl] at found
  cases aDallasKeys with
  | nil => cases found
  | cons dallasKey rest =>
    have same : dallasKey = user.key := by simpa using List.find?_some found
    rw [List.head?_cons, same]

theorem searchUser_name (named : aLoginName ≠ "")
    (found : m.searchUser aLoginName aDallasKeys = some user) : user.loginName = aLoginName := by
  unfold UserManager.searchUser at found
  rw [if_neg named] at found
  simpa using List.find?_some found

variable {loginDevType : LoginDevType}

theorem validatePresent_ok
    (present : validatePresent loginDevType user securityLevel aLoginName aPassword aDallasKeys =
      .ok ()) :
    (securityLevel = .SecurityLevel_3 → aLoginName ≠ "" ∧ aPassword ≠ "") ∧
      (securityLevel = .SecurityLevel_2 → aPassword ≠ "") := by
  unfold validatePresent at present
  refine ⟨fun level => not_or.1 fun missing => ?_, fun level missing => ?_⟩
  · rw [if_pos ⟨level, missing⟩] at present
    cases present
  · rw [if_neg fun third => SecurityLevel.noConfusion (level.symm.trans third.1),
      if_pos ⟨level, missing⟩] at present
    cases present

theorem validatePresent_eq (keyed : KeyRequired user securityLevel)
    (third : securityLevel = .SecurityLevel_3 → aLoginName ≠ "")
    (password : securityLevel ≠ .SecurityLevel_1 → aPassword ≠ "") :
    validatePresent loginDevType user securityLevel aLoginName aPassword aDallasKeys = .ok () := by
  have method : ¬ (securityLevel = .SecurityLevel_1 ∧ user.loginMethod = .PERSONALIDNUMBER) := by
    rintro ⟨rfl, personal⟩
    rcases keyed with level | level | dallas | swipe
    · cases level
    · cases level
    · rw [personal] at dallas
      cases dallas
    · rw [personal] at swipe
      cases swipe
  unfold validatePresent
  rw [if_neg, if_neg, if_neg, if_neg]
  · exact fun both => method ⟨both.1, both.2.1⟩
  · exact fun both => method ⟨both.1, both.2.1⟩
  · rintro ⟨rfl, missing⟩
    exact password SecurityLevel.noConfusion missing
  · rintro ⟨rfl, missing | missing⟩
    · exact third rfl missing
    · exact password SecurityLevel.noConfusion missing

/-- With a key that is required the check passes if it is the user's or the device is none
of the two. -/
theorem validateKey_ok_iff (keyed : KeyRequired user securityLevel)
    (third : securityLevel = .SecurityLevel_3 → aLoginName ≠ "" ∧ user.loginName = aLoginName) :
    validateKey loginDevType user securityLevel aLoginName aDallasKeys = .ok () ↔
      ∃ dallasKey, aDallasKeys.head? = some dallasKey ∧
        (dallasKey = user.key ∨
          loginDevType ≠ .DALLAS_KEY ∧ loginDevType ≠ .SWIPE_CARD_READER) := by
  unfold validateKey
  rw [if_pos keyed]
  cases aDallasKeys with
  | nil => cases loginDevType <;> simp
  | cons dallasKey rest =>
    have named : ¬ (securityLevel = .SecurityLevel_3 ∧
        (aLoginName = "" ∨ user.loginName ≠ aLoginName)) := by
      rintro ⟨level, missing | other⟩
      · exact (third level).1 missing
      · exact other (third level).2
    by_cases same : dallasKey = user.key
    · simp [same, named]
    · cases loginDevType <;> simp [same, named]

theorem map_eq_ok {ε α β : Type} {f : α → β} {x : Except ε α} {b : β}
    (given : x.map f = .ok b) : ∃ a, x = .ok a ∧ f a = b := by
  cases x with
  | error e => cases given
  | ok a => exact ⟨a, rfl, Except.ok.inj given⟩

theorem getUserByLogin_eq
    (admitted : Admitted m (m.searchUser aLoginName aDallasKeys) user securityLevel)
    (present : validatePresent m.loginDevType user securityLevel aLoginName aPassword
      aDallasKeys = .ok ()) :
    getUserByLogin m board aLoginName aPassword aDallasKeys =
      if PasswordRequired securityLevel aLoginName then
        ⟨[(aLoginName, aPassword)],
          (sbValidateUser board aLoginName aPassword).bind fun pswResult =>
            (validateKey m.loginDevType user securityLevel aLoginName aDallasKeys).map
              fun _ => (user, pswResult ≠ 1)⟩
      else
        ⟨[], (validateKey m.loginDevType user securityLevel aLoginName aDallasKeys).map
          fun _ => (user, false)⟩ := by
  unfold getUserByLogin
  rw [admitted.found]
  dsimp only
  rw [if_neg admitted.ordinary, if_neg (Bool.ne_false_iff.2 admitted.active), admitted.level]
  dsimp only
  rw [if_neg admitted.above, present]

theorem getUserByLogin_ok (level : m.getSecurityLevel user.uProfileId = some securityLevel)
    (above : securityLevel ≠ .SecurityLevel_0) {duress : Bool}
    (given : (getUserByLogin m board aLoginName aPassword aDallasKeys).result =
      .ok (user, duress)) :
    Admitted m (m.searchUser aLoginName aDallasKeys) user securityLevel ∧
      validatePresent m.loginDevType user securityLevel aLoginName aPassword aDallasKeys =
        .ok () := by
  cases found : m.searchUser aLoginName aDallasKeys with
  | none =>
    unfold getUserByLogin at given
    rw [found] at given
    cases given
  | some other =>
    have same : other = user ∧ ¬ other.Special ∧ other.active = true ∧
        validatePresent m.loginDevType user securityLevel aLoginName aPassword aDallasKeys =
          .ok () := by
      unfold getUserByLogin at given
      rw [found] at given
      dsimp only at given
      by_cases special : other.Special
      · rw [if_pos special] at given
        cases given
      rw [if_neg special] at given
      by_cases active : other.active = false
      · rw [if_pos active] at given
        cases given
      rw [if_neg active] at given
      have active : other.active = true := by simpa using active
      cases known : m.getSecurityLevel other.uProfileId with
      | none =>
        rw [known] at given
        cases given
      | some l =>
        rw [known] at given
        dsimp only at given
        by_cases zero : l = .SecurityLevel_0
        · rw [if_pos zero] at given
          obtain rfl : other = user := congrArg Prod.fst (Except.ok.inj given)
          exact absurd (Option.some.inj (level.symm.trans known) ▸ zero) above
        rw [if_neg zero] at given
        cases present : validatePresent m.loginDevType other l aLoginName aPassword
            aDallasKeys with
        | error e =>
          rw [present] at given
          cases given
        | ok _ =>
          rw [present] at given
          dsimp only at given
          have same : other = user := by
            split_ifs at given
            · cases answer : sbValidateUser board aLoginName aPassword with
              | error e =>
                rw [answer] at given
                cases given
              | ok pswResult =>
                rw [answer] at given
                exact congrArg Prod.fst (map_eq_ok given).choose_spec.2
            · exact congrArg Prod.fst (map_eq_ok given).choose_spec.2
          subst same
          obtain rfl : securityLevel = l := Option.some.inj (level.symm.trans known)
          exact ⟨rfl, special, active, present⟩
    obtain ⟨rfl, ordinary, active, present⟩ := same
    exact ⟨⟨rfl, ordinary, active, level, above⟩, present⟩

theorem getUserByLogin_given_iff
    (admitted : Admitted m (m.searchUser aLoginName aDallasKeys) user securityLevel)
    (present : validatePresent m.loginDevType user securityLevel aLoginName aPassword
      aDallasKeys = .ok ()) :
    (∃ duress, (getUserByLogin m board aLoginName aPassword aDallasKeys).result =
        .ok (user, duress)) ↔
      (PasswordRequired securityLevel aLoginName → Accepts board aLoginName aPassword) ∧
        validateKey m.loginDevType user securityLevel aLoginName aDallasKeys = .ok () := by
  rw [getUserByLogin_eq admitted present]
  split_ifs with asks
  · rw [imp_iff_right asks, Accepts]
    cases sbValidateUser board aLoginName aPassword with
    | error e => simp [Except.bind]
    | ok pswResult =>
      cases validateKey m.loginDevType user securityLevel aLoginName aDallasKeys with
      | error e => simp [Except.bind, Except.map]
      | ok _ => simp [Except.bind, Except.map, em]
  · rw [and_iff_right fun asks' => absurd asks' asks]
    cases validateKey m.loginDevType user securityLevel aLoginName aDallasKeys with
    | error e => simp [Except.map]
    | ok _ => simp [Except.map]

theorem validateRemoteUser_result (log : RemoteLog) :
    (validateRemoteUser m board aLoginName aPassword log).1.result = .ok user ↔
      (tryRemoteUser m board aLoginName aPassword log).1.result = .ok user := by
  unfold validateRemoteUser
  cases tryRemoteUser m board aLoginName aPassword log with
  | mk outcome log =>
    cases outcome with
    | mk asked result =>
      cases result with
      | error e => simp
      | ok user => exact Iff.rfl

/-- A remote login at a level above 0 gives an active user who is found, with the password
that is not the duress password. -/
theorem validateRemoteUser_ok_iff (log : RemoteLog)
    (level : m.getSecurityLevel user.uProfileId = some securityLevel)
    (above : securityLevel ≠ .SecurityLevel_0) :
    (validateRemoteUser m board aLoginName aPassword log).1.result = .ok user ↔
      Admitted m (m.searchRemoteUser aLoginName) user securityLevel ∧
        sbValidateUser board aLoginName aPassword = .ok 1 := by
  rw [validateRemoteUser_result]
  constructor
  · intro given
    unfold tryRemoteUser at given
    by_cases special : aLoginName = PIMS_USER_NAME ∨ aLoginName = OVERRIDE_USER_NAME
    · rw [if_pos special] at given
      cases given
    rw [if_neg special] at given
    cases found : m.searchRemoteUser aLoginName with
    | none =>
      rw [found] at given
      cases given
    | some other =>
      have name : other.loginName = aLoginName := by simpa using List.find?_some found
      rw [found] at given
      dsimp only at given
      cases known : m.getSecurityLevel other.uProfileId with
      | none =>
        rw [known] at given
        cases given
      | some l =>
        rw [known] at given
        have checked : other = user ∧ other.active = true ∧ (l ≠ .SecurityLevel_0 →
            sbValidateUser board aLoginName aPassword = .ok 1) := by
          cases l with
          | SecurityLevel_0 =>
            dsimp only at given
            split_ifs at given with inactive
            · cases given
            · exact ⟨Except.ok.inj given, by simpa using inactive, fun zero => absurd rfl zero⟩
          | _ =>
            cases answer : sbValidateUser board aLoginName aPassword with
            | error e =>
              rw [answer] at given
              cases given
            | ok pswResult =>
              rw [answer] at given
              dsimp only at given
              split_ifs at given with normal inactive
              exact ⟨Except.ok.inj given, by simpa using inactive, fun _ =>
                congrArg Except.ok ((sbValidateUser_le_one answer).resolve_left normal)⟩
        obtain ⟨rfl, active, password⟩ := checked
        obtain rfl : securityLevel = l := Option.some.inj (level.symm.trans known)
        exact ⟨⟨rfl, fun either => special (name ▸ either), active, level, above⟩, password above⟩
  · rintro ⟨admitted, password⟩
    have name : user.loginName = aLoginName := by simpa using List.find?_some admitted.found
    unfold tryRemoteUser
    rw [if_neg (name ▸ admitted.ordinary), admitted.found]
    dsimp only
    rw [level]
    cases securityLevel with
    | SecurityLevel_0 => exact absurd rfl above
    | _ =>
      rw [password]
      dsimp only
      rw [if_pos Nat.one_ne_zero, if_neg (Bool.ne_false_iff.2 admitted.active)]

end steps

/-! ## Soundness -/

section soundness

variable {m : UserManager} {board : Board} {aLoginName aPassword : String}
  {aDallasKeys : List String}

theorem getUserByLogin_asked {user : User} {securityLevel : SecurityLevel}
    (admitted : Admitted m (m.searchUser aLoginName aDallasKeys) user securityLevel)
    (present : validatePresent m.loginDevType user securityLevel aLoginName aPassword
      aDallasKeys = .ok ()) (asks : PasswordRequired securityLevel aLoginName) :
    (getUserByLogin m board aLoginName aPassword aDallasKeys).asked =
      [(aLoginName, aPassword)] := by
  rw [getUserByLogin_eq admitted present, if_pos asks]

/-- A login checks what is needed, but for another key with some devices and the password
of a user without a name. -/
theorem sound_login_iff :
    Sound m board (.login aLoginName aPassword aDallasKeys) ↔
      ¬ (Attempt.login aLoginName aPassword aDallasKeys).Exposed m board := by
  constructor
  · rintro sound ⟨user, securityLevel, admitted, keyed, password, accepts, exposed⟩
    have third : securityLevel = .SecurityLevel_3 → aLoginName ≠ "" := by
      rintro rfl
      rcases exposed with ⟨named, -⟩ | ⟨-, second, -⟩
      · exact named
      · cases second
    have present : validatePresent m.loginDevType user securityLevel aLoginName aPassword
        aDallasKeys = .ok () := validatePresent_eq keyed third password
    have key : validateKey m.loginDevType user securityLevel aLoginName aDallasKeys = .ok () := by
      refine (validateKey_ok_iff keyed fun level =>
        ⟨third level, searchUser_name (third level) admitted.found⟩).2 ?_
      rcases exposed with ⟨-, dallas, swipe, dallasKey, first, -⟩ | ⟨rfl, -, -⟩
      · exact ⟨dallasKey, first, .inr ⟨dallas, swipe⟩⟩
      · exact ⟨user.key, searchUser_key admitted.found, .inl rfl⟩
    have given := (getUserByLogin_given_iff admitted present).2
      ⟨fun _ => accepts, key⟩
    have trusted := sound user securityLevel given admitted.level admitted.above
    rcases exposed with ⟨-, -, -, dallasKey, first, other⟩ | ⟨rfl, rfl, named⟩
    · exact other (Option.some.inj (first.symm.trans (trusted.key keyed)))
    · have asked := (trusted.password (.inl rfl)).1
      rw [Attempt.asked, getUserByLogin_asked admitted present (.inl rfl), mem_singleton] at asked
      exact named (congrArg Prod.fst asked)
  · rintro safe user securityLevel ⟨duress, given⟩ level above
    obtain ⟨admitted, present⟩ := getUserByLogin_ok level above given
    obtain ⟨accepts, key⟩ := (getUserByLogin_given_iff admitted present).1 ⟨duress, given⟩
    obtain ⟨third, second⟩ := validatePresent_ok present
    have password : securityLevel ≠ .SecurityLevel_1 → aPassword ≠ "" := by
      intro other
      cases securityLevel with
      | SecurityLevel_0 => exact absurd rfl above
      | SecurityLevel_1 => exact absurd rfl other
      | SecurityLevel_2 => exact second rfl
      | SecurityLevel_3 => exact (third rfl).2
    refine ⟨admitted.active, admitted.ordinary, fun keyed => ?_, fun asks => ?_,
      fun _ _ other => nomatch other⟩
    · obtain ⟨dallasKey, first, same | ⟨dallas, swipe⟩⟩ := (validateKey_ok_iff keyed fun level =>
        ⟨(third level).1, searchUser_name (third level).1 admitted.found⟩).1 key
      · exact same ▸ first
      · by_cases named : aLoginName = ""
        · exact searchUser_key (named ▸ admitted.found)
        · by_contra other
          refine safe ⟨user, securityLevel, admitted, keyed, password,
            accepts (.inr (.inr named)), .inl ⟨named, dallas, swipe, dallasKey, first, ?_⟩⟩
          exact fun same => other (same ▸ first)
    · have asks : PasswordRequired securityLevel aLoginName := asks
      have same : user.loginName = aLoginName := by
        by_cases named : aLoginName = ""
        · have level : securityLevel = .SecurityLevel_2 := by
            rcases asks with level | level | named'
            · exact level
            · exact absurd named (third level).1
            · exact absurd named named'
          by_contra other
          exact safe ⟨user, securityLevel, admitted, .inl level, password, accepts asks,
            .inr ⟨named, level, named ▸ other⟩⟩
        · exact searchUser_name named admitted.found
      rw [same]
      refine ⟨?_, accepts asks⟩
      rw [Attempt.asked, getUserByLogin_asked admitted present asks]
      exact mem_singleton.2 rfl

theorem validateRemoteUser_asked {user : User} {securityLevel : SecurityLevel} (log : RemoteLog)
    (admitted : Admitted m (m.searchRemoteUser aLoginName) user securityLevel) :
    (validateRemoteUser m board aLoginName aPassword log).1.asked = [(aLoginName, aPassword)] := by
  have name : user.loginName = aLoginName := by simpa using List.find?_some admitted.found
  unfold validateRemoteUser tryRemoteUser
  rw [if_neg (name ▸ admitted.ordinary), admitted.found]
  dsimp only
  rw [admitted.level]
  cases securityLevel with
  | SecurityLevel_0 => exact absurd rfl admitted.above
  | _ =>
    cases sbValidateUser board aLoginName aPassword with
    | error e => rfl
    | ok pswResult =>
      dsimp only
      split_ifs <;> rfl

theorem sound_remote_iff :
    Sound m board (.remote aLoginName aPassword) ↔
      ¬ (Attempt.remote aLoginName aPassword).Exposed m board := by
  constructor
  · rintro sound ⟨user, securityLevel, admitted, keyed, password⟩
    have trusted := sound user securityLevel
      ((validateRemoteUser_ok_iff _ admitted.level admitted.above).2 ⟨admitted, password⟩)
      admitted.level admitted.above
    cases trusted.key keyed
  · intro safe user securityLevel given level above
    obtain ⟨admitted, password⟩ := (validateRemoteUser_ok_iff _ level above).1 given
    have same : user.loginName = aLoginName := by simpa using List.find?_some admitted.found
    refine ⟨admitted.active, admitted.ordinary, fun keyed => ?_, fun _ => ?_, ?_⟩
    · exact absurd ⟨user, securityLevel, admitted, keyed, password⟩ safe
    · rw [same]
      refine ⟨?_, 1, password⟩
      rw [Attempt.asked, validateRemoteUser_asked _ admitted]
      exact mem_singleton.2 rfl
    · intro _ _ same
      cases same
      exact password

/-- When every user given by an attempt has been checked, and what a remote login checks of
every user at a level above 0. -/
theorem trusted_iff (m : UserManager) (board : Board) (attempt : Attempt) :
    (Sound m board attempt ↔ ¬ attempt.Exposed m board) ∧
      ∀ aLoginName aPassword user securityLevel, attempt = .remote aLoginName aPassword →
        attempt.Returns m board user → m.getSecurityLevel user.uProfileId = some securityLevel →
        securityLevel ≠ .SecurityLevel_0 →
        user.active = true ∧ ¬ user.Special ∧
          (user.loginName, aPassword) ∈ attempt.asked m board ∧
          sbValidateUser board user.loginName aPassword = .ok 1 := by
  constructor
  · cases attempt with
    | login aLoginName aPassword aDallasKeys => exact sound_login_iff
    | remote aLoginName aPassword => exact sound_remote_iff
  · rintro aLoginName aPassword user securityLevel rfl given level above
    obtain ⟨admitted, password⟩ := (validateRemoteUser_ok_iff _ level above).1 given
    have same : user.loginName = aLoginName := by simpa using List.find?_some admitted.found
    refine ⟨admitted.active, admitted.ordinary, ?_, same ▸ password⟩
    rw [Attempt.asked, validateRemoteUser_asked _ admitted, same]
    exact mem_singleton.2 rfl

end soundness

/-- A user at level 2 with a key, and a board that takes one password. -/
def ann (loginDevType : LoginDevType) : UserManager where
  myUsers := [⟨7, "1234", "Ann", "K1", true, 2, .PERSONALIDNUMBER⟩]
  myProfiles := [⟨2, .SecurityLevel_2⟩]
  loginDevType := loginDevType

def annBoard : Board := fun aPersonalId aPassword =>
  if aPersonalId = "1234" ∧ aPassword = "5678" then .SBOX_SUCCESS_CMD 0 else .SBOX_FAILURE_CMD 3

/-- With no login device set, any key will do. -/
theorem not_sound_otherKey : ¬ Sound (ann .NONE) annBoard (.login "1234" "5678" ["K2"]) := by
  intro sound
  have given : ∃ duress, (getUserByLogin (ann .NONE) annBoard "1234" "5678" ["K2"]).result =
      .ok (⟨7, "1234", "Ann", "K1", true, 2, .PERSONALIDNUMBER⟩, duress) := ⟨false, by decide⟩
  have trusted := sound _ .SecurityLevel_2 given (by decide) (by decide)
  exact absurd (trusted.key (by decide)) (by decide)

end CimArm.Login
