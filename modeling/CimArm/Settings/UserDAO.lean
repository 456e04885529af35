import CimArm.Dao.Fields
import CimArm.Settings.Login
import CimArm.Settings.SafeBoxUsers

/-!
# Storing users

A user is checked, then the safe board is called, and the row of the user is written when
no call raises.  A PIN takes an account under the login name and a key another one under
`D` and the login name; which of them a user needs depends on the level of the profile and
on the login method.  An edit makes the calls that go from what the stored row needs to what
the object needs, and changes the password and the key.

* `pin_follow`, `dallas_follow`: what an edit does to the two accounts of the user.
* `performAll_owner`: a store touches no other account.
-/

namespace CimArm.UserDAO

open List Function

open Login (SecurityLevel LoginMethod LoginDevType)
open SafeBoxUsers

/-! ## Users and profiles -/

inductive UserException : Type
  | REFERENCE_NOT_FOUND_EX
  | DAO_USER_NAME_NULLED_EX
  | DAO_SURNAME_NULLED_EX
  | DAO_LOGIN_NAME_NULLED_EX
  | DAO_INVALID_PASSWORD_EX
  | DAO_INVALID_DURESS_PASSWORD_EX
  | DAO_INEXISTENT_PROFILE_EX
  | DALLAS_NOT_AVAILABLE_EX
  | DALLAS_KEY_REQUIRED_EX
  | SWIPE_CARD_NOT_AVAILABLE_EX
  | SWIPE_CARD_KEY_REQUIRED_EX
  | DALLAS_OR_SWIPE_CARD_KEY_REQUIRED_EX
  | PIN_REQUIRED_EX
  | DURESS_PIN_REQUIRED_EX
  | DAO_DUPLICATED_LOGIN_NAME_EX
  | DAO_DUPLICATED_DALLAS_KEY_EX
  | SAFE_BOX_EX (e : SafeBoxException)
  deriving DecidableEq

/-- What the fields of a loaded user hold for a password, which is not stored. -/
def FICTICIOUS_PASSWORD : String := "12344321"

/-- A user object; a new one has 0 for its id. -/
structure User : Type where
  userId : Int
  uName : String
  uSurname : String
  loginName : String
  password : String
  duressPassword : String
  realPassword : String
  uProfileId : Int
  loginMethod : LoginMethod
  key : String
  deleted : Bool

/-- The login name of the account of a key. -/
def getDallasKeyLoginName (aLoginName : String) : String := "D" ++ aLoginName

/-- A row of the table of users. -/
structure Row : Type where
  userId : Int
  loginName : String
  profileId : Int
  loginMethod : LoginMethod
  key : String
  deleted : Bool
  deriving DecidableEq

structure Profile : Type where
  profileId : Int
  securityLevel : SecurityLevel
  deleted : Bool

/-- The profiles, whose ids are read from a short field, and the general settings. -/
structure Settings : Type where
  profiles : List Profile
  pinLenght : Nat
  loginDevType : LoginDevType
  ids_short : ∀ profile ∈ profiles, toShort profile.profileId = profile.profileId

def Settings.getProfile (settings : Settings) (aProfileId : Int) : Except UserException Profile :=
  match settings.profiles.find? (·.profileId = aProfileId) with
  | some profile => .ok profile
  | none => .error .REFERENCE_NOT_FOUND_EX

/-- Which accounts a user needs. -/
structure Requirement : Type where
  pin : Bool
  dallas : Bool
  deriving DecidableEq

def requirement (aSecurityLevel : SecurityLevel) (aLoginMethod : LoginMethod) : Requirement where
  pin := aSecurityLevel = .SecurityLevel_2 || aSecurityLevel = .SecurityLevel_3 ||
    aLoginMethod = .PERSONALIDNUMBER
  dallas := aSecurityLevel = .SecurityLevel_2 || aSecurityLevel = .SecurityLevel_3 ||
    aLoginMethod = .DALLASKEY || aLoginMethod = .SWIPE_CARD_READER

/-- `isPinRequired` and `isDallasKeyRequired`. -/
def Settings.required (settings : Settings) (aProfileId : Int) (aLoginMethod : LoginMethod) :
    Except UserException Requirement := do
  let profile ← settings.getProfile aProfileId
  return requirement profile.securityLevel aLoginMethod

variable {settings : Settings} {anObject : User} {account : Option Account} {needed : Bool}
  {password : String} {calls : List Call} {old new : Requirement} {lastPassword : String}

theorem Settings.getProfile_short {aProfileId : Int} {profile : Profile}
    (found : settings.getProfile aProfileId = .ok profile) : toShort aProfileId = aProfileId := by
  unfold getProfile at found
  split at found
  · rename_i hit
    obtain rfl := Except.ok.inj found
    have same := List.find?_some hit
    rw [← of_decide_eq_true same]
    exact settings.ids_short _ (List.mem_of_find?_eq_some hit)
  · cases found

/-! ## Checks -/

/-- A key that is missing at level 2 or 3, by the login device. -/
def keyMissing : LoginDevType → UserException
  | .DALLAS_KEY => .DALLAS_KEY_REQUIRED_EX
  | .SWIPE_CARD_READER => .SWIPE_CARD_KEY_REQUIRED_EX
  | _ => .DALLAS_OR_SWIPE_CARD_KEY_REQUIRED_EX

def validateFields (settings : Settings) (anObject : User) : Except UserException Unit := do
  if anObject.uName.length = 0 then throw .DAO_USER_NAME_NULLED_EX
  if anObject.uSurname.length = 0 then throw .DAO_SURNAME_NULLED_EX
  if anObject.loginName.length = 0 then throw .DAO_LOGIN_NAME_NULLED_EX
  let required ← settings.required anObject.uProfileId anObject.loginMethod
  if required.pin && anObject.password.length < settings.pinLenght then
    throw .DAO_INVALID_PASSWORD_EX
  if required.pin && anObject.duressPassword.length < settings.pinLenght then
    throw .DAO_INVALID_DURESS_PASSWORD_EX
  let profile ← settings.getProfile anObject.uProfileId
  if profile.deleted then throw .DAO_INEXISTENT_PROFILE_EX
  if anObject.loginMethod = .DALLASKEY ∧ settings.loginDevType ≠ .DALLAS_KEY then
    throw .DALLAS_NOT_AVAILABLE_EX
  if anObject.loginMethod = .DALLASKEY ∧ anObject.key.length = 0 then
    throw .DALLAS_KEY_REQUIRED_EX
  if anObject.loginMethod = .SWIPE_CARD_READER ∧ settings.loginDevType ≠ .SWIPE_CARD_READER then
    throw .SWIPE_CARD_NOT_AVAILABLE_EX
  if anObject.loginMethod = .SWIPE_CARD_READER ∧ anObject.key.length = 0 then
    throw .SWIPE_CARD_KEY_REQUIRED_EX
  let level := profile.securityLevel
  if (level = .SecurityLevel_2 ∨ level = .SecurityLevel_3) ∧ anObject.key.length = 0 then
    throw (keyMissing settings.loginDevType)
  if level = .SecurityLevel_3 ∧ anObject.password.length = 0 then throw .PIN_REQUIRED_EX
  if level = .SecurityLevel_3 ∧ anObject.duressPassword.length = 0 then
    throw .DURESS_PIN_REQUIRED_EX
  if level = .SecurityLevel_1 ∧ anObject.loginMethod = .PERSONALIDNUMBER ∧
      anObject.password.length = 0 then
    throw .PIN_REQUIRED_EX
  if level = .SecurityLevel_1 ∧ anObject.loginMethod = .PERSONALIDNUMBER ∧
      anObject.duressPassword.length = 0 then
    throw .DURESS_PIN_REQUIRED_EX

/-- Another row that is not deleted has a field in common. -/
def duplicated (users : List Row) (anObject : User) (field : Row → String) (value : String) :
    Bool :=
  users.any fun row => row.userId ≠ toShort anObject.userId && field row = value && !row.deleted

/-- What is looked at before the board is called. -/
def check (settings : Settings) (users : List Row) (anObject : User) :
    Except UserException Unit := do
  validateFields settings anObject
  if duplicated users anObject (·.loginName) anObject.loginName then
    throw .DAO_DUPLICATED_LOGIN_NAME_EX
  if anObject.key.length > 0 ∧ duplicated users anObject (·.key) anObject.key then
    throw .DAO_DUPLICATED_DALLAS_KEY_EX

/-! ## The calls -/

/-- Deletes an account that may be missing. -/
def deleteUser (aPersonalId : String) : Call :=
  ⟨.sbDeleteUser aPersonalId, some .CIM_USR_NOT_EXISTS_EX⟩

/-- Adds an account that may be there. -/
def ensureUser (aPersonalId aPassword aDuressPassword : String) : Call :=
  ⟨.sbAddUser aPersonalId aPassword aDuressPassword, some .CIM_USER_EXISTS_EX⟩

def addUser (aPersonalId aPassword aDuressPassword : String) : Call :=
  ⟨.sbAddUser aPersonalId aPassword aDuressPassword, none⟩

/-- The two calls of `sbChangePassword`; the second one has the new password already. -/
def sbChangePassword (aPersonalId anOldPassword aNewPassword aNewDuressPassword : String) :
    List Call :=
  [⟨.doChangePassword aPersonalId anOldPassword aNewPassword .password, none⟩,
    ⟨.doChangePassword aPersonalId aNewPassword aNewDuressPassword .duressPassword, none⟩]

def deletionCalls (required : Requirement) (anObject : User) : List Call :=
  (if required.pin then [deleteUser anObject.loginName] else []) ++
    (if required.dallas then [deleteUser (getDallasKeyLoginName anObject.loginName)] else [])

/-- The password of an edit, for a user who is not the one logged in, when the account has
not just been added. -/
def replaceCalls (old new : Requirement) (anObject : User) : List Call :=
  if !(!old.pin && new.pin) then
    if new.pin then
      [deleteUser anObject.loginName,
        addUser anObject.loginName anObject.password anObject.duressPassword]
    else []
  else []

def passwordCalls (logedUserPersonalId : String) (old new : Requirement) (anObject : User) :
    List Call :=
  if anObject.password ≠ FICTICIOUS_PASSWORD then
    if anObject.loginName ≠ logedUserPersonalId then replaceCalls old new anObject
    else
      sbChangePassword anObject.loginName anObject.realPassword anObject.password
        anObject.duressPassword
  else []

def keyCalls (old new : Requirement) (oldKey : String) (anObject : User) : List Call :=
  if new.dallas && !(!old.dallas && new.dallas) && anObject.key ≠ oldKey then
    sbChangePassword (getDallasKeyLoginName anObject.loginName) oldKey anObject.key
      anObject.duressPassword
  else []

def editCalls (logedUserPersonalId : String) (old new : Requirement) (oldKey : String)
    (anObject : User) : List Call :=
  (if old.pin && !new.pin then [deleteUser anObject.loginName] else []) ++
  (if old.dallas && !new.dallas then
    [deleteUser (getDallasKeyLoginName anObject.loginName)] else []) ++
  (if !old.pin && new.pin then
    [ensureUser anObject.loginName anObject.password anObject.duressPassword] else []) ++
  (if !old.dallas && new.dallas then
    [ensureUser (getDallasKeyLoginName anObject.loginName) anObject.key
      anObject.duressPassword] else []) ++
  passwordCalls logedUserPersonalId old new anObject ++
  keyCalls old new oldKey anObject

def newCalls (required : Requirement) (anObject : User) : List Call :=
  (if required.pin then
    [addUser anObject.loginName anObject.password anObject.duressPassword] else []) ++
  (if required.dallas then
    [addUser (getDallasKeyLoginName anObject.loginName) anObject.key anObject.duressPassword]
  else [])

/-! ## The table -/

/-- The table of users, its last id, the accounts of the board, and the last password that
was set for each user, which is nowhere in the table. -/
structure State : Type where
  users : List Row
  lastUserId : Nat
  board : Accounts
  lastPassword : Int → String

/-- A call of `store`: the object, who is logged in at the board, and how the calls of the
board end. -/
structure Store : Type where
  anObject : User
  logedUserPersonalId : String
  fates : Nat → Fate

def State.findById (s : State) (anId : Int) : Option Row := s.users.find? (·.userId = anId)

/-- The row that is saved for an object. -/
def User.row (anObject : User) (userId : Int) : Row where
  userId := userId
  loginName := anObject.loginName
  profileId := toShort anObject.uProfileId
  loginMethod := anObject.loginMethod
  key := anObject.key
  deleted := anObject.deleted

/-- The calls for an object, with the row of its id. -/
def plan (settings : Settings) (logedUserPersonalId : String) (row : Option Row)
    (anObject : User) : Except UserException (List Call) := do
  let required ← settings.required anObject.uProfileId anObject.loginMethod
  if anObject.deleted then return deletionCalls required anObject
  match row with
  | some row =>
    let oldRequired ← settings.required row.profileId row.loginMethod
    return editCalls logedUserPersonalId oldRequired required row.key anObject
  | none => return newCalls required anObject

/-- What is read without a row; the objects that are stored have theirs. -/
def Row.blank : Row := ⟨0, "", 0, .UNDEFINED, "", false⟩

/-- The row that `findById` stands on when the object is not a new user. -/
def State.rowOf (s : State) (anObject : User) : Option Row :=
  if anObject.userId = 0 ∧ !anObject.deleted then none
  else some ((s.findById anObject.userId).getD Row.blank)

/-- The table and the last password once the row is saved. -/
def State.save (s : State) (board : Accounts) (anObject : User) : State :=
  match s.rowOf anObject with
  | some row =>
    { s with
      users := s.users.map fun other =>
        if other.userId = row.userId then anObject.row row.userId else other
      board := board
      lastPassword :=
        if !anObject.deleted && anObject.password ≠ FICTICIOUS_PASSWORD then
          Function.update s.lastPassword row.userId anObject.password
        else s.lastPassword }
  | none =>
    { users := s.users ++ [anObject.row (toShort (s.lastUserId + 1))]
      lastUserId := s.lastUserId + 1
      board := board
      lastPassword :=
        Function.update s.lastPassword (toShort (s.lastUserId + 1)) anObject.password }

/-- The profile that the row had is looked for after the calls. -/
def lastProfile (settings : Settings) : Option Row → Except UserException Unit
  | some row => do let _ ← settings.getProfile row.profileId
  | none => .ok ()

/-- The exception that is raised, if any, and the state after it. -/
def store (settings : Settings) (op : Store) (s : State) : Option UserException × State :=
  match check settings s.users op.anObject with
  | .error e => (some e, s)
  | .ok () =>
    match plan settings op.logedUserPersonalId (s.rowOf op.anObject) op.anObject with
    | .error e => (some e, s)
    | .ok calls =>
      match performAll calls op.fates s.board with
      | (some e, board) => (some (.SAFE_BOX_EX e), { s with board := board })
      | (none, board) =>
        match lastProfile settings (s.rowOf op.anObject) with
        | .error e => (some e, { s with board := board })
        | .ok () => (none, s.save board op.anObject)

/-! ## What the checks say -/

theorem validateFields_profile (valid : validateFields settings anObject = .ok ()) :
    ∃ profile, settings.getProfile anObject.uProfileId = .ok profile := by
  cases found : settings.getProfile anObject.uProfileId with
  | ok profile => exact ⟨profile, rfl⟩
  | error e =>
    have raised : settings.required anObject.uProfileId anObject.loginMethod = .error e := by
      rw [Settings.required, found]
      rfl
    unfold validateFields at valid
    rw [raised] at valid
    by_cases name : anObject.uName.length = 0
    · rw [if_pos name] at valid
      cases valid
    rw [if_neg name] at valid
    by_cases surname : anObject.uSurname.length = 0
    · rw [if_pos surname] at valid
      cases valid
    rw [if_neg surname] at valid
    by_cases loginName : anObject.loginName.length = 0
    · rw [if_pos loginName] at valid
      cases valid
    · rw [if_neg loginName] at valid
      cases valid

theorem check_ok {users : List Row} (valid : check settings users anObject = .ok ()) :
    validateFields settings anObject = .ok () ∧
      duplicated users anObject (·.loginName) anObject.loginName = false ∧
      (anObject.key.length > 0 → duplicated users anObject (·.key) anObject.key = false) := by
  unfold check at valid
  cases fields : validateFields settings anObject with
  | error e =>
    rw [fields] at valid
    cases valid
  | ok done =>
    rw [fields] at valid
    by_cases login : duplicated users anObject (·.loginName) anObject.loginName = true
    · have raised : Except.error UserException.DAO_DUPLICATED_LOGIN_NAME_EX =
          (Except.ok () : Except UserException Unit) := by
        rw [← valid]
        exact (if_pos login).symm
      cases raised
    by_cases key : anObject.key.length > 0 ∧ duplicated users anObject (·.key) anObject.key = true
    · have raised : Except.error UserException.DAO_DUPLICATED_DALLAS_KEY_EX =
          (Except.ok () : Except UserException Unit) := by
        rw [← valid]
        exact ((if_neg login).trans (if_pos key)).symm
      cases raised
    · refine ⟨rfl, Bool.eq_false_of_not_eq_true login, fun some_key => ?_⟩
      exact Bool.eq_false_of_not_eq_true fun double => key ⟨some_key, double⟩

theorem duplicated_eq_false {users : List Row} {field : Row → String} {value : String}
    (none : duplicated users anObject field value = false) {row : Row} (mem : row ∈ users)
    (live : row.deleted = false) (other : row.userId ≠ toShort anObject.userId) :
    field row ≠ value := by
  intro same
  have all := any_eq_false.1 none row mem
  simp [other, same, live] at all

/-! ## What the calls do to the accounts of the user -/

/-- The account of a user, as far as it is told by the password. -/
def Holds (account : Option Account) (needed : Bool) (password : String) : Prop :=
  account.map (·.password) = if needed then some (encryptPassword password) else none

theorem Holds.none (holds : Holds account needed password) (free : needed = false) :
    account = .none := by
  unfold Holds at holds
  rw [free] at holds
  exact Option.map_eq_none_iff.1 holds

theorem Holds.some (holds : Holds account needed password) (need : needed = true) :
    ∃ found, account = .some found ∧ found.password = encryptPassword password := by
  unfold Holds at holds
  rw [need] at holds
  exact Option.map_eq_some_iff.1 holds

theorem dallasKeyLoginName_ne (login : String) : getDallasKeyLoginName login ≠ login := by
  intro same
  have lengths := congrArg String.length same
  rw [getDallasKeyLoginName, String.length_append] at lengths
  have one : "D".length = 1 := rfl
  omega

theorem dallasKeyLoginName_inj {login login' : String}
    (same : getDallasKeyLoginName login = getDallasKeyLoginName login') : login = login' :=
  (String.append_right_inj _).1 same

/-- Calls that are all about one id. -/
def Only (personalId : String) (calls : List Call) : Prop :=
  ∀ call ∈ calls, call.command.personalId = personalId

theorem Only.callsAbout {personalId : String} (only : Only personalId calls) (id : String) :
    SafeBoxUsers.callsAbout calls id = if personalId = id then calls else [] := by
  split_ifs with same
  · exact callsAbout_self fun call hcall => (only call hcall).trans same
  · exact callsAbout_other fun call hcall here => same ((only call hcall).symm.trans here)

theorem Only.ite {personalId : String} {calls' : List Call} {c : Prop} [Decidable c]
    (yes : Only personalId calls) (no : Only personalId calls') :
    Only personalId (if c then calls else calls') := by
  split_ifs
  · exact yes
  · exact no

theorem Only.nil (personalId : String) : Only personalId [] := fun _ hcall => nomatch hcall

theorem Only.singleton (call : Call) : Only call.command.personalId [call] := by
  intro other hother
  rw [mem_singleton.1 hother]

theorem Only.change (aPersonalId old new duress : String) :
    Only aPersonalId (sbChangePassword aPersonalId old new duress) := by
  intro call hcall
  rcases mem_cons.1 hcall with rfl | hcall
  · rfl
  · rw [mem_singleton.1 hcall]
    rfl

theorem Only.passwordCalls (loged : String) (old new : Requirement) (anObject : User) :
    Only anObject.loginName (passwordCalls loged old new anObject) := by
  have both : Only anObject.loginName [deleteUser anObject.loginName,
      addUser anObject.loginName anObject.password anObject.duressPassword] := by
    intro call hcall
    rcases mem_cons.1 hcall with rfl | hcall
    · rfl
    · rw [mem_singleton.1 hcall]
      rfl
  refine .ite (.ite ?_ (.change _ _ _ _)) (.nil _)
  exact .ite (.ite both (.nil _)) (.nil _)

theorem Only.keyCalls (old new : Requirement) (oldKey : String) (anObject : User) :
    Only (getDallasKeyLoginName anObject.loginName) (keyCalls old new oldKey anObject) :=
  .ite (.change _ _ _ _) (.nil _)

/-- What an edit does about the PIN. -/
def pinCalls (logedUserPersonalId : String) (old new : Requirement) (anObject : User) :
    List Call :=
  (if old.pin && !new.pin then [deleteUser anObject.loginName] else []) ++
  (if !old.pin && new.pin then
    [ensureUser anObject.loginName anObject.password anObject.duressPassword] else []) ++
  passwordCalls logedUserPersonalId old new anObject

/-- What an edit does about the key. -/
def dallasCalls (old new : Requirement) (oldKey : String) (anObject : User) : List Call :=
  (if old.dallas && !new.dallas then
    [deleteUser (getDallasKeyLoginName anObject.loginName)] else []) ++
  (if !old.dallas && new.dallas then
    [ensureUser (getDallasKeyLoginName anObject.loginName) anObject.key
      anObject.duressPassword] else []) ++
  keyCalls old new oldKey anObject

theorem callsAbout_editCalls (loged : String) (old new : Requirement) (oldKey : String)
    (anObject : User) (id : String) :
    callsAbout (editCalls loged old new oldKey anObject) id =
      if anObject.loginName = id then pinCalls loged old new anObject
      else if getDallasKeyLoginName anObject.loginName = id then
        dallasCalls old new oldKey anObject
      else [] := by
  unfold editCalls pinCalls dallasCalls
  repeat rw [callsAbout_append]
  rw [(Only.passwordCalls loged old new anObject).callsAbout,
    (Only.keyCalls old new oldKey anObject).callsAbout,
    (Only.ite (.singleton (deleteUser _)) (.nil _)).callsAbout,
    (Only.ite (.singleton (deleteUser _)) (.nil _)).callsAbout,
    (Only.ite (.singleton (ensureUser ..)) (.nil _)).callsAbout,
    (Only.ite (.singleton (ensureUser ..)) (.nil _)).callsAbout]
  by_cases login : anObject.loginName = id
  · subst login
    simp [deleteUser, ensureUser, Command.personalId, dallasKeyLoginName_ne]
  · by_cases dallas : getDallasKeyLoginName anObject.loginName = id
    · subst dallas
      simp [deleteUser, ensureUser, Command.personalId, login]
    · simp [deleteUser, ensureUser, Command.personalId, login, dallas]

theorem followAll_sbChangePassword {found : Account} {anOldPassword : String}
    (right : found.password = encryptPassword anOldPassword)
    (aPersonalId aNewPassword aNewDuressPassword : String) :
    followAll (sbChangePassword aPersonalId anOldPassword aNewPassword aNewDuressPassword)
      (some found) =
      some (some ⟨encryptPassword aNewPassword, encryptPassword aNewDuressPassword⟩) := by
  simp [sbChangePassword, followAll, Call.follow, Command.answer, right]

theorem followAll_append (calls calls' : List Call) (account : Option Account) :
    followAll (calls ++ calls') account = (followAll calls account).bind (followAll calls') := by
  induction calls generalizing account with
  | nil => rfl
  | cons call calls ih =>
    rw [cons_append, followAll, followAll]
    cases call.follow account with
    | none => rfl
    | some account => exact ih account

/-- The password after an edit. -/
def User.newPassword (anObject : User) (lastPassword : String) : String :=
  if anObject.password ≠ FICTICIOUS_PASSWORD then anObject.password else lastPassword

/-- The password of the account of a PIN once it has been added or deleted. -/
def User.heldPassword (anObject : User) (old : Requirement) (lastPassword : String) : String :=
  if old.pin then lastPassword else anObject.password

/-- A PIN that was not needed before is given a password, and the user who is logged in has
an account and knows its password. -/
structure PinGiven (logedUserPersonalId : String) (old new : Requirement) (anObject : User)
    (lastPassword : String) : Prop where
  fresh : old.pin = false → new.pin = true → anObject.password ≠ FICTICIOUS_PASSWORD
  own : anObject.loginName = logedUserPersonalId → anObject.password ≠ FICTICIOUS_PASSWORD →
    new.pin = true ∧ encryptPassword (anObject.heldPassword old lastPassword) =
      encryptPassword anObject.realPassword

theorem held_follow (before : Holds account old.pin lastPassword) :
    ∃ held, followAll ((if old.pin && !new.pin then [deleteUser anObject.loginName] else []) ++
        (if !old.pin && new.pin then
          [ensureUser anObject.loginName anObject.password anObject.duressPassword] else []))
        account = some held ∧
      Holds held new.pin (anObject.heldPassword old lastPassword) := by
  unfold User.heldPassword
  cases oldPin : old.pin with
  | false =>
    obtain rfl := before.none oldPin
    cases newPin : new.pin with
    | false => exact ⟨none, rfl, rfl⟩
    | true =>
      exact ⟨some ⟨encryptPassword anObject.password, encryptPassword anObject.duressPassword⟩,
        rfl, rfl⟩
  | true =>
    obtain ⟨found, rfl, right⟩ := before.some oldPin
    cases newPin : new.pin with
    | false => exact ⟨none, rfl, rfl⟩
    | true => exact ⟨some found, rfl, congrArg some right⟩

theorem password_follow {loged : String} {held : Option Account}
    (before : Holds held new.pin (anObject.heldPassword old lastPassword))
    (given : PinGiven loged old new anObject lastPassword) :
    ∃ after, followAll (passwordCalls loged old new anObject) held = some after ∧
      Holds after new.pin (anObject.newPassword lastPassword) := by
  unfold passwordCalls
  by_cases set : anObject.password ≠ FICTICIOUS_PASSWORD
  · rw [if_pos set, User.newPassword, if_pos set]
    by_cases other : anObject.loginName ≠ loged
    · rw [if_pos other]
      unfold replaceCalls
      cases newPin : new.pin with
      | false =>
        obtain rfl := before.none newPin
        cases old.pin with
        | false => exact ⟨none, rfl, rfl⟩
        | true => exact ⟨none, rfl, rfl⟩
      | true =>
        obtain ⟨found, rfl, right⟩ := before.some newPin
        cases oldPin : old.pin with
        | false =>
          rw [User.heldPassword, oldPin] at right
          exact ⟨some found, rfl, congrArg some right⟩
        | true =>
          exact ⟨some ⟨encryptPassword anObject.password,
            encryptPassword anObject.duressPassword⟩, rfl, rfl⟩
    · rw [if_neg other]
      obtain ⟨newPin, own⟩ := given.own (not_not.1 other) set
      obtain ⟨found, rfl, right⟩ := before.some newPin
      refine ⟨_, followAll_sbChangePassword (right.trans own) _ _ _, ?_⟩
      rw [newPin]
      rfl
  · rw [if_neg set, User.newPassword, if_neg set]
    refine ⟨held, rfl, ?_⟩
    cases newPin : new.pin with
    | false =>
      obtain rfl := before.none newPin
      rfl
    | true =>
      obtain ⟨found, rfl, right⟩ := before.some newPin
      cases oldPin : old.pin with
      | false => exact absurd (given.fresh oldPin newPin) set
      | true =>
        rw [User.heldPassword, oldPin] at right
        exact congrArg some right

theorem pin_follow {loged : String} (before : Holds account old.pin lastPassword)
    (given : PinGiven loged old new anObject lastPassword) :
    ∃ after, followAll (pinCalls loged old new anObject) account = some after ∧
      Holds after new.pin (anObject.newPassword lastPassword) := by
  obtain ⟨held, follow, holds⟩ := held_follow before
  obtain ⟨after, rest, done⟩ := password_follow holds given
  refine ⟨after, ?_, done⟩
  unfold pinCalls
  rw [followAll_append, follow]
  exact rest

theorem dallas_follow {oldKey : String} (before : Holds account old.dallas oldKey) :
    ∃ after, followAll (dallasCalls old new oldKey anObject) account = some after ∧
      Holds after new.dallas anObject.key := by
  unfold dallasCalls keyCalls
  rw [followAll_append, followAll_append]
  cases oldDallas : old.dallas with
  | false =>
    obtain rfl := before.none oldDallas
    cases newDallas : new.dallas with
    | false => exact ⟨none, rfl, rfl⟩
    | true => exact ⟨some ⟨encryptPassword anObject.key, encryptPassword anObject.duressPassword⟩,
        rfl, rfl⟩
  | true =>
    obtain ⟨found, rfl, right⟩ := before.some oldDallas
    cases newDallas : new.dallas with
    | false => exact ⟨none, rfl, rfl⟩
    | true =>
      by_cases same : anObject.key = oldKey
      · refine ⟨some found, ?_, ?_⟩
        · simp [same, followAll]
        · rw [Holds, Option.map_some, right, if_pos rfl, same]
      · refine ⟨some ⟨encryptPassword anObject.key, encryptPassword anObject.duressPassword⟩,
          ?_, rfl⟩
        have change := followAll_sbChangePassword right
          (getDallasKeyLoginName anObject.loginName) anObject.key anObject.duressPassword
        simpa [same, followAll] using change

theorem Only.callsAbout_append {anObject : User} {pinCalls dallasCalls : List Call}
    (pin : Only anObject.loginName pinCalls)
    (dallas : Only (getDallasKeyLoginName anObject.loginName) dallasCalls) (id : String) :
    SafeBoxUsers.callsAbout (pinCalls ++ dallasCalls) id =
      if anObject.loginName = id then pinCalls
      else if getDallasKeyLoginName anObject.loginName = id then dallasCalls else [] := by
  rw [SafeBoxUsers.callsAbout_append, pin.callsAbout, dallas.callsAbout]
  by_cases login : anObject.loginName = id
  · subst login
    simp [dallasKeyLoginName_ne]
  · simp [login]

theorem deletion_follow (before : Holds account needed password) (id : String) :
    followAll (if needed then [deleteUser id] else []) account = some none := by
  cases need : needed with
  | false =>
    obtain rfl := before.none need
    rfl
  | true =>
    obtain ⟨found, rfl, -⟩ := before.some need
    rfl

theorem new_follow (needed : Bool) (id password duressPassword : String) :
    ∃ after, followAll (if needed then [addUser id password duressPassword] else []) none =
      some after ∧ Holds after needed password := by
  cases needed with
  | false => exact ⟨none, rfl, rfl⟩
  | true => exact ⟨some ⟨encryptPassword password, encryptPassword duressPassword⟩, rfl, rfl⟩

/-- The accounts once the two of a user are as given. -/
def owner (board : Accounts) (loginName : String) (pin dallas : Option Account) : Accounts :=
  Function.update (Function.update board loginName pin) (getDallasKeyLoginName loginName) dallas

theorem owner_login (board : Accounts) (loginName : String) (pin dallas : Option Account) :
    owner board loginName pin dallas loginName = pin := by
  rw [owner, update_of_ne (dallasKeyLoginName_ne loginName).symm, update_self]

theorem owner_dallas (board : Accounts) (loginName : String) (pin dallas : Option Account) :
    owner board loginName pin dallas (getDallasKeyLoginName loginName) = dallas :=
  update_self ..

theorem owner_other {board : Accounts} {loginName id : String} (pin dallas : Option Account)
    (login : id ≠ loginName) (key : id ≠ getDallasKeyLoginName loginName) :
    owner board loginName pin dallas id = board id := by
  rw [owner, update_of_ne key, update_of_ne login]

theorem performAll_owner {fates : Nat → Fate} {board : Accounts} {loginName : String}
    {pinCalls dallasCalls : List Call} {pin dallas : Option Account}
    (answers : ∀ n < calls.length, fates n = .answers)
    (about : ∀ id,
      callsAbout calls id = if loginName =
        id then pinCalls else if getDallasKeyLoginName loginName = id then dallasCalls else [])
    (pinFollow : followAll pinCalls (board loginName) = some pin)
    (dallasFollow : followAll dallasCalls (board (getDallasKeyLoginName loginName)) = some dallas) :
    performAll calls fates board = (none, owner board loginName pin dallas) := by
  apply performAll_answers answers
  intro id
  rw [about]
  by_cases login : loginName = id
  · rw [if_pos login, ← login, owner_login]
    exact pinFollow
  · rw [if_neg login]
    by_cases key : getDallasKeyLoginName loginName = id
    · rw [if_pos key, ← key, owner_dallas]
      exact dallasFollow
    · rw [if_neg key, owner_other pin dallas (Ne.symm login) (Ne.symm key)]
      rfl

end CimArm.UserDAO
