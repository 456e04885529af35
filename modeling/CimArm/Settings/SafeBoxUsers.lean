import Mathlib.Data.List.Basic
import Mathlib.Logic.Function.Basic
import Mathlib.Tactic.SplitIfs

/-!
# Accounts on the safe board

The board has accounts by personal id, each with a password and a duress password of eight
characters.  A call answers with an exception when the account is there already, is missing,
or has another password; and any call may fail with any exception, whether or not the board
has done it.  Some calls are made with an exception that is ignored.

* `performAll_answers`: when no call fails, calls for different ids do not meet, and it is
  enough to follow each account by itself.
-/

namespace CimArm.SafeBoxUsers

open List Function

inductive SafeBoxException : Type
  | CIM_COMMAND_TIMEOUT_EX
  | CIM_UNDEFINED_RESPONSE_EX
  | CIM_USR_NOT_EXISTS_EX
  | CIM_USER_EXISTS_EX
  | CIM_USR_BAD_PASSWORD_EX
  /-- One of the others that `throwError` raises for an error of the board. -/
  | CIM_ERROR (anErrorCode : UInt8)
  deriving DecidableEq

/-- What is sent of a password. -/
def encryptPassword (password : String) : List Char := password.toList.take 8

structure Account : Type where
  password : List Char
  duressPassword : List Char
  deriving DecidableEq

abbrev Accounts : Type := String → Option Account

inductive PasswordType : Type
  | password
  | duressPassword

/-- The commands of the board about accounts. -/
inductive Command : Type
  | sbAddUser (aPersonalId aPassword aDuressPassword : String)
  | sbDeleteUser (aPersonalId : String)
  | doChangePassword (aPersonalId anOldPassword aNewPassword : String) (aPasswordType : PasswordType)

def Command.personalId : Command → String
  | sbAddUser aPersonalId _ _ => aPersonalId
  | sbDeleteUser aPersonalId => aPersonalId
  | doChangePassword aPersonalId _ _ _ => aPersonalId

/-- What becomes of the account that a command is about. -/
def Command.answer : Command → Option Account → Except SafeBoxException (Option Account)
  | sbAddUser _ aPassword aDuressPassword, none =>
    .ok (some ⟨encryptPassword aPassword, encryptPassword aDuressPassword⟩)
  | sbAddUser .., some _ => .error .CIM_USER_EXISTS_EX
  | sbDeleteUser _, some _ => .ok none
  | sbDeleteUser _, none => .error .CIM_USR_NOT_EXISTS_EX
  | doChangePassword .., none => .error .CIM_USR_NOT_EXISTS_EX
  | doChangePassword _ anOldPassword aNewPassword aPasswordType, some account =>
    if account.password = encryptPassword anOldPassword then
      match aPasswordType with
      | .password => .ok (some { account with password := encryptPassword aNewPassword })
      | .duressPassword => .ok (some { account with duressPassword := encryptPassword aNewPassword })
    else .error .CIM_USR_BAD_PASSWORD_EX

/-- How a command ends: the board answers, or it fails without being done, or is done and
its answer lost. -/
inductive Fate : Type
  | answers
  | fails (e : SafeBoxException)
  | lost (e : SafeBoxException)

/-- A command in a `TRY` that ignores an exception, or in none. -/
structure Call : Type where
  command : Command
  ignored : Option SafeBoxException

namespace Call

/-- The exception that a call raises, if any, and the accounts after it. -/
def perform (self : Call) (fate : Fate) (accounts : Accounts) :
    Option SafeBoxException × Accounts :=
  let answer := self.command.answer (accounts self.command.personalId)
  let done := match answer with
    | .ok account => Function.update accounts self.command.personalId account
    | .error _ => accounts
  let raised := match fate, answer with
    | .answers, .ok _ => none
    | .answers, .error e => some e
    | .fails e, _ => some e
    | .lost e, _ => some e
  (if raised = self.ignored then none else raised,
    match fate with
    | .fails _ => accounts
    | _ => done)

/-- What becomes of the account of a call that is answered; `none` when it raises. -/
def follow (self : Call) (account : Option Account) : Option (Option Account) :=
  match self.command.answer account with
  | .ok account => some account
  | .error e => if some e = self.ignored then some account else none

def about (self : Call) (personalId : String) : Bool := self.command.personalId = personalId

theorem perform_answers {self : Call} {accounts : Accounts} {account : Option Account}
    (follows : self.follow (accounts self.command.personalId) = some account) :
    self.perform .answers accounts =
      (none, Function.update accounts self.command.personalId account) := by
  unfold follow at follows
  unfold perform
  cases answer : self.command.answer (accounts self.command.personalId) with
  | ok result =>
    rw [answer] at follows
    obtain rfl := Option.some.inj follows
    dsimp only
    rw [ite_self]
  | error e =>
    rw [answer] at follows
    dsimp only at follows ⊢
    split_ifs at follows with ignored
    obtain rfl := Option.some.inj follows
    rw [if_pos ignored, update_eq_self]

theorem perform_refused {self : Call} {accounts : Accounts}
    (refused : self.follow (accounts self.command.personalId) = none) :
    ∃ e, self.perform .answers accounts = (some e, accounts) := by
  unfold follow at refused
  unfold perform
  cases answer : self.command.answer (accounts self.command.personalId) with
  | ok result =>
    rw [answer] at refused
    cases refused
  | error e =>
    rw [answer] at refused
    dsimp only at refused ⊢
    split_ifs at refused with ignored
    exact ⟨e, by rw [if_neg ignored]⟩

theorem perform_fails (self : Call) {e : SafeBoxException} (other : self.ignored ≠ some e)
    (accounts : Accounts) : self.perform (.fails e) accounts = (some e, accounts) := by
  have stays : ¬ some e = self.ignored := fun ignored => other ignored.symm
  exact congrArg (·, accounts) (if_neg stays)

end Call

/-- The calls up to the first that raises. -/
def performAll : List Call → (Nat → Fate) → Accounts → Option SafeBoxException × Accounts
  | [], _, accounts => (none, accounts)
  | call :: calls, fates, accounts =>
    match call.perform (fates 0) accounts with
    | (some e, accounts) => (some e, accounts)
    | (none, accounts) => performAll calls (fun n => fates (n + 1)) accounts

/-- An account through calls about it. -/
def followAll : List Call → Option Account → Option (Option Account)
  | [], account => some account
  | call :: calls, account => (call.follow account).bind (followAll calls)

/-- The calls that are about an id. -/
def callsAbout (calls : List Call) (personalId : String) : List Call :=
  calls.filter fun call => call.about personalId

@[simp] theorem callsAbout_append (calls calls' : List Call) (personalId : String) :
    callsAbout (calls ++ calls') personalId =
      callsAbout calls personalId ++ callsAbout calls' personalId := filter_append ..

variable {calls : List Call} {fates : Nat → Fate}

theorem callsAbout_self {personalId : String}
    (all : ∀ call ∈ calls, call.command.personalId = personalId) :
    callsAbout calls personalId = calls :=
  filter_eq_self.2 fun call hcall => decide_eq_true (all call hcall)

theorem callsAbout_other {personalId : String}
    (none : ∀ call ∈ calls, call.command.personalId ≠ personalId) :
    callsAbout calls personalId = [] :=
  filter_eq_nil_iff.2 fun call hcall about => none call hcall (of_decide_eq_true about)

/-- When every call is answered and no account raises, each account goes its own way. -/
theorem performAll_answers {accounts after : Accounts}
    (answers : ∀ n < calls.length, fates n = .answers)
    (follows : ∀ personalId,
      followAll (callsAbout calls personalId) (accounts personalId) = some (after personalId)) :
    performAll calls fates accounts = (none, after) := by
  induction calls generalizing fates accounts with
  | nil =>
    have same : accounts = after := funext fun personalId => Option.some.inj (follows personalId)
    rw [performAll, same]
  | cons call calls ih =>
    have first := follows call.command.personalId
    have about : call.about call.command.personalId = true := decide_eq_true rfl
    rw [callsAbout, filter_cons, if_pos about, followAll] at first
    obtain ⟨account, follow, rest⟩ := Option.bind_eq_some_iff.1 first
    rw [performAll, answers 0 (Nat.succ_pos _), Call.perform_answers follow]
    refine ih (fun n below => answers (n + 1) (Nat.succ_lt_succ below)) fun personalId => ?_
    by_cases same : personalId = call.command.personalId
    · rw [same, update_self]
      exact rest
    · have other := follows personalId
      have apart : ¬ call.about personalId = true := fun about =>
        same (of_decide_eq_true about).symm
      rw [callsAbout, filter_cons, if_neg apart] at other
      rw [update_of_ne same]
      exact other

theorem performAll_refused {call : Call} {accounts : Accounts} (answers : fates 0 = .answers)
    (refused : call.follow (accounts call.command.personalId) = none) :
    ∃ e, performAll (call :: calls) fates accounts = (some e, accounts) := by
  obtain ⟨e, raised⟩ := Call.perform_refused refused
  refine ⟨e, ?_⟩
  rw [performAll, answers, raised]

theorem performAll_fails {e : SafeBoxException} (fails : fates 0 = .fails e)
    (some_call : calls ≠ []) (other : ∀ call, calls.head? = some call → call.ignored ≠ some e)
    (accounts : Accounts) : performAll calls fates accounts = (some e, accounts) := by
  cases calls with
  | nil => exact absurd rfl some_call
  | cons call calls => rw [performAll, fails, call.perform_fails (other call rfl)]

end CimArm.SafeBoxUsers
