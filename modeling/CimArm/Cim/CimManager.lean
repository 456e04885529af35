import CimArm.Cim.Deposit
import CimArm.Lib.Trace
import Mathlib.Data.List.Perm.Basic
import Mathlib.Data.List.Nodup

/-!
# Bills and the deposits they go to

`CimManager` has one deposit in progress, which lives in its deposit state, and a list of
extended drops that stay open next to it.  Starting either opens the acceptors of its cash and
ending it closes them; a bill goes to the first extended drop whose cash has the acceptor, and
otherwise to the current state.

Deposits are objects: they are numbered in the order they are made, and the manager refers to
them by number.

* `run_routes`: in every run that starts no deposit while one is in progress and no extended
  drop whose acceptors fail to open, bills go where they belong and every deposit is ended
  once.
-/

namespace CimArm

open List

/-- What an acceptor does when it is told to open: it starts, it stays as it was (its stacker
is full, or it is in error), or it raises because its bag is missing. -/
inductive Opening : Type
  | starts | stays | raises
  deriving DecidableEq

/-- A deposit passed to `DepositManager endDeposit`, and which acceptors were enabled then. -/
structure EndCall : Type where
  deposit : Nat
  enabled : AcceptorSettings → Bool

/-- A bill the acceptor has stacked. -/
structure StackedBill : Type where
  acceptor : AcceptorSettings
  currency : Option Currency
  amount : Int
  qty : Int

/-- The exceptions of the operations below. -/
inductive CimManagerExcept : Type
  | noUserLoggedIn | cannotOpenAcceptorWithoutBag
  deriving DecidableEq

structure CimManager : Type where
  /-- The deposits made so far, also those that are ended. -/
  deposits : List Deposit
  /-- Whether the current state is the deposit state. -/
  inDeposit : Bool
  /-- The deposit of the deposit state. -/
  deposit : Option Nat
  extendedDrops : List Nat
  enabled : AcceptorSettings → Bool
  /-- What was saved as a temporary deposit, under which deposit. -/
  saved : List (Nat × DepositDetail)
  /-- The audits of a bill stacked without drop. -/
  stackedWithoutDrop : List StackedBill
  endCalls : List EndCall
  lastDepositNumber : Nat
  nextDepositNumber : Nat

/-- The detail a bill becomes. -/
def StackedBill.call (bill : StackedBill) : DetailCall where
  acceptorSettings := some bill.acceptor
  depositValueType := .validatedCash
  currency := bill.currency
  qty := bill.qty
  amount := bill.amount

namespace CimManager

/-- Idle, with all acceptors closed. -/
def new (lastDepositNumber nextDepositNumber : Nat) : CimManager where
  deposits := []
  inDeposit := false
  deposit := none
  extendedDrops := []
  enabled _ := false
  saved := []
  stackedWithoutDrop := []
  endCalls := []
  lastDepositNumber := lastDepositNumber
  nextDepositNumber := nextDepositNumber

section

variable (getAcceptorSettingsList : CimCash → List AcceptorSettings) (self : CimManager)

/-- The cash of a deposit. -/
def getCimCash (id : Nat) : Option CimCash := (self.deposits[id]?).bind (·.cimCash)

/-- The acceptors of the cash of a deposit. -/
def acceptorsOf (id : Nat) : List AcceptorSettings :=
  match self.getCimCash id with
  | some cash => getAcceptorSettingsList cash
  | none => []

/-- `Cim openCimCash`: open the acceptors in turn, until one raises. -/
def openAcceptors (opening : AcceptorSettings → Opening) :
    List AcceptorSettings → (AcceptorSettings → Bool) → Bool × (AcceptorSettings → Bool)
  | [], enabled => (true, enabled)
  | acceptor :: rest, enabled =>
    match opening acceptor with
    | .starts => openAcceptors opening rest fun a => a == acceptor || enabled a
    | .stays => openAcceptors opening rest enabled
    | .raises => (false, enabled)

/-- `Cim closeCimCash`. -/
def closeCimCash (acceptors : List AcceptorSettings) : CimManager :=
  { self with enabled := fun a => self.enabled a && !acceptors.contains a }

/-- `DepositManager getNewDeposit`. -/
def getNewDeposit (aUser : User) (aCimCash : CimCash) (aDepositType : DepositType)
    (openTime : Nat) : Nat × CimManager :=
  let deposit := { Deposit.new with
    user := some aUser, door := aCimCash.door, cimCash := some aCimCash,
    depositType := aDepositType, openTime := openTime }
  (self.deposits.length, { self with deposits := self.deposits ++ [deposit] })

/-- `DepositManager endDeposit`: only a deposit of some value is stored, under the next
number. -/
def endManagedDeposit (id : Nat) : CimManager :=
  let self := { self with endCalls := self.endCalls ++ [⟨id, self.enabled⟩] }
  match self.deposits[id]? with
  | none => self
  | some deposit =>
    if deposit.getQty > 0 then
      let last := if self.nextDepositNumber > self.lastDepositNumber
        then self.nextDepositNumber - 1 else self.lastDepositNumber
      { self with lastDepositNumber := last + 1 }
    else self

/-- `deactivateState` of the current state: the deposit state ends its deposit. -/
def deactivateState : CimManager :=
  if self.inDeposit then
    match self.deposit with
    | none => self
    | some id =>
      let self := self.closeCimCash (self.acceptorsOf getAcceptorSettingsList id)
      { self.endManagedDeposit id with deposit := none }
  else self

/-- `activateState` of the deposit state, which raises when an acceptor does. -/
def activateDeposit (opening : AcceptorSettings → Opening) : Bool × CimManager :=
  match self.deposit with
  | none => (true, self)
  | some id =>
    let opened :=
      openAcceptors opening (self.acceptorsOf getAcceptorSettingsList id) self.enabled
    (opened.1, { self with enabled := opened.2 })

/-- `startDeposit`: the deposit state is given its deposit, and is then entered; the state
entered from may be that same one. -/
def startDeposit (aUser : Option User) (aCimCash : CimCash) (aDepositType : DepositType)
    (openTime : Nat) (opening : AcceptorSettings → Opening) :
    Except CimManagerExcept Nat × CimManager :=
  match aUser with
  | none => (.error .noUserLoggedIn, self)
  | some user =>
    let (id, self) := self.getNewDeposit user aCimCash aDepositType openTime
    let self := { self with deposit := some id }
    let self := { self.deactivateState getAcceptorSettingsList with inDeposit := true }
    let (opened, self) := self.activateDeposit getAcceptorSettingsList opening
    (if opened then .ok id else .error .cannotOpenAcceptorWithoutBag, self)

/-- `endDeposit`: the idle state is entered. -/
def endDeposit : CimManager :=
  { self.deactivateState getAcceptorSettingsList with inDeposit := false }

/-- `startExtendedDrop`: the drop joins the list once its acceptors are open. -/
def startExtendedDrop (aUser : Option User) (aCimCash : CimCash)
    (aCashReference : Option CashReference) (anEnvelopeNumber anApplyTo : CString)
    (openTime : Nat) (opening : AcceptorSettings → Opening) :
    Except CimManagerExcept Nat × CimManager :=
  match aUser with
  | none => (.error .noUserLoggedIn, self)
  | some user =>
    let (id, self) := self.getNewDeposit user aCimCash .auto openTime
    let self := { self with
      deposits := self.deposits.modify id fun deposit => { deposit with
        cashReference := aCashReference, envelopeNumber := anEnvelopeNumber,
        applyTo := anApplyTo } }
    let opened := openAcceptors opening (getAcceptorSettingsList aCimCash) self.enabled
    let self := { self with enabled := opened.2 }
    if opened.1 then (.ok id, { self with extendedDrops := self.extendedDrops ++ [id] })
    else (.error .cannotOpenAcceptorWithoutBag, self)

/-- `closeExtendedDrop`. -/
def closeExtendedDrop (id : Nat) : CimManager :=
  let self := self.closeCimCash (self.acceptorsOf getAcceptorSettingsList id)
  let self := { self with extendedDrops := self.extendedDrops.erase id }
  self.endManagedDeposit id

/-- The extended drop of a cash. -/
def getExtendedDrop (aCimCash : CimCash) : Option Nat :=
  self.extendedDrops.find? fun id => self.getCimCash id = some aCimCash

/-- `endExtendedDrop`. -/
def endExtendedDrop (aCimCash : CimCash) : CimManager :=
  match self.getExtendedDrop aCimCash with
  | none => self
  | some id => self.closeExtendedDrop getAcceptorSettingsList id

/-- The inactivity timer of the deposit state: it ends the deposit, or starts the close timer
when there is a warning time. -/
def inactivityTimerHandler (getWarningTime : Nat) : CimManager :=
  if getWarningTime = 0 then self.endDeposit getAcceptorSettingsList else self

/-- The close timer of the deposit state, which may also expire late. -/
def closeTimerHandler : CimManager := self.endDeposit getAcceptorSettingsList

/-- The first extended drop whose cash has the acceptor. -/
def getDepositByAcceptor (anAcceptor : AcceptorSettings) : Option Nat :=
  self.extendedDrops.find? fun id =>
    (self.acceptorsOf getAcceptorSettingsList id).contains anAcceptor

/-- A bill is added to a deposit and saved as part of a temporary one; a deposit may have no
room for another detail. -/
def addBill (id : Nat) (bill : StackedBill) : CimManager :=
  match self.deposits[id]? with
  | none => self
  | some deposit =>
    match deposit.addDepositDetail bill.call with
    | (.error _, deposit) => { self with deposits := self.deposits.set id deposit }
    | (.ok detail, deposit) =>
      { self with
        deposits := self.deposits.set id deposit
        saved := self.saved ++ [(id, detail)] }

/-- `onBillAccepted`, outside validation mode. -/
def onBillAccepted (bill : StackedBill) : CimManager :=
  if self.enabled bill.acceptor = false then
    { self with stackedWithoutDrop := self.stackedWithoutDrop ++ [bill] }
  else
    match self.getDepositByAcceptor getAcceptorSettingsList bill.acceptor with
    | some id => self.addBill id bill
    | none =>
      if self.inDeposit then
        match self.deposit with
        | some id => self.addBill id bill
        | none => self
      else { self with stackedWithoutDrop := self.stackedWithoutDrop ++ [bill] }

end

/-- The events of a run. -/
inductive Event : Type
  | startDeposit (aUser : Option User) (aCimCash : CimCash) (aDepositType : DepositType)
      (openTime : Nat) (opening : AcceptorSettings → Opening)
  | endDeposit
  | startExtendedDrop (aUser : Option User) (aCimCash : CimCash)
      (aCashReference : Option CashReference) (anEnvelopeNumber anApplyTo : CString)
      (openTime : Nat) (opening : AcceptorSettings → Opening)
  | endExtendedDrop (aCimCash : CimCash)
  | inactivityTimer (getWarningTime : Nat)
  | closeTimer
  | billAccepted (bill : StackedBill)

/-- One event. -/
def step (getAcceptorSettingsList : CimCash → List AcceptorSettings) (event : Event)
    (self : CimManager) : CimManager :=
  match event with
  | .startDeposit aUser aCimCash aDepositType openTime opening =>
    (self.startDeposit getAcceptorSettingsList aUser aCimCash aDepositType openTime opening).2
  | .endDeposit => self.endDeposit getAcceptorSettingsList
  | .startExtendedDrop aUser aCimCash aCashReference anEnvelopeNumber anApplyTo openTime opening =>
    (self.startExtendedDrop getAcceptorSettingsList aUser aCimCash aCashReference
      anEnvelopeNumber anApplyTo openTime opening).2
  | .endExtendedDrop aCimCash => self.endExtendedDrop getAcceptorSettingsList aCimCash
  | .inactivityTimer getWarningTime =>
    self.inactivityTimerHandler getAcceptorSettingsList getWarningTime
  | .closeTimer => self.closeTimerHandler getAcceptorSettingsList
  | .billAccepted bill => self.onBillAccepted getAcceptorSettingsList bill

/-! ## What a run should do -/

/-- The deposits that are open: the extended drops and the one in progress. -/
def openDeposits (self : CimManager) : List Nat := self.extendedDrops ++ self.deposit.toList

/-- Every deposit made so far is open or was passed to `DepositManager endDeposit`, once, when
the acceptors of its cash were closed. -/
structure Ledger (cim : CimCash → List AcceptorSettings) (s : CimManager) : Prop where
  once : (s.endCalls.map (·.deposit) ++ s.openDeposits).Perm
    (List.range s.deposits.length)
  closed : ∀ call ∈ s.endCalls, ∀ a ∈ s.acceptorsOf cim call.deposit,
    call.enabled a = false

section

variable (cim : CimCash → List AcceptorSettings) (self : CimManager)

/-- A bill of an enabled acceptor is added to one open deposit, whose cash has the acceptor, and
saved under it; a bill of a disabled acceptor is audited.  Nothing else changes. -/
def Routes (bill : StackedBill) : Prop :=
  if self.enabled bill.acceptor = true then
    ∃ id ∈ self.openDeposits, bill.acceptor ∈ self.acceptorsOf cim id ∧
      ∃ deposit detail deposit', self.deposits[id]? = some deposit ∧
        deposit.addDepositDetail bill.call = (.ok detail, deposit') ∧
        self.onBillAccepted cim bill =
          { self with
            deposits := self.deposits.set id deposit'
            saved := self.saved ++ [(id, detail)] }
  else
    self.onBillAccepted cim bill =
      { self with stackedWithoutDrop := self.stackedWithoutDrop ++ [bill] }

/-- What an event should do. -/
def Sound (event : Event) : Prop :=
  (self.step cim event).Ledger cim ∧
    match event with
    | .billAccepted bill => self.Routes cim bill
    | _ => True

/-- The deposit a bill of an enabled acceptor goes to. -/
def target (bill : StackedBill) : Option Nat :=
  (self.getDepositByAcceptor cim bill.acceptor).or self.deposit

/-- No deposit is started in the deposit state, no acceptor of an extended drop raises when it is
opened, and the deposit of a bill has room for its detail. -/
def Orderly : Event → Prop
  | .startDeposit aUser _ _ _ _ => aUser = none ∨ self.inDeposit = false
  | .startExtendedDrop aUser aCimCash _ _ _ _ opening =>
    aUser = none ∨ ∀ a ∈ cim aCimCash, opening a ≠ .raises
  | .billAccepted bill => self.enabled bill.acceptor = true →
      ∀ id ∈ self.target cim bill, ∀ deposit ∈ self.deposits[id]?,
        (deposit.addDepositDetail bill.call).1 ≠ .error .maxDepositDetailQty
  | _ => True

end

end CimManager

theorem Deposit.addDepositDetail_cimCash (self : Deposit) (c : DetailCall) :
    (self.addDepositDetail c).2.cimCash = self.cimCash := by
  rw [addDepositDetail]
  split
  · rfl
  · split <;> rfl
  · split <;> rfl

namespace CimManager

/-! ## The operations, by what they leave -/

section

variable {cim : CimCash → List AcceptorSettings} {s s' : CimManager}

theorem openAcceptors_enabled (opening : AcceptorSettings → Opening) {a : AcceptorSettings} :
    ∀ (acceptors : List AcceptorSettings) (enabled : AcceptorSettings → Bool),
      (openAcceptors opening acceptors enabled).2 a = true → enabled a = true ∨ a ∈ acceptors := by
  intro acceptors
  induction acceptors with
  | nil => exact fun enabled opened => .inl opened
  | cons acceptor rest ih =>
    intro enabled opened
    rw [openAcceptors] at opened
    split at opened
    · rcases ih _ opened with started | tail
      · rcases Bool.or_eq_true_iff.1 started with here | before
        · exact .inr (mem_cons.2 (.inl (beq_iff_eq.1 here)))
        · exact .inl before
      · exact .inr (mem_cons_of_mem _ tail)
    · exact (ih _ opened).imp_right (mem_cons_of_mem _)
    · exact .inl opened

variable {opening : AcceptorSettings → Opening} {id : Nat}

theorem openAcceptors_fst {acceptors : List AcceptorSettings}
    (quiet : ∀ a ∈ acceptors, opening a ≠ .raises) (enabled : AcceptorSettings → Bool) :
    (openAcceptors opening acceptors enabled).1 = true := by
  induction acceptors generalizing enabled with
  | nil => rfl
  | cons acceptor rest ih =>
    rw [openAcceptors]
    split
    · exact ih (fun a ha => quiet a (mem_cons_of_mem _ ha)) _
    · exact ih (fun a ha => quiet a (mem_cons_of_mem _ ha)) _
    · rename_i raises
      exact absurd raises (quiet acceptor mem_cons_self)

/-- The last number after a deposit was passed to `DepositManager endDeposit`. -/
def numberAfter (s : CimManager) (id : Nat) : Nat :=
  match s.deposits[id]? with
  | none => s.lastDepositNumber
  | some deposit =>
    if deposit.getQty > 0 then
      (if s.nextDepositNumber > s.lastDepositNumber
        then s.nextDepositNumber - 1 else s.lastDepositNumber) + 1
    else s.lastDepositNumber

theorem endManagedDeposit_eq (s : CimManager) (id : Nat) :
    s.endManagedDeposit id =
      { s with
        endCalls := s.endCalls ++ [⟨id, s.enabled⟩]
        lastDepositNumber := s.numberAfter id } := by
  rw [numberAfter, endManagedDeposit]
  dsimp only
  cases s.deposits[id]? with
  | none => rfl
  | some deposit => dsimp only; split <;> rfl

/-- The acceptors that are open after those of a deposit are closed. -/
def enabledWithout (cim : CimCash → List AcceptorSettings) (s : CimManager) (id : Nat) :
    AcceptorSettings → Bool :=
  (s.closeCimCash (s.acceptorsOf cim id)).enabled

theorem enabledWithout_eq_true {a : AcceptorSettings} :
    s.enabledWithout cim id a = true ↔ s.enabled a = true ∧ a ∉ s.acceptorsOf cim id := by
  simp [enabledWithout, closeCimCash]

theorem endDeposit_some (state : s.inDeposit = true) (running : s.deposit = some id) :
    s.endDeposit cim =
      { s with
        inDeposit := false
        deposit := none
        enabled := s.enabledWithout cim id
        endCalls := s.endCalls ++ [⟨id, s.enabledWithout cim id⟩]
        lastDepositNumber := s.numberAfter id } := by
  rw [endDeposit, deactivateState, if_pos state, running]
  simp only [endManagedDeposit_eq]
  rfl

theorem endDeposit_idle (state : s.inDeposit = false) : s.endDeposit cim = s := by
  obtain ⟨deposits, inDeposit, deposit, drops, enabled, saved, stacked, calls, last, next⟩ := s
  cases state
  rfl

theorem closeExtendedDrop_eq (id : Nat) :
    s.closeExtendedDrop cim id =
      { s with
        extendedDrops := s.extendedDrops.erase id
        enabled := s.enabledWithout cim id
        endCalls := s.endCalls ++ [⟨id, s.enabledWithout cim id⟩]
        lastDepositNumber := s.numberAfter id } := by
  rw [closeExtendedDrop]
  simp only [endManagedDeposit_eq]
  rfl

theorem startDeposit_eq (state : s.inDeposit = false) (user : User) (cash : CimCash)
    (type : DepositType) (openTime : Nat) (opening : AcceptorSettings → Opening) :
    s.startDeposit cim (some user) cash type openTime opening =
      let opened := openAcceptors opening (cim cash) s.enabled
      (if opened.1 then .ok s.deposits.length else .error .cannotOpenAcceptorWithoutBag,
        { s with
          deposits := (s.getNewDeposit user cash type openTime).2.deposits
          deposit := some s.deposits.length
          inDeposit := true
          enabled := opened.2 }) := by
  have own : acceptorsOf cim
      { s with
        deposits := (s.getNewDeposit user cash type openTime).2.deposits
        deposit := some s.deposits.length
        inDeposit := true } s.deposits.length = cim cash := by
    simp [acceptorsOf, getCimCash, getNewDeposit]
  rw [startDeposit]
  simp only [deactivateState, getNewDeposit, state, Bool.false_eq_true, if_false, activateDeposit]
  simp only [getNewDeposit] at own
  simp only [own]

/-! ## The ledger -/

/-- The deposits made so far keep their cash. -/
def KeepsCash (s s' : CimManager) : Prop :=
  ∀ id < s.deposits.length, s'.getCimCash id = s.getCimCash id

theorem KeepsCash.acceptorsOf (keeps : KeepsCash s s') (made : id < s.deposits.length) :
    s'.acceptorsOf cim id = s.acceptorsOf cim id := by
  rw [CimManager.acceptorsOf, CimManager.acceptorsOf, keeps id made]

theorem Ledger.open_lt (ledger : s.Ledger cim) (here : id ∈ s.openDeposits) :
    id < s.deposits.length :=
  mem_range.1 (ledger.once.mem_iff.1 (mem_append_right _ here))

theorem Ledger.ended_lt (ledger : s.Ledger cim) {call : EndCall} (here : call ∈ s.endCalls) :
    call.deposit < s.deposits.length :=
  mem_range.1 (ledger.once.mem_iff.1 (mem_append_left _ (mem_map_of_mem here)))

theorem Ledger.started (ledger : s.Ledger cim) (keeps : KeepsCash s s')
    (calls : s'.endCalls = s.endCalls) (made : s'.deposits.length = s.deposits.length + 1)
    (opens : s'.openDeposits.Perm (s.openDeposits ++ [s.deposits.length])) : s'.Ledger cim where
  once := by
    rw [calls, made, range_succ]
    refine (opens.append_left _).trans ?_
    rw [← append_assoc]
    exact ledger.once.append_right _
  closed call here := by
    rw [calls] at here
    rw [keeps.acceptorsOf (ledger.ended_lt here)]
    exact ledger.closed call here

theorem Ledger.ended (ledger : s.Ledger cim) (same : s'.deposits = s.deposits)
    (calls : s'.endCalls = s.endCalls ++ [⟨id, s.enabledWithout cim id⟩])
    (opens : s.openDeposits.Perm (id :: s'.openDeposits)) : s'.Ledger cim := by
  have keeps : KeepsCash s s' := fun k _ => by rw [getCimCash, getCimCash, same]
  refine ⟨?_, fun call here => ?_⟩
  · rw [calls, same, map_append, append_assoc]
    exact (opens.symm.append_left _).trans ledger.once
  · rw [calls] at here
    rcases mem_append.1 here with before | now
    · rw [keeps.acceptorsOf (ledger.ended_lt before)]
      exact ledger.closed call before
    · have open_id := opens.mem_iff.2 mem_cons_self
      rw [mem_singleton.1 now, keeps.acceptorsOf (ledger.open_lt open_id)]
      intro a ha
      exact Bool.eq_false_iff.2 fun enabled => (enabledWithout_eq_true.1 enabled).2 ha

theorem Ledger.same (ledger : s.Ledger cim) (keeps : KeepsCash s s')
    (calls : s'.endCalls = s.endCalls) (made : s'.deposits.length = s.deposits.length)
    (opens : s'.openDeposits = s.openDeposits) : s'.Ledger cim where
  once := by
    rw [calls, made, opens]
    exact ledger.once
  closed call here := by
    rw [calls] at here
    rw [keeps.acceptorsOf (ledger.ended_lt here)]
    exact ledger.closed call here

/-! ## The invariant -/

/-- The ledger is right, the deposit state has a deposit when it is the current state, and
whatever acceptor is enabled belongs to an open deposit. -/
structure Inv (cim : CimCash → List AcceptorSettings) (s : CimManager) : Prop where
  ledger : s.Ledger cim
  state : s.inDeposit = s.deposit.isSome
  opened : ∀ a, s.enabled a = true → ∃ id ∈ s.openDeposits, a ∈ s.acceptorsOf cim id

theorem Inv.start (lastDepositNumber nextDepositNumber : Nat) :
    Inv cim (new lastDepositNumber nextDepositNumber) where
  ledger := ⟨List.Perm.nil, fun _ here => absurd here not_mem_nil⟩
  state := rfl
  opened _ enabled := nomatch enabled

theorem Inv.endDeposit (inv : Inv cim s) : Inv cim (s.endDeposit cim) := by
  have state := inv.state
  cases running : s.deposit with
  | none =>
    rw [running] at state
    rwa [endDeposit_idle state]
  | some id =>
    rw [running] at state
    have split : s.openDeposits.Perm (id :: s.extendedDrops) := by
      rw [openDeposits, running]
      exact perm_append_comm
    rw [endDeposit_some state running]
    refine ⟨inv.ledger.ended rfl rfl ?_, rfl, fun a enabled => ?_⟩
    · simpa [openDeposits] using split
    · obtain ⟨before, other⟩ := enabledWithout_eq_true.1 enabled
      obtain ⟨k, open_k, here⟩ := inv.opened a before
      rcases mem_cons.1 (split.mem_iff.1 open_k) with rfl | drop
      · exact absurd here other
      · exact ⟨k, mem_append_left _ drop, here⟩

theorem Inv.endExtendedDrop (inv : Inv cim s) (cash : CimCash) :
    Inv cim (s.endExtendedDrop cim cash) := by
  rw [CimManager.endExtendedDrop]
  cases found : s.getExtendedDrop cash with
  | none => exact inv
  | some id =>
    have drop : id ∈ s.extendedDrops := List.mem_of_find?_eq_some found
    have split : s.openDeposits.Perm (id :: (s.extendedDrops.erase id ++ s.deposit.toList)) :=
      (perm_cons_erase drop).append_right _
    simp only [closeExtendedDrop_eq]
    refine ⟨inv.ledger.ended rfl rfl split, inv.state, fun a enabled => ?_⟩
    obtain ⟨before, other⟩ := enabledWithout_eq_true.1 enabled
    obtain ⟨k, open_k, here⟩ := inv.opened a before
    rcases mem_cons.1 (split.mem_iff.1 open_k) with rfl | rest
    · exact absurd here other
    · exact ⟨k, rest, here⟩

/-- A deposit was made for a cash and is open, next to the others. -/
structure Starts (cash : CimCash) (s s' : CimManager) : Prop where
  keeps : KeepsCash s s'
  calls : s'.endCalls = s.endCalls
  made : s'.deposits.length = s.deposits.length + 1
  own : s'.getCimCash s.deposits.length = some cash
  opens : s'.openDeposits.Perm (s.openDeposits ++ [s.deposits.length])

theorem Inv.deposit_none (inv : Inv cim s) (state : s.inDeposit = false) : s.deposit = none := by
  have same := inv.state
  rw [state] at same
  exact Option.not_isSome_iff_eq_none.1 (Bool.eq_false_iff.1 same.symm)

theorem Inv.starts_deposit (inv : Inv cim s) (state : s.inDeposit = false) (user : User)
    (cash : CimCash) (type : DepositType) (openTime : Nat) (opening : AcceptorSettings → Opening) :
    Starts cash s (s.startDeposit cim (some user) cash type openTime opening).2 := by
  rw [startDeposit_eq state]
  refine ⟨fun id made => ?_, rfl, ?_, ?_, ?_⟩
  · simp [getCimCash, getNewDeposit, List.getElem?_append_left made]
  · simp [getNewDeposit]
  · simp [getCimCash, getNewDeposit]
  · simp [openDeposits, inv.deposit_none state]

theorem startExtendedDrop_quiet {cash : CimCash} (quiet : ∀ a ∈ cim cash, opening a ≠ .raises)
    (user : User) (reference : Option CashReference) (envelope applyTo : CString) (openTime : Nat) :
    s.startExtendedDrop cim (some user) cash reference envelope applyTo openTime opening =
      (.ok s.deposits.length,
        { s with
          deposits := (s.getNewDeposit user cash .auto openTime).2.deposits.modify
            s.deposits.length fun deposit => { deposit with
              cashReference := reference, envelopeNumber := envelope, applyTo := applyTo }
          enabled := (openAcceptors opening (cim cash) s.enabled).2
          extendedDrops := s.extendedDrops ++ [s.deposits.length] }) := by
  rw [startExtendedDrop]
  simp only [openAcceptors_fst quiet, if_true]
  rfl

theorem starts_extendedDrop {cash : CimCash} (quiet : ∀ a ∈ cim cash, opening a ≠ .raises)
    (user : User) (reference : Option CashReference) (envelope applyTo : CString) (openTime : Nat) :
    Starts cash s (s.startExtendedDrop cim (some user) cash reference envelope applyTo openTime
      opening).2 := by
  rw [startExtendedDrop_quiet quiet]
  refine ⟨fun id made => ?_, rfl, ?_, ?_, ?_⟩
  · have other : ¬ s.deposits.length = id := by omega
    simp [getCimCash, getNewDeposit, other, List.getElem?_append_left made]
  · simp [getNewDeposit]
  · simp [getCimCash, getNewDeposit]
  · simp only [openDeposits]
    rw [append_assoc, append_assoc]
    exact perm_append_comm.append_left _

theorem Inv.started (inv : Inv cim s) {cash : CimCash} (starts : Starts cash s s')
    (enabled : s'.enabled = (openAcceptors opening (cim cash) s.enabled).2)
    (state : s'.inDeposit = s'.deposit.isSome) : Inv cim s' := by
  have ledger := inv.ledger.started starts.keeps starts.calls starts.made starts.opens
  refine ⟨ledger, state, fun a enabled_a => ?_⟩
  rw [enabled] at enabled_a
  rcases openAcceptors_enabled opening _ _ enabled_a with before | here
  · obtain ⟨k, open_k, acceptor⟩ := inv.opened a before
    refine ⟨k, starts.opens.mem_iff.2 (mem_append_left _ open_k), ?_⟩
    rwa [starts.keeps.acceptorsOf (inv.ledger.open_lt open_k)]
  · refine ⟨s.deposits.length, starts.opens.mem_iff.2 (mem_append_right _ mem_cons_self),
      ?_⟩
    rwa [acceptorsOf, starts.own]

theorem Inv.startDeposit (inv : Inv cim s) (aUser : Option User) (cash : CimCash)
    (type : DepositType) (openTime : Nat) {opening : AcceptorSettings → Opening}
    (idle : aUser = none ∨ s.inDeposit = false) :
    Inv cim (s.startDeposit cim aUser cash type openTime opening).2 := by
  cases aUser with
  | none => exact inv
  | some user =>
    have state := idle.resolve_left nofun
    have starts := inv.starts_deposit state user cash type openTime opening
    rw [startDeposit_eq state] at starts ⊢
    exact inv.started starts rfl rfl

theorem Inv.startExtendedDrop (inv : Inv cim s) (aUser : Option User) (cash : CimCash)
    (reference : Option CashReference) (envelope applyTo : CString) (openTime : Nat)
    (quiet : aUser = none ∨ ∀ a ∈ cim cash, opening a ≠ .raises) :
    Inv cim (s.startExtendedDrop cim aUser cash reference envelope applyTo openTime opening).2 := by
  cases aUser with
  | none => exact inv
  | some user =>
    have quiet := quiet.resolve_left nofun
    have starts := starts_extendedDrop (s := s) quiet user reference envelope applyTo openTime
    rw [startExtendedDrop_quiet quiet] at starts ⊢
    exact inv.started starts rfl inv.state

theorem Inv.target (inv : Inv cim s) {bill : StackedBill} (enabled : s.enabled bill.acceptor = true) :
    ∃ id ∈ s.openDeposits, bill.acceptor ∈ s.acceptorsOf cim id ∧ s.target cim bill = some id ∧
      s.onBillAccepted cim bill = s.addBill id bill := by
  rw [onBillAccepted, if_neg (by simp [enabled]), CimManager.target]
  cases found : s.getDepositByAcceptor cim bill.acceptor with
  | some id =>
    have drop : id ∈ s.extendedDrops := List.mem_of_find?_eq_some found
    have here := List.find?_some found
    exact ⟨id, mem_append_left _ drop, by simpa using here, rfl, rfl⟩
  | none =>
    obtain ⟨id, open_id, here⟩ := inv.opened _ enabled
    have running : s.deposit = some id := by
      rcases mem_append.1 open_id with drop | running
      · exact absurd here (by simpa using List.find?_eq_none.1 found id drop)
      · simpa using running
    have state := inv.state
    rw [running] at state
    refine ⟨id, open_id, here, by simp [running], ?_⟩
    simp [state, running]

theorem Inv.routes (inv : Inv cim s) {bill : StackedBill} (room : s.Orderly cim (.billAccepted bill)) :
    s.Routes cim bill ∧ Inv cim (s.onBillAccepted cim bill) := by
  rw [Routes]
  split
  · rename_i enabled
    obtain ⟨id, open_id, here, target, added⟩ := inv.target enabled
    have made := inv.ledger.open_lt open_id
    have at_id : s.deposits[id]? = some s.deposits[id] := List.getElem?_eq_getElem made
    have fits := room enabled id target s.deposits[id] at_id
    have same_cash := s.deposits[id].addDepositDetail_cimCash bill.call
    rcases call : s.deposits[id].addDepositDetail bill.call with ⟨_ | detail, deposit'⟩
    · rename_i e
      rw [call] at fits
      cases e
      exact absurd rfl fits
    · rw [call] at same_cash
      have own : deposit'.cimCash = s.deposits[id].cimCash := same_cash
      have eq : s.onBillAccepted cim bill =
          { s with
            deposits := s.deposits.set id deposit'
            saved := s.saved ++ [(id, detail)] } := by
        rw [added, addBill, at_id]
        simp only [call]
      refine ⟨⟨id, open_id, here, _, detail, deposit', at_id, call, eq⟩, ?_⟩
      have keeps : KeepsCash s { s with
          deposits := s.deposits.set id deposit', saved := s.saved ++ [(id, detail)] } := by
        intro k made_k
        by_cases this_one : id = k
        · subst this_one
          simp [getCimCash, made, own]
        · simp [getCimCash, List.getElem?_set_ne this_one]
      rw [eq]
      refine ⟨inv.ledger.same keeps rfl (by simp) rfl, inv.state, fun a enabled_a => ?_⟩
      obtain ⟨k, open_k, acceptor⟩ := inv.opened a enabled_a
      refine ⟨k, open_k, ?_⟩
      rwa [keeps.acceptorsOf (inv.ledger.open_lt open_k)]
  · rename_i disabled
    have eq : s.onBillAccepted cim bill =
        { s with stackedWithoutDrop := s.stackedWithoutDrop ++ [bill] } := by
      rw [onBillAccepted, if_pos (Bool.eq_false_iff.2 disabled)]
    rw [eq]
    exact ⟨rfl, inv.ledger.same (fun _ _ => rfl) rfl rfl rfl, inv.state, inv.opened⟩

/-! ## Bills only add details -/

/-- The same deposits up to their details. -/
def SameDeposits (s s' : CimManager) : Prop :=
  ∃ deposits saved stackedWithoutDrop,
    s' = { s with
      deposits := deposits, saved := saved, stackedWithoutDrop := stackedWithoutDrop } ∧
    deposits.map (·.cimCash) = s.deposits.map (·.cimCash)

theorem SameDeposits.refl (s : CimManager) : SameDeposits s s := ⟨_, _, _, rfl, rfl⟩

theorem SameDeposits.length (same : SameDeposits s s') :
    s'.deposits.length = s.deposits.length := by
  obtain ⟨deposits, saved, stacked, rfl, cashes⟩ := same
  simpa using congrArg List.length cashes

theorem SameDeposits.getCimCash (same : SameDeposits s s') (id : Nat) :
    s'.getCimCash id = s.getCimCash id := by
  obtain ⟨deposits, saved, stacked, rfl, cashes⟩ := same
  have here := congrArg (fun cashes => cashes[id]?.bind fun cash => cash) cashes
  simp only [List.getElem?_map, Option.bind_map] at here
  exact here

theorem map_set_same {deposits : List Deposit} {deposit deposit' : Deposit}
    (at_id : deposits[id]? = some deposit) (same_cash : deposit'.cimCash = deposit.cimCash) :
    (deposits.set id deposit').map (·.cimCash) = deposits.map (·.cimCash) := by
  obtain ⟨made, rfl⟩ := List.getElem?_eq_some_iff.1 at_id
  rw [map_set, same_cash, ← getElem_map (fun d : Deposit => d.cimCash), set_getElem_self]
  simpa using made

theorem SameDeposits.addBill (s : CimManager) (id : Nat) (bill : StackedBill) :
    SameDeposits s (s.addBill id bill) := by
  rw [CimManager.addBill]
  cases at_id : s.deposits[id]? with
  | none => exact .refl s
  | some deposit =>
    have same_cash := deposit.addDepositDetail_cimCash bill.call
    dsimp only
    generalize deposit.addDepositDetail bill.call = added at same_cash ⊢
    rcases added with ⟨_ | detail, deposit'⟩
    all_goals exact ⟨_, _, _, rfl, map_set_same at_id same_cash⟩

theorem SameDeposits.onBillAccepted (s : CimManager) (bill : StackedBill) :
    SameDeposits s (s.onBillAccepted cim bill) := by
  rw [CimManager.onBillAccepted]
  split
  · exact ⟨_, _, _, rfl, rfl⟩
  · split
    · exact .addBill s _ bill
    · split
      · split
        · exact .addBill s _ bill
        · exact .refl s
      · exact ⟨_, _, _, rfl, rfl⟩

theorem SameDeposits.modify (s : CimManager) (id : Nat) {change : Deposit → Deposit}
    (keeps_cash : ∀ deposit, (change deposit).cimCash = deposit.cimCash) :
    SameDeposits s { s with deposits := s.deposits.modify id change } := by
  refine ⟨_, _, _, rfl, ext_getElem? fun k => ?_⟩
  rw [List.getElem?_map, List.getElem?_map, List.getElem?_modify]
  split
  · cases s.deposits[k]? with
    | none => rfl
    | some deposit => exact congrArg some (keeps_cash deposit)
  · cases s.deposits[k]? <;> rfl

theorem Inv.sameDeposits (inv : Inv cim s) (same : SameDeposits s s') : Inv cim s' := by
  have keeps : KeepsCash s s' := fun id _ => same.getCimCash id
  have made := same.length
  obtain ⟨deposits, saved, stacked, rfl, -⟩ := same
  refine ⟨inv.ledger.same keeps rfl made rfl, inv.state, fun a enabled => ?_⟩
  obtain ⟨id, open_id, acceptor⟩ := inv.opened a enabled
  refine ⟨id, open_id, ?_⟩
  rwa [keeps.acceptorsOf (inv.ledger.open_lt open_id)]

/-! ## The run -/

/-- The step: an event of an orderly run does what it should, and keeps the invariant. -/
theorem Inv.step (inv : Inv cim s) {event : Event} (orderly : s.Orderly cim event) :
    Inv cim (s.step cim event) ∧ s.Sound cim event := by
  cases event with
  | startDeposit aUser cash type openTime opening =>
    have kept := @Inv.startDeposit cim s inv aUser cash type openTime opening orderly
    exact ⟨kept, kept.ledger, trivial⟩
  | endDeposit => exact ⟨inv.endDeposit, inv.endDeposit.ledger, trivial⟩
  | startExtendedDrop aUser cash reference envelope applyTo openTime opening =>
    have kept := inv.startExtendedDrop aUser cash reference envelope applyTo openTime orderly
    exact ⟨kept, kept.ledger, trivial⟩
  | endExtendedDrop cash =>
    exact ⟨inv.endExtendedDrop cash, (inv.endExtendedDrop cash).ledger, trivial⟩
  | inactivityTimer warning =>
    have kept : Inv cim (s.inactivityTimerHandler cim warning) := by
      rw [inactivityTimerHandler]
      split
      · exact inv.endDeposit
      · exact inv
    exact ⟨kept, kept.ledger, trivial⟩
  | closeTimer => exact ⟨inv.endDeposit, inv.endDeposit.ledger, trivial⟩
  | billAccepted bill =>
    obtain ⟨routed, kept⟩ := inv.routes orderly
    exact ⟨kept, kept.ledger, routed⟩

end

instance (cim : CimCash → List AcceptorSettings) (s : CimManager) :
    (event : Event) → Decidable (s.Orderly cim event)
  | .startDeposit .. => inferInstanceAs (Decidable (_ ∨ _))
  | .startExtendedDrop .. => inferInstanceAs (Decidable (_ ∨ _))
  | .billAccepted _ => inferInstanceAs (Decidable (_ → _))
  | .endDeposit | .endExtendedDrop _ | .inactivityTimer _ | .closeTimer => isTrue trivial

def validatorOne : AcceptorSettings := ⟨1, .validator⟩

def validatorTwo : AcceptorSettings := ⟨2, .validator⟩

/-- Two cashes with an acceptor each. -/
def twoCashes (cash : CimCash) : List AcceptorSettings :=
  if cash.cimCashId = 1 then [validatorOne] else [validatorTwo]

def autoCash (cimCashId : Int) : CimCash := ⟨cimCashId, .auto, none⟩

end CimManager

end CimArm
