import CimArm.Cim.CimManager
import CimArm.Telesup.POSAcceptor

/-!
# The drops of the point of sale

Through its connection the point of sale opens and closes validated drops: a plain one, which
ends with the session of its user at the latest, and extended ones, one a cash, which may stay
open.  `POSAcceptor` keeps track of them in two fields.  A close ends the extended drop of its
cash when the field of extended drops is set, and otherwise the plain drop, of whatever cash;
and it clears the field of the plain drop when the drop it ended was stored.

* `run_drops`: in every run whose closes find the fields telling of the drop they are about,
  each close ends the drop of its cash, and the field of the plain drop tells whether it is
  open.
-/

namespace CimArm

open List

/-- The parameters of `openValidatedCash`, with what the checks find. -/
structure OpenParams : Type where
  cimCash : Option CimCash
  extended : Bool
  extendedUser : Option User
  hasPermission : Bool
  instaDrop : Bool
  doorDeleted : Bool
  doorOpen : Bool
  stackersFull : Bool
  useCashReference : Bool
  reference : Option CashReference
  applyTo : CString
  stackerRemoved : AcceptorSettings → Bool
  openTime : Nat
  opening : AcceptorSettings → Opening

inductive DropParams : Type
  | none | openCash (params : OpenParams) | closeCash (cimCash : Option CimCash)

/-- The requests that open and close drops, and those that have to come before them. -/
inductive DropRequest : Type
  | startConnection (user password : String)
  | endConnection
  | userLogin (user password : String)
  | userLogoff
  | openCash (params : OpenParams)
  | closeCash (cimCash : Option CimCash)

namespace DropRequest

def command : DropRequest → Command
  | .startConnection .. => .startConnection
  | .endConnection => .endConnection
  | .userLogin .. => .userLogin
  | .userLogoff => .userLogoff
  | .openCash _ => .openCash
  | .closeCash _ => .closeCash

def toRequest (self : DropRequest) : Request DropParams :=
  match self with
  | .startConnection user password => ⟨self.command.messageName, user, password, .none⟩
  | .userLogin user password => ⟨self.command.messageName, user, password, .none⟩
  | .openCash params => ⟨self.command.messageName, "", "", .openCash params⟩
  | .closeCash cimCash => ⟨self.command.messageName, "", "", .closeCash cimCash⟩
  | .endConnection | .userLogoff => ⟨self.command.messageName, "", "", .none⟩

end DropRequest

/-- The cash manager, the two fields of the acceptor, and the user who is logged in. -/
structure PosDrops : Type where
  cim : CimManager
  myDrop : Option Nat
  myExtendedDrop : Option Nat
  user : Option User

namespace PosDrops

section

variable (getAcceptorSettingsList : CimCash → List AcceptorSettings)
  (processMessage : CimManagerExcept → String) (self : PosDrops)

/-- Who the drop is of. -/
def depositor (params : OpenParams) : Option User :=
  if params.extended then params.extendedUser.or self.user else self.user

/-- The checks of `openValidatedCash`; the cash when they pass. -/
def checkOpen (params : OpenParams) : Except String CimCash :=
  if (self.depositor params).isSome ∧ params.hasPermission = false then
    .error "El usuario no tiene permiso!"
  else
    match params.cimCash with
    | none => .error "Debe seleccionar un cash."
    | some cimCash =>
      if cimCash.depositType ≠ .auto then .error "Debe seleccionar un cash validado."
      else if params.extended = false ∧ self.myDrop.isSome then
        .error "Ya existe un deposito en curso."
      else if (self.cim.getExtendedDrop cimCash).isSome then
        .error (if params.extended then "El deposito extendido ya se encuentra activo."
          else "El Cash ya se encuentra en uso por un Deposito Extendido.")
      else if params.extended ∧ params.instaDrop then
        .error "El Cash ya se encuentra en uso por un Deposito Instantaneo."
      else if params.doorDeleted then .error "La puerta se encuentra deshabilitada!"
      else if params.doorOpen then .error "Primero debe cerrar la puerta validada!"
      else if params.stackersFull then .error "Validadores deshabilitados. Stackers llenos."
      else if params.useCashReference ∧ params.reference = none then
        .error "Debe seleccionar un reference."
      else .ok cimCash

/-- `openCash`: a plain drop, or an extended one. -/
def openCash (params : OpenParams) : Reply × PosDrops :=
  match self.checkOpen params with
  | .error description => (⟨"OpenValidatedCashFail", description⟩, self)
  | .ok cimCash =>
    -- `checkCimCashState`
    if (getAcceptorSettingsList cimCash).any params.stackerRemoved then
      (⟨"OpenValidatedCashFail", processMessage .cannotOpenAcceptorWithoutBag⟩, self)
    else if params.extended then
      let started := self.cim.startExtendedDrop getAcceptorSettingsList (self.depositor params)
        cimCash params.reference [] params.applyTo params.openTime params.opening
      let self := { self with cim := started.2 }
      match started.1 with
      | .ok id =>
        (⟨"OpenValidatedCashSuccess", ""⟩, { self with myExtendedDrop := some id })
      | .error e => (⟨"OpenValidatedCashFail", processMessage e⟩, self)
    else
      let started := self.cim.startDeposit getAcceptorSettingsList (self.depositor params)
        cimCash .auto params.openTime params.opening
      match started.1 with
      | .ok id =>
        let cim := { started.2 with
          deposits := started.2.deposits.modify id fun deposit => { deposit with
            cashReference := params.reference, envelopeNumber := [],
            applyTo := params.applyTo } }
        (⟨"OpenValidatedCashSuccess", ""⟩, { self with cim := cim, myDrop := some id })
      | .error e =>
        (⟨"OpenValidatedCashFail", processMessage e⟩, { self with cim := started.2 })

/-- The checks of `closeValidatedCash`; the cash when they pass. -/
def checkClose (cimCash : Option CimCash) : Except String CimCash :=
  match cimCash with
  | none => .error "Debe seleccionar un cash."
  | some cimCash =>
    if cimCash.depositType ≠ .auto then .error "Debe seleccionar un cash validado."
    else if self.myDrop = none ∧ self.myExtendedDrop = none then
      .error "No hay depositos para cerrar."
    else if self.myExtendedDrop.isSome ∧ self.cim.getExtendedDrop cimCash = none then
      .error "Error"
    else .ok cimCash

/-- `closeCash`; the response tells of the drop when it was stored, through the field of the
plain drop. -/
def closeCash (cimCash : Option CimCash) : Reply × PosDrops :=
  match self.checkClose cimCash with
  | .error description => (⟨"CloseValidatedCashFail", description⟩, self)
  | .ok cimCash =>
    let closed :=
      if self.myExtendedDrop.isSome then
        { self with
          cim := self.cim.endExtendedDrop getAcceptorSettingsList cimCash
          myExtendedDrop := none }
      else { self with cim := self.cim.endDeposit getAcceptorSettingsList, myDrop := none }
    (⟨"CloseValidatedCashSuccess", ""⟩,
      if self.cim.lastDepositNumber ≠ closed.cim.lastDepositNumber then
        { closed with myDrop := none }
      else closed)

/-- The plain drop is ended if the field tells of one. -/
def endValidatedDrop : PosDrops :=
  if self.myDrop.isSome then
    { self with cim := self.cim.endDeposit getAcceptorSettingsList, myDrop := none }
  else self

def userLogoff : PosDrops := { self.endValidatedDrop getAcceptorSettingsList with user := none }

/-- A timer of the deposit state ends the plain drop, which is reset while a connection runs. -/
def depositTimer (telesupRunning : Bool) : PosDrops :=
  { self with
    cim := self.cim.closeTimerHandler getAcceptorSettingsList
    myDrop := if telesupRunning then none else self.myDrop }

end

/-- The services of the box for these requests; the others start and end no drop. -/
def services (getAcceptorSettingsList : CimCash → List AcceptorSettings)
    (processMessage : CimManagerExcept → String) (telesupUserName telesupPassword : String)
    (users : String → String → Option User) : Services DropParams PosDrops where
  telesupUserName := telesupUserName
  telesupPassword := telesupPassword
  userLoggedIn self := self.user.isSome
  logInUser user password self :=
    match users user password with
    | some user => (.ok user.userId.toNat, { self with user := some user })
    | none => (.error .other, self)
  perform command params self :=
    match command, params with
    | .openCash, .openCash params =>
      let opened := self.openCash getAcceptorSettingsList processMessage params
      (some opened.1, opened.2)
    | .closeCash, .closeCash cimCash =>
      let closed := self.closeCash getAcceptorSettingsList cimCash
      (some closed.1, closed.2)
    | .userLogoff, _ => (some ⟨"LogoffSuccess", ""⟩, self.userLogoff getAcceptorSettingsList)
    | _, _ => (none, self)
  closeConnection self := self.userLogoff getAcceptorSettingsList

end PosDrops

/-- What happens to the acceptor: a connection comes in, a request is read, the connection is
lost, the timer of the connection or one of the deposit state expires, or a bill is stacked. -/
inductive DropEvent : Type
  | accept
  | request (request : DropRequest) (taken : Bool)
  | lost
  | timerExpired
  | inactivityTimer (getWarningTime : Nat)
  | closeTimer
  | billAccepted (bill : StackedBill)

/-- One event. -/
def dropStep (getAcceptorSettingsList : CimCash → List AcceptorSettings)
    (services : Services DropParams PosDrops) (event : DropEvent)
    (s : Session DropParams PosDrops) : Session DropParams PosDrops :=
  match event with
  | .accept =>
    -- not while a user is logged in at the box
    if s.telesupRunning = false ∧ s.world.user = none then .accept s.message s.world else s
  | .request request taken => s.step services (.request request.toRequest taken)
  | .lost => s.step services .lost
  | .timerExpired => if s.world.myDrop.isSome then s else s.step services .lost
  | .inactivityTimer getWarningTime =>
    if getWarningTime = 0 then
      { s with world := s.world.depositTimer getAcceptorSettingsList s.telesupRunning }
    else s
  | .closeTimer => { s with world := s.world.depositTimer getAcceptorSettingsList s.telesupRunning }
  | .billAccepted bill =>
    { s with
      world := { s.world with cim := s.world.cim.onBillAccepted getAcceptorSettingsList bill } }

/-! ## What a session should do -/

namespace PosDrops

/-- A drop is open on a cash. -/
def OpenOn (w : PosDrops) (cimCash : CimCash) : Prop :=
  ∃ id ∈ w.cim.openDeposits, w.cim.getCimCash id = some cimCash

/-- No drop is started and none is ended. -/
def SameDrops (w w' : PosDrops) : Prop :=
  w'.cim.openDeposits = w.cim.openDeposits ∧ w'.cim.endCalls = w.cim.endCalls

/-- A drop of a cash is ended, and the others stay open. -/
def EndsOne (w w' : PosDrops) (cimCash : CimCash) : Prop :=
  ∃ id ∈ w.cim.openDeposits, w.cim.getCimCash id = some cimCash ∧
    w.cim.openDeposits.Perm (id :: w'.cim.openDeposits) ∧
    w'.cim.endCalls.map (·.deposit) = w.cim.endCalls.map (·.deposit) ++ [id]

/-- The fields tell of the drop a close is about: of an extended drop, which is that of the
cash and leaves the field of the plain drop as it should be, or of the plain drop of the
cash. -/
def ClosesRight (w : PosDrops) (cimCash : CimCash) : Prop :=
  match w.myExtendedDrop, w.cim.getExtendedDrop cimCash, w.myDrop with
  | some _, some id, myDrop =>
    myDrop = none ∨ ∀ deposit ∈ w.cim.deposits[id]?, deposit.getQty ≤ 0
  | some _, none, myDrop => ∀ id ∈ myDrop, w.cim.getCimCash id ≠ some cimCash
  | none, _, some id => w.cim.getCimCash id = some cimCash
  | none, extendedDrop, none => extendedDrop = none

end PosDrops

/-- The responses that tell of an error. -/
def errorResponses : List String :=
  ["Error", "LoginFail", "OpenValidatedCashFail", "CloseValidatedCashFail"]

section

variable (services : Services DropParams PosDrops) (s : Session DropParams PosDrops)

/-- What a request that passes should do: a close ends a drop of its cash if there is one, and
says so, and after the logoff no plain drop is open. -/
def Does (w : PosDrops) (request : DropRequest) (response : String) (w' : PosDrops) : Prop :=
  match request with
  | .closeCash (some cimCash) =>
    (response = "CloseValidatedCashSuccess" ↔ w.OpenOn cimCash) ∧
      (response = "CloseValidatedCashSuccess" → w.EndsOne w' cimCash)
  | .userLogoff => w'.cim.deposit = none
  | _ => True

/-- A request is answered once.  With an error it starts and ends nothing, and when it passes it
does what it should. -/
def ServesDrops (request : DropRequest) : Prop :=
  ∃ response w', (s.serve services request.toRequest).2.world = w' ∧
    (s.serve services request.toRequest).2.sent = s.sent ++ [some response] ∧
    (response.response ∈ errorResponses → s.world.SameDrops w') ∧
    (s.refusal services request.toRequest = none → Does s.world request response.response w')

/-- After every event the field tells whether the plain drop is open, which it is not when the
connection has ended; and a request that is read is served as it should be. -/
def SoundDrops (list : CimCash → List AcceptorSettings) (event : DropEvent) : Prop :=
  let s' := dropStep list services event s
  (s'.world.myDrop.isSome ↔ s'.world.cim.deposit.isSome) ∧
    (s'.telesupRunning = false → s'.world.cim.deposit = none) ∧
    match event with
    | .request request _ => s.telesupRunning = true → ServesDrops services s request
    | _ => True

/-- No acceptor raises when a drop is opened. -/
def QuietDrops (list : CimCash → List AcceptorSettings) : DropEvent → Prop
  | .request (.openCash params) _ =>
    ∀ cimCash ∈ params.cimCash, ∀ a ∈ list cimCash, params.opening a ≠ .raises
  | _ => True

/-- The fields tell of the drop of each close that passes. -/
def RightDrops : DropEvent → Prop
  | .request (.closeCash (some cimCash)) _ =>
    s.telesupRunning = true → s.refusal services (DropRequest.closeCash cimCash).toRequest = none →
      cimCash.depositType = .auto → s.world.ClosesRight cimCash
  | _ => True

end

instance (list : CimCash → List AcceptorSettings) : (event : DropEvent) →
    Decidable (QuietDrops list event)
  | .request (.openCash _) _ => inferInstanceAs (Decidable (∀ _ ∈ _, _))
  | .request (.startConnection ..) _ | .request .endConnection _ | .request (.userLogin ..) _
  | .request .userLogoff _ | .request (.closeCash _) _ | .accept | .lost | .timerExpired
  | .inactivityTimer _ | .closeTimer | .billAccepted _ => isTrue trivial

instance (w : PosDrops) (cimCash : CimCash) : Decidable (w.ClosesRight cimCash) := by
  unfold PosDrops.ClosesRight
  split <;> infer_instance

instance (services : Services DropParams PosDrops) (s : Session DropParams PosDrops) :
    (event : DropEvent) → Decidable (RightDrops services s event)
  | .request (.closeCash (some _)) _ => inferInstanceAs (Decidable (_ → _))
  | .request (.closeCash none) _ | .request (.startConnection ..) _ | .request .endConnection _
  | .request (.userLogin ..) _ | .request .userLogoff _ | .request (.openCash _) _ | .accept
  | .lost | .timerExpired | .inactivityTimer _ | .closeTimer | .billAccepted _ => isTrue trivial

/-! ## Opening and closing -/

namespace PosDrops

section

variable {list : CimCash → List AcceptorSettings} {processMessage : CimManagerExcept → String}
  {w : PosDrops} {cimCash : CimCash}

/-- Between events the field of the plain drop is the deposit in progress, and drops are of
validated cashes. -/
structure Inv (list : CimCash → List AcceptorSettings) (w : PosDrops) : Prop where
  cim : CimManager.Inv list w.cim
  drop : w.myDrop = w.cim.deposit
  auto : ∀ id ∈ w.cim.openDeposits, ∀ cimCash ∈ w.cim.getCimCash id, cimCash.depositType = .auto

theorem Inv.openOn_auto (inv : Inv list w) (on : w.OpenOn cimCash) : cimCash.depositType = .auto := by
  obtain ⟨id, open_id, cash⟩ := on
  exact inv.auto id open_id cimCash cash

theorem Inv.openOn_iff (inv : Inv list w) :
    w.OpenOn cimCash ↔ (w.cim.getExtendedDrop cimCash).isSome ∨
      ∃ id ∈ w.myDrop, w.cim.getCimCash id = some cimCash := by
  rw [OpenOn, inv.drop, CimManager.openDeposits, CimManager.getExtendedDrop, List.find?_isSome]
  simp only [mem_append, Option.mem_toList, Option.mem_def, or_and_right, exists_or,
    decide_eq_true_eq]

theorem getExtendedDrop_some {id : Nat} (found : w.cim.getExtendedDrop cimCash = some id) :
    id ∈ w.cim.extendedDrops ∧ w.cim.getCimCash id = some cimCash :=
  ⟨List.mem_of_find?_eq_some found, by simpa using List.find?_some found⟩

theorem numberAfter_ne {s : CimManager} {id : Nat} :
    s.lastDepositNumber ≠ s.numberAfter id ↔ ∃ deposit ∈ s.deposits[id]?, 0 < deposit.getQty := by
  rw [CimManager.numberAfter]
  cases s.deposits[id]? with
  | none => simp
  | some deposit =>
    simp only [Option.mem_some_iff, exists_eq_left']
    split
    · rename_i some_value
      refine ⟨fun _ => some_value, fun _ => ?_⟩
      split <;> omega
    · rename_i no_value
      exact ⟨fun ne => absurd rfl ne, fun value => absurd value no_value⟩

theorem closeCash_refused {description : String} {cash : Option CimCash}
    (refused : w.checkClose cash = .error description) :
    w.closeCash list cash = (⟨"CloseValidatedCashFail", description⟩, w) := by
  rw [closeCash, refused]

theorem closeCash_extended {drop id : Nat} (auto : cimCash.depositType = .auto)
    (extended : w.myExtendedDrop = some drop) (found : w.cim.getExtendedDrop cimCash = some id) :
    w.closeCash list (some cimCash) =
      (⟨"CloseValidatedCashSuccess", ""⟩,
        { w with
          cim := w.cim.closeExtendedDrop list id
          myExtendedDrop := none
          myDrop := if w.cim.lastDepositNumber ≠ w.cim.numberAfter id then none
            else w.myDrop }) := by
  have passes : w.checkClose (some cimCash) = .ok cimCash := by
    simp [checkClose, auto, extended, found]
  rw [closeCash, passes]
  simp only [extended, Option.isSome_some, if_true, CimManager.endExtendedDrop, found,
    CimManager.closeExtendedDrop_eq]
  split <;> rfl

theorem closeCash_plain {id : Nat} (auto : cimCash.depositType = .auto)
    (plain : w.myExtendedDrop = none) (drop : w.myDrop = some id) :
    w.closeCash list (some cimCash) =
      (⟨"CloseValidatedCashSuccess", ""⟩,
        { w with cim := w.cim.endDeposit list, myDrop := none }) := by
  have passes : w.checkClose (some cimCash) = .ok cimCash := by
    simp [checkClose, auto, plain, drop]
  rw [closeCash, passes]
  simp only [plain, Option.isSome_none, Bool.false_eq_true, if_false, ite_self]

/-- What a close leaves, with its response. -/
structure Closes (w : PosDrops) (cimCash : CimCash) (closed : Reply × PosDrops) : Prop where
  succeeds : closed.1.response = "CloseValidatedCashSuccess" ↔ w.OpenOn cimCash
  ends : closed.1.response = "CloseValidatedCashSuccess" → w.EndsOne closed.2 cimCash
  field : closed.2.myDrop.isSome ↔ closed.2.cim.deposit.isSome

theorem Inv.closes_refused (inv : Inv list w) (description : String)
    (refused : w.checkClose (some cimCash) = .error description) :
    w.Closes cimCash (w.closeCash list (some cimCash)) ↔ ¬ w.OpenOn cimCash := by
  have fails : "CloseValidatedCashFail" ≠ "CloseValidatedCashSuccess" := by decide
  rw [closeCash_refused refused]
  refine ⟨fun closes on => fails (closes.succeeds.2 on), fun none_open => ?_⟩
  exact ⟨⟨fun same => absurd same fails, fun on => absurd on none_open⟩,
    fun same => absurd same fails, by rw [inv.drop]⟩

theorem Inv.closes_extended (inv : Inv list w) {drop id : Nat} (auto : cimCash.depositType = .auto)
    (extended : w.myExtendedDrop = some drop) (found : w.cim.getExtendedDrop cimCash = some id) :
    w.Closes cimCash (w.closeCash list (some cimCash)) ↔
      w.myDrop = none ∨ ∀ deposit ∈ w.cim.deposits[id]?, deposit.getQty ≤ 0 := by
  obtain ⟨drop_id, cash⟩ := getExtendedDrop_some found
  have on : w.OpenOn cimCash := ⟨id, mem_append_left _ drop_id, cash⟩
  rw [closeCash_extended auto extended found, CimManager.closeExtendedDrop_eq]
  have stored : w.cim.lastDepositNumber ≠ w.cim.numberAfter id ↔
      ¬ ∀ deposit ∈ w.cim.deposits[id]?, deposit.getQty ≤ 0 := by
    rw [numberAfter_ne]
    push Not
    rfl
  constructor
  · intro closes
    have field := closes.field
    by_cases value : w.cim.lastDepositNumber ≠ w.cim.numberAfter id
    · rw [if_pos value] at field
      refine .inl (Option.not_isSome_iff_eq_none.1 fun drop => ?_)
      rw [inv.drop] at drop
      exact absurd (field.2 drop) (by simp)
    · exact .inr (not_not.1 fun some_value => value (stored.2 some_value))
  · intro right
    refine ⟨⟨fun _ => on, fun _ => rfl⟩, fun _ => ⟨id, mem_append_left _ drop_id, cash,
      (perm_cons_erase drop_id).append_right _, by simp⟩, ?_⟩
    rcases right with none_plain | no_value
    · simp [none_plain, ← inv.drop]
    · rw [if_neg fun ne => stored.1 ne no_value, inv.drop]

theorem Inv.closes_plain (inv : Inv list w) {id : Nat} (auto : cimCash.depositType = .auto)
    (plain : w.myExtendedDrop = none) (drop : w.myDrop = some id) :
    w.Closes cimCash (w.closeCash list (some cimCash)) ↔ w.cim.getCimCash id = some cimCash := by
  have running : w.cim.deposit = some id := inv.drop ▸ drop
  have state : w.cim.inDeposit = true := by rw [inv.cim.state, running]; rfl
  rw [closeCash_plain auto plain drop, CimManager.endDeposit_some state running]
  have here : id ∈ w.cim.openDeposits := by simp [CimManager.openDeposits, running]
  constructor
  · intro closes
    obtain ⟨k, -, cash, -, calls⟩ := closes.ends rfl
    have same : id = k := by simpa using calls
    rwa [same]
  · intro cash
    refine ⟨⟨fun _ => ⟨id, here, cash⟩, fun _ => rfl⟩, fun _ => ⟨id, here, cash, ?_, by simp⟩, ?_⟩
    · rw [CimManager.openDeposits, running]
      simp [CimManager.openDeposits, perm_append_singleton]
    · exact Iff.rfl

theorem Inv.closes_iff (inv : Inv list w) :
    w.Closes cimCash (w.closeCash list (some cimCash)) ↔
      (cimCash.depositType = .auto → w.ClosesRight cimCash) := by
  by_cases auto : cimCash.depositType = .auto
  · simp only [auto, true_imp_iff]
    rw [ClosesRight]
    cases extended : w.myExtendedDrop with
    | some drop =>
      cases found : w.cim.getExtendedDrop cimCash with
      | some id => exact inv.closes_extended auto extended found
      | none =>
        rw [inv.closes_refused "Error"
          (by simp [checkClose, auto, extended, found]), inv.openOn_iff, found]
        simp
    | none =>
      cases drop : w.myDrop with
      | some id => exact inv.closes_plain auto extended drop
      | none =>
        rw [inv.closes_refused "No hay depositos para cerrar."
          (by simp [checkClose, auto, extended, drop]), inv.openOn_iff, drop]
        simp
  · rw [inv.closes_refused "Debe seleccionar un cash validado."
      (by simp [checkClose, auto])]
    exact ⟨fun _ is_auto => absurd is_auto auto, fun _ on => auto (inv.openOn_auto on)⟩

theorem Inv.fewer (inv : Inv list w) {w' : PosDrops} (cim : CimManager.Inv list w'.cim)
    (drop : w'.myDrop = w'.cim.deposit)
    (opens : ∀ id ∈ w'.cim.openDeposits, id ∈ w.cim.openDeposits)
    (cashes : ∀ id, w'.cim.getCimCash id = w.cim.getCimCash id) : Inv list w' := by
  refine ⟨cim, drop, fun id open_id cimCash cash => ?_⟩
  rw [cashes] at cash
  exact inv.auto id (opens id open_id) cimCash cash

theorem Inv.endDeposit (inv : Inv list w) :
    Inv list { w with cim := w.cim.endDeposit list, myDrop := none } ∧
      (w.cim.endDeposit list).deposit = none := by
  have cim := inv.cim.endDeposit
  have state := inv.cim.state
  cases running : w.cim.deposit with
  | none =>
    rw [running] at state
    rw [CimManager.endDeposit_idle state] at cim ⊢
    exact ⟨inv.fewer cim running.symm (fun _ open_id => open_id) fun _ => rfl, running⟩
  | some id =>
    rw [running] at state
    rw [CimManager.endDeposit_some state running] at cim ⊢
    refine ⟨inv.fewer cim rfl (fun k open_k => ?_) fun _ => rfl, rfl⟩
    simp only [CimManager.openDeposits, Option.toList_none, append_nil] at open_k
    exact mem_append_left _ open_k

theorem Inv.userLogoff (inv : Inv list w) :
    Inv list (w.userLogoff list) ∧ (w.userLogoff list).cim.deposit = none := by
  rw [PosDrops.userLogoff, endValidatedDrop]
  split
  · exact ⟨⟨inv.endDeposit.1.cim, inv.endDeposit.1.drop, inv.endDeposit.1.auto⟩, inv.endDeposit.2⟩
  · rename_i none_plain
    rw [Option.not_isSome_iff_eq_none, inv.drop] at none_plain
    exact ⟨⟨inv.cim, inv.drop, inv.auto⟩, none_plain⟩

theorem checkClose_ok {cash : Option CimCash} (passes : w.checkClose cash = .ok cimCash) :
    cash = some cimCash ∧ cimCash.depositType = .auto ∧
      (w.myExtendedDrop = none → w.myDrop ≠ none) ∧
      (w.myExtendedDrop ≠ none → w.cim.getExtendedDrop cimCash ≠ none) := by
  revert passes
  unfold checkClose
  split
  · nofun
  · split
    · nofun
    · rename_i auto
      split
      · nofun
      · rename_i a_drop
        split
        · nofun
        · rename_i there
          intro passes
          cases passes
          refine ⟨rfl, not_not.1 auto, fun plain none_plain => a_drop ⟨none_plain, plain⟩,
            fun extended missing => there ⟨Option.isSome_iff_ne_none.2 extended, missing⟩⟩

theorem Inv.closeCash (inv : Inv list w) {cash : Option CimCash}
    (right : ∀ cimCash ∈ cash, cimCash.depositType = .auto → w.ClosesRight cimCash) :
    Inv list (w.closeCash list cash).2 := by
  cases checked : w.checkClose cash with
  | error description =>
    rw [closeCash_refused checked]
    exact inv
  | ok cimCash =>
    obtain ⟨rfl, auto, plain, extended⟩ := checkClose_ok checked
    have right := right cimCash rfl auto
    rw [ClosesRight] at right
    cases is_extended : w.myExtendedDrop with
    | some drop =>
      obtain ⟨id, found⟩ := Option.ne_none_iff_exists'.1 (extended (by simp [is_extended]))
      have cim := inv.cim.endExtendedDrop cimCash
      have closes := (inv.closes_extended auto is_extended found).2 (by
        rwa [is_extended, found] at right)
      rw [CimManager.endExtendedDrop, found] at cim
      rw [closeCash_extended auto is_extended found] at closes ⊢
      simp only [CimManager.closeExtendedDrop_eq] at cim closes ⊢
      refine inv.fewer cim ?_ (fun k open_k => ?_) fun _ => rfl
      · simp only
        split
        · rename_i stored
          have field := closes.field
          rw [if_pos stored] at field
          exact (Option.not_isSome_iff_eq_none.1 fun running =>
            absurd (field.2 running) (by simp)).symm
        · exact inv.drop
      · rcases mem_append.1 open_k with drop | running
        · exact mem_append_left _ (mem_of_mem_erase drop)
        · exact mem_append_right _ running
    | none =>
      obtain ⟨id, drop⟩ := Option.ne_none_iff_exists'.1 (plain is_extended)
      rw [closeCash_plain auto is_extended drop]
      exact ⟨inv.endDeposit.1.cim, inv.endDeposit.1.drop, inv.endDeposit.1.auto⟩

theorem Inv.sameDeposits (inv : Inv list w) {cim : CimManager}
    (same : CimManager.SameDeposits w.cim cim) : Inv list { w with cim := cim } := by
  have kept := inv.cim.sameDeposits same
  have cashes := same.getCimCash
  obtain ⟨deposits, saved, stacked, rfl, -⟩ := same
  exact inv.fewer kept inv.drop (fun _ open_id => open_id) cashes

theorem Inv.opened (inv : Inv list w) {w' : PosDrops} (cim : CimManager.Inv list w'.cim)
    (starts : CimManager.Starts cimCash w.cim w'.cim) (auto : cimCash.depositType = .auto)
    (drop : w'.myDrop = w'.cim.deposit) : Inv list w' := by
  refine ⟨cim, drop, fun id open_id cash is_cash => ?_⟩
  rcases mem_append.1 (starts.opens.mem_iff.1 open_id) with before | new
  · rw [starts.keeps id (inv.cim.ledger.open_lt before)] at is_cash
    exact inv.auto id before cash is_cash
  · rw [mem_singleton.1 new, starts.own] at is_cash
    cases is_cash
    exact auto

theorem depositor_some (user : w.user.isSome) (params : OpenParams) :
    ∃ depositor, w.depositor params = some depositor := by
  obtain ⟨user, logged⟩ := Option.isSome_iff_exists.1 user
  rw [depositor, logged]
  split
  · cases params.extendedUser with
    | none => exact ⟨user, rfl⟩
    | some extendedUser => exact ⟨extendedUser, rfl⟩
  · exact ⟨user, rfl⟩

theorem checkOpen_ok {params : OpenParams} (passes : w.checkOpen params = .ok cimCash) :
    params.cimCash = some cimCash ∧ cimCash.depositType = .auto ∧
      (params.extended = false → w.myDrop = none) := by
  revert passes
  unfold checkOpen
  split
  · nofun
  · split
    · nofun
    · rename_i cash found
      split
      · nofun
      · rename_i auto
        split
        · nofun
        · rename_i free
          intro passes
          have same : cash = cimCash := by
            repeat' split at passes
            all_goals first | cases passes; rfl | cases passes
          subst same
          refine ⟨found, not_not.1 auto, fun plain => ?_⟩
          exact Option.not_isSome_iff_eq_none.1 fun drop => free ⟨plain, drop⟩

theorem Inv.openCash (inv : Inv list w) (user : w.user.isSome) {params : OpenParams}
    (quiet : ∀ cimCash ∈ params.cimCash, ∀ a ∈ list cimCash, params.opening a ≠ .raises) :
    Inv list (w.openCash list processMessage params).2 ∧
      ((w.openCash list processMessage params).1.response ∈ errorResponses →
        w.SameDrops (w.openCash list processMessage params).2) := by
  have succeeds : "OpenValidatedCashSuccess" ∉ errorResponses := by decide
  obtain ⟨depositor, of_user⟩ := depositor_some user params
  rw [PosDrops.openCash]
  cases checked : w.checkOpen params with
  | error description => exact ⟨inv, fun _ => ⟨rfl, rfl⟩⟩
  | ok cimCash =>
    obtain ⟨found, auto, free⟩ := checkOpen_ok checked
    have quiet := quiet cimCash found
    simp only [of_user]
    split
    · exact ⟨inv, fun _ => ⟨rfl, rfl⟩⟩
    · split
      · have cim := inv.cim.startExtendedDrop (some depositor) cimCash params.reference []
          params.applyTo params.openTime (.inr quiet)
        have starts := CimManager.starts_extendedDrop (s := w.cim) quiet depositor
          params.reference [] params.applyTo params.openTime
        rw [CimManager.startExtendedDrop_quiet quiet] at cim starts ⊢
        exact ⟨inv.opened cim starts auto inv.drop, fun error => absurd error succeeds⟩
      · rename_i plain
        have idle : w.cim.inDeposit = false := by
          rw [inv.cim.state, ← inv.drop, free (Bool.eq_false_iff.2 plain)]
          rfl
        have cim := @CimManager.Inv.startDeposit list w.cim inv.cim (some depositor) cimCash .auto
          params.openTime params.opening (.inr idle)
        have starts := inv.cim.starts_deposit idle depositor cimCash .auto params.openTime
          params.opening
        rw [CimManager.startDeposit_eq idle] at cim starts ⊢
        simp only [CimManager.openAcceptors_fst quiet, if_true] at cim starts ⊢
        have opened := @Inv.opened _ _ _ inv
          { w with cim := _, myDrop := some w.cim.deposits.length } cim starts auto rfl
        exact ⟨opened.sameDeposits (.modify _ w.cim.deposits.length fun _ => rfl),
          fun error => absurd error succeeds⟩

theorem Inv.closeCash_drop (inv : Inv list w) (cash : Option CimCash) :
    (w.closeCash list cash).2.myDrop = none ∨
      (w.closeCash list cash).2.myDrop = (w.closeCash list cash).2.cim.deposit := by
  cases checked : w.checkClose cash with
  | error description =>
    rw [closeCash_refused checked]
    exact .inr inv.drop
  | ok cimCash =>
    obtain ⟨rfl, auto, plain, extended⟩ := checkClose_ok checked
    cases is_extended : w.myExtendedDrop with
    | some drop =>
      obtain ⟨id, found⟩ := Option.ne_none_iff_exists'.1 (extended (by simp [is_extended]))
      rw [closeCash_extended auto is_extended found, CimManager.closeExtendedDrop_eq]
      simp only
      split
      · exact .inl rfl
      · exact .inr inv.drop
    | none =>
      obtain ⟨id, drop⟩ := Option.ne_none_iff_exists'.1 (plain is_extended)
      rw [closeCash_plain auto is_extended drop]
      exact .inl rfl

end

/-! ## One request -/

section

variable {list : CimCash → List AcceptorSettings} {processMessage : CimManagerExcept → String}
  {telesupUserName telesupPassword : String} {users : String → String → Option User}
  {s : Session DropParams PosDrops} {request : DropRequest}

/-- What a request that passes answers and leaves. -/
def answer (list : CimCash → List AcceptorSettings) (processMessage : CimManagerExcept → String)
    (telesupUserName telesupPassword : String) (users : String → String → Option User)
    (request : DropRequest) (w : PosDrops) : Reply × PosDrops :=
  match request with
  | .startConnection user password =>
    (if telesupUserName = user ∧ telesupPassword = password then ⟨"ConnexionSuccess", ""⟩
      else ⟨"Error", "Datos de conexion erroneos."⟩, w)
  | .endConnection => (⟨"ConnectionEnded", ""⟩, w)
  | .userLogin user password =>
    match users user password with
    | some user =>
      (⟨if user.userId.toNat ≠ 0 then "LoginSuccess" else "LoginFail", ""⟩,
        { w with user := some user })
    | none => (⟨"LoginFail", "Nombre de usuario o clave incorrecto."⟩, w)
  | .userLogoff => (⟨"LogoffSuccess", ""⟩, w.userLogoff list)
  | .openCash params => w.openCash list processMessage params
  | .closeCash cimCash => w.closeCash list cimCash

theorem serve_passes
    (passes : s.refusal (services list processMessage telesupUserName telesupPassword users)
      request.toRequest = none) :
    let served := (s.serve (services list processMessage telesupUserName telesupPassword users)
      request.toRequest).2
    let answered := answer list processMessage telesupUserName telesupPassword users request s.world
    served.world = answered.2 ∧ served.telesupRunning = s.telesupRunning ∧
      served.sent =
        s.sent ++ [some ⟨request.command.messageName, answered.1.response,
          answered.1.description⟩] := by
  have named : sameName request.toRequest.messageName request.command.messageName = true := by
    cases request <;> exact sameName_refl _
  rw [Session.serve_command passes named]
  cases request with
  | startConnection user password =>
    simp only [DropRequest.command, Session.handle, Session.startConnection, answer]
    split
    · rename_i configured
      simp only [DropRequest.toRequest, services] at configured
      rw [if_pos configured]
      exact ⟨rfl, rfl, rfl⟩
    · rename_i other
      simp only [DropRequest.toRequest, services] at other
      rw [if_neg other]
      exact ⟨rfl, rfl, rfl⟩
  | endConnection => exact ⟨rfl, rfl, rfl⟩
  | userLogin user password =>
    simp only [DropRequest.command, Session.handle, Session.userLogin, answer,
      DropRequest.toRequest, services]
    cases users user password with
    | none => exact ⟨rfl, rfl, rfl⟩
    | some found =>
      simp only [Session.reading]
      split
      · exact ⟨rfl, rfl, rfl⟩
      · exact ⟨rfl, rfl, rfl⟩
  | userLogoff => exact ⟨rfl, rfl, rfl⟩
  | openCash params => exact ⟨rfl, rfl, rfl⟩
  | closeCash cash => exact ⟨rfl, rfl, rfl⟩

theorem refusal_openCash {params : OpenParams}
    (passes : s.refusal (services list processMessage telesupUserName telesupPassword users)
      (DropRequest.openCash params).toRequest = none) : s.world.user.isSome := by
  have no_start : sameName Command.openCash.messageName Command.startConnection.messageName
      = false := by decide +kernel
  have no_end : sameName Command.openCash.messageName Command.endConnection.messageName
      = false := by decide +kernel
  have no_login : sameName Command.openCash.messageName Command.userLogin.messageName
      = false := by decide +kernel
  simp only [Session.refusal, DropRequest.toRequest, DropRequest.command, no_start, no_end,
    no_login, services] at passes
  by_contra logged_out
  simp [Bool.eq_false_iff.2 logged_out] at passes
  split at passes <;> cases passes

/-- What a session keeps: no plain drop is open once the connection has ended. -/
structure Kept (list : CimCash → List AcceptorSettings) (s : Session DropParams PosDrops) :
    Prop where
  world : Inv list s.world
  ended : s.telesupRunning = false → s.world.cim.deposit = none

theorem servesDrops_refused {services : Services DropParams PosDrops} {error : String}
    (refused : s.refusal services request.toRequest = some error) :
    ServesDrops services s request := by
  rw [ServesDrops, Session.serve_refused refused]
  exact ⟨_, _, rfl, rfl, fun _ => ⟨rfl, rfl⟩, fun passes => nomatch refused.symm.trans passes⟩

/-- A request that passes is served as it should be if its handler does what it should. -/
theorem servesDrops_iff
    (passes : s.refusal (services list processMessage telesupUserName telesupPassword users)
      request.toRequest = none) :
    let answered := answer list processMessage telesupUserName telesupPassword users request s.world
    ServesDrops (services list processMessage telesupUserName telesupPassword users) s request ↔
      (answered.1.response ∈ errorResponses → s.world.SameDrops answered.2) ∧
        Does s.world request answered.1.response answered.2 := by
  obtain ⟨world, -, sent⟩ := serve_passes passes
  constructor
  · rintro ⟨response, w', same, said, error, does⟩
    rw [world] at same
    rw [sent] at said
    have is_said := Option.some.inj (List.cons.inj (append_cancel_left said)).1
    rw [← same, ← is_said] at error does
    exact ⟨error, does passes⟩
  · rintro ⟨error, does⟩
    exact ⟨_, _, world, sent, error, fun _ => does⟩

theorem closeCash_error {w : PosDrops} {cash : Option CimCash}
    (error : (w.closeCash list cash).1.response ∈ errorResponses) :
    w.SameDrops (w.closeCash list cash).2 := by
  have succeeds : "CloseValidatedCashSuccess" ∉ errorResponses := by decide
  revert error
  rw [closeCash]
  cases w.checkClose cash with
  | error description => exact fun _ => ⟨rfl, rfl⟩
  | ok cimCash => exact fun error => absurd error succeeds

theorem Inv.answer (inv : Inv list s.world) {taken : Bool}
    (quiet : QuietDrops list (.request request taken))
    (passes : s.refusal (services list processMessage telesupUserName telesupPassword users)
      request.toRequest = none)
    (right : ∀ cimCash, request = .closeCash (some cimCash) → cimCash.depositType = .auto →
      s.world.ClosesRight cimCash) :
    let answered := PosDrops.answer list processMessage telesupUserName telesupPassword users
      request s.world
    Inv list answered.2 ∧ (answered.1.response ∈ errorResponses → s.world.SameDrops answered.2) ∧
      Does s.world request answered.1.response answered.2 := by
  cases request with
  | startConnection user password => exact ⟨inv, fun _ => ⟨rfl, rfl⟩, trivial⟩
  | endConnection => exact ⟨inv, fun _ => ⟨rfl, rfl⟩, trivial⟩
  | userLogin user password =>
    rw [PosDrops.answer]
    cases users user password with
    | none => exact ⟨inv, fun _ => ⟨rfl, rfl⟩, trivial⟩
    | some found => exact ⟨⟨inv.cim, inv.drop, inv.auto⟩, fun _ => ⟨rfl, rfl⟩, trivial⟩
  | userLogoff =>
    have succeeds : "LogoffSuccess" ∉ errorResponses := by decide
    exact ⟨inv.userLogoff.1, fun error => absurd error succeeds, inv.userLogoff.2⟩
  | openCash params =>
    obtain ⟨opened, error⟩ := inv.openCash (refusal_openCash passes) quiet
    exact ⟨opened, error, trivial⟩
  | closeCash cash =>
    have right : ∀ cimCash ∈ cash, cimCash.depositType = .auto → s.world.ClosesRight cimCash := by
      rintro cimCash ⟨⟩
      exact right cimCash rfl
    refine ⟨inv.closeCash right, closeCash_error, ?_⟩
    cases cash with
    | none => trivial
    | some cimCash =>
      have closes := inv.closes_iff.2 (right cimCash rfl)
      exact ⟨closes.succeeds, closes.ends⟩

/-- A request whose close is right keeps the invariant and is served as it should be. -/
theorem Inv.serve (inv : Inv list s.world) {taken : Bool}
    (quiet : QuietDrops list (.request request taken))
    (right : ∀ cimCash, request = .closeCash (some cimCash) →
      s.refusal (services list processMessage telesupUserName telesupPassword users)
        request.toRequest = none →
      cimCash.depositType = .auto → s.world.ClosesRight cimCash) :
    let services := services list processMessage telesupUserName telesupPassword users
    let served := (s.serve services request.toRequest).2
    Inv list served.world ∧ served.telesupRunning = s.telesupRunning ∧
      ServesDrops services s request := by
  cases refused : s.refusal
      (services list processMessage telesupUserName telesupPassword users) request.toRequest with
  | some error =>
    refine ⟨?_, ?_, servesDrops_refused refused⟩
    · rw [Session.serve_refused refused]
      exact inv
    · rw [Session.serve_refused refused]
      rfl
  | none =>
    obtain ⟨world, running, -⟩ := serve_passes refused
    obtain ⟨kept, does⟩ := inv.answer quiet refused fun cimCash is_close =>
      right cimCash is_close refused
    refine ⟨?_, running, (servesDrops_iff refused).2 does⟩
    rw [world]
    exact kept

/-! ## One event -/

/-- A request that is read leaves what was served, or that with the connection closed. -/
theorem step_request {services : Services DropParams PosDrops} (running : s.telesupRunning = true)
    (taken : Bool) :
    dropStep list services (.request request taken) s = (s.serve services request.toRequest).2 ∨
      dropStep list services (.request request taken) s =
        (s.serve services request.toRequest).2.closeConnection services := by
  rw [dropStep, Session.step, if_pos running]
  simp only
  split
  · exact .inl rfl
  · exact .inr rfl

theorem Inv.closeConnection (inv : Inv list s.world) :
    Kept list (s.closeConnection
      (services list processMessage telesupUserName telesupPassword users)) :=
  ⟨inv.userLogoff.1, fun _ => inv.userLogoff.2⟩

theorem Kept.depositTimer (kept : Kept list s) :
    Kept list { s with world := s.world.depositTimer list s.telesupRunning } := by
  obtain ⟨timed, none_open⟩ := kept.world.endDeposit
  refine ⟨⟨timed.cim, ?_, timed.auto⟩, fun _ => none_open⟩
  simp only [PosDrops.depositTimer, CimManager.closeTimerHandler, none_open]
  split
  · rfl
  · rename_i ended
    rw [kept.world.drop, kept.ended (Bool.eq_false_iff.2 ended)]

theorem Kept.step (kept : Kept list s) {event : DropEvent} (quiet : QuietDrops list event)
    (right : RightDrops (services list processMessage telesupUserName telesupPassword users) s
      event) :
    Kept list (dropStep list
      (services list processMessage telesupUserName telesupPassword users) event s) := by
  cases event with
  | accept =>
    rw [dropStep]
    split
    · exact ⟨kept.world, nofun⟩
    · exact kept
  | request request taken =>
    by_cases running : s.telesupRunning = true
    · obtain ⟨world, goes_on, -⟩ := kept.world.serve quiet fun cimCash is_close passes => by
        subst is_close
        exact right running passes
      rcases step_request running taken with same | closed
      · rw [same]
        exact ⟨world, fun ended => nomatch ended.symm.trans (goes_on.trans running)⟩
      · rw [closed]
        exact world.closeConnection
    · rw [dropStep, Session.step, if_neg running]
      exact kept
  | lost =>
    rw [dropStep, Session.step]
    split
    · exact kept.world.closeConnection
    · exact kept
  | timerExpired =>
    rw [dropStep, Session.step]
    split
    · exact kept
    · split
      · exact kept.world.closeConnection
      · exact kept
  | inactivityTimer getWarningTime =>
    rw [dropStep]
    split
    · exact kept.depositTimer
    · exact kept
  | closeTimer => exact kept.depositTimer
  | billAccepted bill =>
    have same := @CimManager.SameDeposits.onBillAccepted list s.world.cim bill
    have deposit : (s.world.cim.onBillAccepted list bill).deposit = s.world.cim.deposit := by
      obtain ⟨deposits, saved, stacked, eq, -⟩ := same
      rw [eq]
    exact ⟨kept.world.sameDeposits same, fun ended => deposit.trans (kept.ended ended)⟩

theorem userLogoff_field {w : PosDrops} (drop : w.myDrop = none ∨ w.myDrop = w.cim.deposit)
    (field : (w.userLogoff list).myDrop.isSome ↔ (w.userLogoff list).cim.deposit.isSome) :
    w.myDrop.isSome ↔ w.cim.deposit.isSome := by
  rcases drop with cleared | right
  · rw [PosDrops.userLogoff, endValidatedDrop, if_neg (by simp [cleared])] at field
    exact field
  · rw [right]

theorem Inv.closesRight (inv : Inv list s.world) {cimCash : CimCash} {taken : Bool}
    (running : s.telesupRunning = true)
    (sound : SoundDrops (services list processMessage telesupUserName telesupPassword users) s list
      (.request (.closeCash (some cimCash)) taken))
    (passes : s.refusal (services list processMessage telesupUserName telesupPassword users)
      (DropRequest.closeCash (some cimCash)).toRequest = none)
    (auto : cimCash.depositType = .auto) : s.world.ClosesRight cimCash := by
  obtain ⟨field, -, served⟩ := sound
  obtain ⟨world, -, -⟩ := serve_passes passes
  obtain ⟨-, succeeds, ends⟩ := (servesDrops_iff passes).1 (served running)
  refine inv.closes_iff.1 ⟨succeeds, ends, ?_⟩ auto
  rcases step_request running taken with same | closed
  · rw [same, world] at field
    exact field
  · rw [closed] at field
    simp only [Session.closeConnection, world] at field
    exact userLogoff_field (inv.closeCash_drop (some cimCash)) field

theorem Kept.sound_iff (kept : Kept list s) {event : DropEvent} (quiet : QuietDrops list event) :
    SoundDrops (services list processMessage telesupUserName telesupPassword users) s list event ↔
      RightDrops (services list processMessage telesupUserName telesupPassword users) s event := by
  constructor
  · intro sound
    match event with
    | .request (.closeCash (some cimCash)) taken =>
      exact fun running passes auto => kept.world.closesRight running sound passes auto
    | .request (.closeCash none) _ | .request (.startConnection ..) _ | .request .endConnection _
    | .request (.userLogin ..) _ | .request .userLogoff _ | .request (.openCash _) _
    | .accept | .lost | .timerExpired | .inactivityTimer _ | .closeTimer | .billAccepted _ =>
      trivial
  · intro right
    have next := kept.step quiet right
    refine ⟨by rw [next.world.drop], next.ended, ?_⟩
    cases event with
    | request request taken =>
      intro running
      refine (kept.world.serve quiet fun cimCash is_close passes => ?_).2.2
      subst is_close
      exact right running passes
    | _ => trivial

end

/-! ## A whole run -/

/-- No drop is open and no connection was accepted. -/
def idle (lastDepositNumber nextDepositNumber : Nat) : Session DropParams PosDrops where
  telesupRunning := false
  connectionStarted := false
  message := none
  served := []
  sent := []
  world := ⟨.new lastDepositNumber nextDepositNumber, none, none, none⟩

theorem Kept.idle (list : CimCash → List AcceptorSettings)
    (lastDepositNumber nextDepositNumber : Nat) :
    Kept list (idle lastDepositNumber nextDepositNumber) where
  world := ⟨.start _ _, rfl, fun _ open_id => nomatch open_id⟩
  ended _ := rfl

end PosDrops

open PosDrops in
/-- In every run where no acceptor raises, each event does what it should exactly as long as each
close finds the fields telling of its drop. -/
theorem run_drops (list : CimCash → List AcceptorSettings)
    (processMessage : CimManagerExcept → String) (telesupUserName telesupPassword : String)
    (users : String → String → Option User) (lastDepositNumber nextDepositNumber : Nat)
    (events : List DropEvent) :
    let services := services list processMessage telesupUserName telesupPassword users
    let start := idle lastDepositNumber nextDepositNumber
    Trace.Always (dropStep list services) (fun _ => QuietDrops list) events start →
      (Trace.Always (dropStep list services) (fun s => SoundDrops services s list) events start ↔
        Trace.Always (dropStep list services) (fun s => RightDrops services s) events start) :=
  fun quiet => Trace.Always.congr_of_invariant (Kept list)
    (fun kept quiet => kept.sound_iff quiet) (fun kept quiet right => kept.step quiet right)
    (.idle list lastDepositNumber nextDepositNumber) quiet

/-! ## Two sessions -/

namespace PosDrops

/-- The one user of the box. -/
def theUser (user password : String) : Option User :=
  if user = "1111" ∧ password = "5231" then some ⟨1⟩ else none

/-- A box whose cashes have an acceptor each. -/
def oneUserDrops : Services DropParams PosDrops :=
  services CimManager.twoCashes (fun _ => "") "pos" "1234" theUser

def openParams (cimCashId : Int) (extended : Bool) : OpenParams where
  cimCash := some (CimManager.autoCash cimCashId)
  extended := extended
  extendedUser := none
  hasPermission := true
  instaDrop := false
  doorDeleted := false
  doorOpen := false
  stackersFull := false
  useCashReference := false
  reference := none
  applyTo := []
  stackerRemoved _ := false
  openTime := 0
  opening _ := .starts

/-- The connection is started and the user logged in. -/
def loggedIn : List DropEvent :=
  [.accept, .request (.startConnection "pos" "1234") true,
    .request (.userLogin "1111" "5231") true]

def closeOf (cimCashId : Int) : DropEvent :=
  .request (.closeCash (some (CimManager.autoCash cimCashId))) true

/-- A plain drop with a bill is closed, an extended one is, and a plain one ends with the
logoff. -/
def oneAfterTheOther : List DropEvent :=
  loggedIn ++ [.request (.openCash (openParams 1 false)) true,
    .billAccepted ⟨CimManager.validatorOne, none, 5, 1⟩, closeOf 1,
    .request (.openCash (openParams 2 true)) true,
    .billAccepted ⟨CimManager.validatorTwo, none, 10, 1⟩, closeOf 2,
    .request (.openCash (openParams 1 false)) true, .request .userLogoff true]

/-- A plain drop is open on one cash and an extended one on the other. -/
def bothOpen : List DropEvent :=
  loggedIn ++ [.request (.openCash (openParams 1 false)) true,
    .request (.openCash (openParams 2 true)) true]

end PosDrops

open PosDrops in
/-- The session of one drop after the other does what it should. -/
theorem run_drops_oneAfterTheOther :
    Trace.Always (dropStep CimManager.twoCashes oneUserDrops)
      (fun s => SoundDrops oneUserDrops s CimManager.twoCashes) oneAfterTheOther (idle 0 0) :=
  (run_drops CimManager.twoCashes (fun _ => "") "pos" "1234" theUser 0 0 oneAfterTheOther
    (by decide +kernel)).2 (by decide +kernel)

open PosDrops in
/-- With a drop of either kind open, the plain one cannot be closed. -/
theorem run_drops_bothOpen :
    ¬ ∀ events,
      Trace.Always (dropStep CimManager.twoCashes oneUserDrops)
        (fun _ => QuietDrops CimManager.twoCashes) events (idle 0 0) →
      Trace.Always (dropStep CimManager.twoCashes oneUserDrops)
        (fun s => SoundDrops oneUserDrops s CimManager.twoCashes) events (idle 0 0) := by
  intro sound
  have closed := ((Trace.Always.append_iff bothOpen [closeOf 1] (idle 0 0)).1
    (sound (bothOpen ++ [closeOf 1]) (by decide +kernel))).2.1
  obtain ⟨-, succeeds, -⟩ := (servesDrops_iff (by decide +kernel)).1 (closed.2.2 (by decide +kernel))
  exact absurd (succeeds.2 ⟨0, by decide +kernel, by decide +kernel⟩) (by decide +kernel)

end CimArm
