import CimArm.Lib.Trace
import Mathlib.Data.List.Forall2

/-!
# The point of sale's connection

`POSAcceptor` serves one connection at a time.  A request names a command; until the
connection is started only `startConnection` passes, and then, until a user is logged in, only
`userLogin` and `endConnection`.  Each command writes its response to one message buffer, which
is sent when its handler returns.  A name that is no command passes as well, and then the
buffer is sent as the request before has left it.

* `run_answers`: in every run whose requests are refused or name a command, the gate holds and
  each request is answered once, under its own name.
-/

namespace CimArm

open List

/-- The commands, in the order in which a request is compared with them. -/
inductive Command : Type
  | startConnection | endConnection | userLogin | userLogoff | getStatus | getDropInfo
  | openCash | closeCash | openManualCash | endOfDay | dropsReport | depositsReport
  | endDayReport
  deriving DecidableEq

namespace Command

/-- The name of a command in requests and responses. -/
def messageName : Command → String
  | startConnection => "startConnection"
  | endConnection => "endConnection"
  | userLogin => "userLogin"
  | userLogoff => "userLogoff"
  | getStatus => "getStatus"
  | getDropInfo => "getDropInfo"
  | openCash => "openValidatedCash"
  | closeCash => "closeValidatedCash"
  | openManualCash => "openManualCash"
  | endOfDay => "endOfDay"
  | dropsReport => "dropsReport"
  | depositsReport => "depositsReport"
  | endDayReport => "endDayReport"

def all : List Command :=
  [startConnection, endConnection, userLogin, userLogoff, getStatus, getDropInfo, openCash,
    closeCash, openManualCash, endOfDay, dropsReport, depositsReport, endDayReport]

end Command

/-- `strcasecmp` finds two names equal. -/
def sameName (a b : String) : Bool := a.toLower == b.toLower

theorem sameName_iff {a b : String} : sameName a b = true ↔ a.toLower = b.toLower := beq_iff_eq

theorem sameName_iff_toList {a b : String} :
    sameName a b = true ↔ a.toList.map Char.toLower = b.toList.map Char.toLower := by
  rw [sameName_iff, ← String.toList_inj]
  change (a.map Char.toLower).toList = (b.map Char.toLower).toList ↔ _
  rw [String.toList_map, String.toList_map]

theorem sameName_refl (a : String) : sameName a a = true := sameName_iff.2 rfl

theorem Command.mem_all (command : Command) : command ∈ Command.all := by
  cases command <;> decide

theorem Command.nodup_all : Command.all.Nodup := by decide

theorem Command.messageName_injective : ∀ a ∈ Command.all, ∀ b ∈ Command.all,
    sameName a.messageName b.messageName = true → a = b := by
  simp only [sameName_iff_toList]
  decide +kernel

/-- A well-formed request: the name of its message, and its parameters, short enough for the
buffers they are copied to. -/
structure Request (A : Type) : Type where
  messageName : String
  user : String
  password : String
  params : A

/-- A response: the name of its message, what it says, and the rest of it. -/
structure Response : Type where
  messageName : String
  response : String
  description : String
  deriving DecidableEq

/-- What a handler adds to its response. -/
structure Reply : Type where
  response : String
  description : String

/-- Why `logInUser` raises. -/
inductive LoginExcept : Type
  | inactiveUser | other

/-- What the acceptor calls.  `logInUser` may raise, and so may the other handlers (`none`),
having changed the world or not. -/
structure Services (A W : Type) : Type where
  telesupUserName : String
  telesupPassword : String
  userLoggedIn : W → Bool
  logInUser : String → String → W → Except LoginExcept Nat × W
  perform : Command → A → W → Option Reply × W
  /-- Ends the validated drop and logs the user off when the connection is closed. -/
  closeConnection : W → W

/-- The state of the acceptor: `myMessage` is the message buffer, and the requests read and
the messages sent are those of the connection. -/
structure Session (A W : Type) : Type where
  telesupRunning : Bool
  connectionStarted : Bool
  message : Option Response
  served : List (Request A)
  sent : List (Option Response)
  world : W

namespace Session

variable {A W : Type}

/-- A connection just accepted; the buffer holds what was sent on the one before. -/
def accept (message : Option Response) (world : W) : Session A W :=
  ⟨true, false, message, [], [], world⟩

def sendMessage (self : Session A W) : Session A W :=
  { self with sent := self.sent ++ [self.message] }

def sendErrorMessage (self : Session A W) (aMsgName aMsgError : String) : Session A W :=
  { self with message := some ⟨aMsgName, "Error", aMsgError⟩ }.sendMessage

/-- The response of a command. -/
def respond (self : Session A W) (command : Command) (reply : Reply) : Session A W :=
  { self with message := some ⟨command.messageName, reply.response, reply.description⟩ }

section

variable (services : Services A W)

def startConnection (request : Request A) (self : Session A W) : Session A W :=
  if services.telesupUserName = request.user ∧ services.telesupPassword = request.password then
    { self with connectionStarted := true }.respond .startConnection ⟨"ConnexionSuccess", ""⟩
  else self.respond .startConnection ⟨"Error", "Datos de conexion erroneos."⟩

def endConnection (self : Session A W) : Session A W :=
  { self with connectionStarted := false }.respond .endConnection ⟨"ConnectionEnded", ""⟩

def userLogin (request : Request A) (self : Session A W) : Session A W :=
  let called := services.logInUser request.user request.password self.world
  let self := { self with world := called.2 }
  match called.1 with
  | .ok userId =>
    if userId ≠ 0 then self.respond .userLogin ⟨"LoginSuccess", ""⟩
    else self.respond .userLogin ⟨"LoginFail", ""⟩
  | .error .inactiveUser =>
    self.respond .userLogin ⟨"LoginFail", "Usted no es un usuario activo."⟩
  | .error .other =>
    self.respond .userLogin ⟨"LoginFail", "Nombre de usuario o clave incorrecto."⟩

/-- The handler of a command; whether it returns. -/
def handle (command : Command) (request : Request A) (self : Session A W) :
    Bool × Session A W :=
  match command with
  | .startConnection => (true, self.startConnection services request)
  | .endConnection => (true, self.endConnection)
  | .userLogin => (true, self.userLogin services request)
  | _ =>
    let performed := services.perform command request.params self.world
    let self := { self with world := performed.2 }
    match performed.1 with
    | some reply => (true, self.respond command reply)
    | none => (false, self)

/-- `processMessageRequest` compares the name with each command in turn and calls the handlers
of those that match, until one raises. -/
def processMessageRequest (request : Request A) :
    List Command → Session A W → Bool × Session A W
  | [], self => (true, self)
  | command :: rest, self =>
    if sameName request.messageName command.messageName then
      match self.handle services command request with
      | (true, self) => processMessageRequest request rest self
      | (false, self) => (false, self)
    else processMessageRequest request rest self

/-- Why a request does not pass. -/
def refusal (request : Request A) (self : Session A W) : Option String :=
  if self.connectionStarted = false then
    if sameName request.messageName Command.startConnection.messageName then none
    else some "Debe iniciar la conexion."
  else if sameName request.messageName Command.endConnection.messageName then none
  else if services.userLoggedIn self.world = false then
    if sameName request.messageName Command.userLogin.messageName then none
    else some "Debe realizar el login de usuario."
  else if sameName request.messageName Command.userLogin.messageName then
    some "Ya existe un usuario logueado."
  else none

/-- One turn of the loop with a request that was read; whether it goes on. -/
def serve (request : Request A) (self : Session A W) : Bool × Session A W :=
  let self := { self with served := self.served ++ [request] }
  match self.refusal services request with
  | some error => (true, self.sendErrorMessage request.messageName error)
  | none =>
    match self.processMessageRequest services request Command.all with
    | (true, self) =>
      (!sameName request.messageName Command.endConnection.messageName, self.sendMessage)
    | (false, self) => (true, self.sendErrorMessage request.messageName "Comando desconocido.")

/-- The end of the connection. -/
def closeConnection (self : Session A W) : Session A W :=
  { self with
    telesupRunning := false
    connectionStarted := false
    world := services.closeConnection self.world }

end

/-- What happens to a connection: a request is read and its response is taken or not, the
connection is lost, or something changes elsewhere. -/
inductive Event (A W : Type) : Type
  | request (request : Request A) (taken : Bool)
  | lost
  | elsewhere (change : W → W)

/-- One event; a connection that has ended reads no more requests. -/
def step (services : Services A W) (event : Event A W) (self : Session A W) : Session A W :=
  match event with
  | .elsewhere change => { self with world := change self.world }
  | .lost => if self.telesupRunning then self.closeConnection services else self
  | .request request taken =>
    if self.telesupRunning then
      let (goesOn, self) := self.serve services request
      if goesOn && taken then self else self.closeConnection services
    else self

/-! ## What a connection should do -/

section

variable (services : Services A W)

/-- Whether a name is that of a command. -/
def Known (name : String) : Prop := ∃ command ∈ Command.all, sameName name command.messageName

instance (name : String) : Decidable (Known name) := inferInstanceAs (Decidable (∃ _ ∈ _, _))

/-- A request that starts the connection. -/
def Starts (request : Request A) : Prop :=
  sameName request.messageName Command.startConnection.messageName ∧
    services.telesupUserName = request.user ∧ services.telesupPassword = request.password

/-- A request has no effect. -/
def Untouched (s s' : Session A W) : Prop :=
  s'.world = s.world ∧ s'.connectionStarted = s.connectionStarted

/-- A response answers a request: it carries its name. -/
def Answers (request : Request A) (message : Option Response) : Prop :=
  ∃ response, message = some response ∧ sameName request.messageName response.messageName

/-- What should hold of a connection before a request and after it. -/
structure Serves (s : Session A W) (request : Request A) : Prop where
  started : s.connectionStarted = true → ∃ before ∈ s.served, Starts services before
  answered : List.Forall₂ Answers s.served s.sent
  closed : s.connectionStarted = false →
    sameName request.messageName Command.startConnection.messageName = false →
      Untouched s (s.serve services request).2
  loggedOut : s.connectionStarted = true → services.userLoggedIn s.world = false →
    sameName request.messageName Command.userLogin.messageName = false →
    sameName request.messageName Command.endConnection.messageName = false →
      Untouched s (s.serve services request).2
  once : ∃ response, (s.serve services request).2.sent = s.sent ++ [some response] ∧
    sameName request.messageName response.messageName ∧
    (s.refusal services request ≠ none ∨ ¬ Known request.messageName →
      response.response = "Error")

/-- A connection that still runs serves the next request as it should. -/
def Sound (s : Session A W) : Event A W → Prop
  | .request request _ => s.telesupRunning = true → s.Serves services request
  | _ => True

/-- A request is refused or names a command. -/
def Handled (s : Session A W) : Event A W → Prop
  | .request request _ => s.telesupRunning = true →
      s.refusal services request ≠ none ∨ Known request.messageName
  | _ => True

instance (s : Session A W) : (event : Event A W) → Decidable (s.Handled services event)
  | .request .. => inferInstanceAs (Decidable (_ → _))
  | .lost | .elsewhere _ => isTrue trivial

end

/-! ## The dispatch -/

section

variable {services : Services A W} {request : Request A} {s : Session A W}

theorem command_unique {a b : Command} (is_a : sameName request.messageName a.messageName = true)
    (is_b : sameName request.messageName b.messageName = true) : a = b := by
  rw [sameName_iff] at is_a is_b
  exact Command.messageName_injective a a.mem_all b b.mem_all
    (sameName_iff.2 (is_a.symm.trans is_b))

theorem processMessageRequest_none {commands : List Command}
    (none_matches : ∀ c ∈ commands, sameName request.messageName c.messageName = false) :
    s.processMessageRequest services request commands = (true, s) := by
  induction commands with
  | nil => rfl
  | cons c rest ih =>
    rw [processMessageRequest, if_neg (by simp [none_matches c mem_cons_self])]
    exact ih fun c' hc => none_matches c' (mem_cons_of_mem _ hc)

theorem processMessageRequest_mem {commands : List Command} (distinct : commands.Nodup)
    {c : Command} (here : c ∈ commands)
    (is_c : sameName request.messageName c.messageName = true) :
    s.processMessageRequest services request commands = s.handle services c request := by
  induction commands with
  | nil => cases here
  | cons c' rest ih =>
    obtain ⟨fresh, distinct⟩ := nodup_cons.1 distinct
    rw [processMessageRequest]
    split
    · rename_i is_c'
      cases command_unique is_c is_c'
      have others : ∀ b ∈ rest, sameName request.messageName b.messageName = false := by
        intro b hb
        by_contra is_b
        rw [Bool.not_eq_false] at is_b
        exact fresh (command_unique is_c is_b ▸ hb)
      rcases s.handle services c request with ⟨returns, s'⟩
      cases returns with
      | true => exact processMessageRequest_none others
      | false => rfl
    · rename_i other
      rcases mem_cons.1 here with rfl | later
      · exact absurd is_c other
      · exact ih distinct later

theorem handle_spec (c : Command) (request : Request A) (s : Session A W) :
    (s.handle services c request).2.sent = s.sent ∧
      (s.handle services c request).2.served = s.served ∧
      (s.handle services c request).2.telesupRunning = s.telesupRunning ∧
      ((s.handle services c request).1 = true → ∃ response,
        (s.handle services c request).2.message = some response ∧
          response.messageName = c.messageName) := by
  cases c with
  | startConnection =>
    simp only [handle, startConnection]
    split <;> exact ⟨rfl, rfl, rfl, fun _ => ⟨_, rfl, rfl⟩⟩
  | endConnection => exact ⟨rfl, rfl, rfl, fun _ => ⟨_, rfl, rfl⟩⟩
  | userLogin =>
    simp only [handle, userLogin]
    split
    · split <;> exact ⟨rfl, rfl, rfl, fun _ => ⟨_, rfl, rfl⟩⟩
    · exact ⟨rfl, rfl, rfl, fun _ => ⟨_, rfl, rfl⟩⟩
    · exact ⟨rfl, rfl, rfl, fun _ => ⟨_, rfl, rfl⟩⟩
  | _ =>
    simp only [handle]
    split
    · exact ⟨rfl, rfl, rfl, fun _ => ⟨_, rfl, rfl⟩⟩
    · exact ⟨rfl, rfl, rfl, fun returns => nomatch returns⟩

theorem handle_started (c : Command) (is_c : sameName request.messageName c.messageName = true)
    (started : (s.handle services c request).2.connectionStarted = true) :
    s.connectionStarted = true ∨ Starts services request := by
  cases c with
  | startConnection =>
    simp only [handle, startConnection] at started
    split at started
    · rename_i configured
      exact .inr ⟨is_c, configured⟩
    · exact .inl started
  | endConnection => cases started
  | userLogin =>
    simp only [handle, userLogin] at started
    split at started
    · split at started <;> exact .inl started
    · exact .inl started
    · exact .inl started
  | _ =>
    simp only [handle] at started
    split at started <;> exact .inl started

/-! ## One request -/

/-- The session with the request among those read. -/
def reading (s : Session A W) (request : Request A) : Session A W :=
  { s with served := s.served ++ [request] }

theorem serve_refused {error : String} (refused : s.refusal services request = some error) :
    s.serve services request =
      (true, (s.reading request).sendErrorMessage request.messageName error) := by
  have same : (s.reading request).refusal services request = some error := refused
  rw [serve]
  simp only [reading] at same ⊢
  rw [same]

theorem serve_command (passes : s.refusal services request = none) {c : Command}
    (is_c : sameName request.messageName c.messageName = true) :
    s.serve services request =
      match (s.reading request).handle services c request with
      | (true, s') =>
        (!sameName request.messageName Command.endConnection.messageName, s'.sendMessage)
      | (false, s') =>
        (true, s'.sendErrorMessage request.messageName "Comando desconocido.") := by
  have same : (s.reading request).refusal services request = none := passes
  rw [serve]
  simp only [reading] at same ⊢
  rw [same]
  simp only [processMessageRequest_mem Command.nodup_all c.mem_all is_c]

/-- A request that is refused, or names a command, is answered once and under its name. -/
theorem serve_answers
    (handled : s.refusal services request ≠ none ∨ Known request.messageName) :
    (s.serve services request).2.served = s.served ++ [request] ∧
      ∃ response, (s.serve services request).2.sent = s.sent ++ [some response] ∧
        sameName request.messageName response.messageName = true ∧
        (s.refusal services request ≠ none → response.response = "Error") := by
  cases refused : s.refusal services request with
  | some error =>
    rw [serve_refused refused]
    exact ⟨rfl, _, rfl, sameName_refl _, fun _ => rfl⟩
  | none =>
    obtain ⟨c, -, is_c⟩ := handled.resolve_left (· refused)
    obtain ⟨sent, served, -, filled⟩ := handle_spec c request
      (s.reading request)
    rw [serve_command refused is_c]
    generalize (s.reading request).handle services c request = called at sent served filled ⊢
    rcases called with ⟨returns, s'⟩
    cases returns with
    | true =>
      obtain ⟨response, message, name⟩ := filled rfl
      simp only at sent served message
      refine ⟨served, response, ?_, ?_, fun refused => absurd rfl refused⟩
      · simp only [sendMessage, sent, message]
        rfl
      · rwa [name]
    | false =>
      simp only at sent served
      refine ⟨served, ⟨request.messageName, "Error", "Comando desconocido."⟩, ?_,
        sameName_refl _, fun refused => absurd rfl refused⟩
      simp only [sendErrorMessage, sendMessage, sent]
      rfl

theorem serve_untouched (refused : s.refusal services request ≠ none) :
    Untouched s (s.serve services request).2 := by
  obtain ⟨error, refused⟩ := Option.ne_none_iff_exists'.1 refused
  rw [serve_refused refused]
  exact ⟨rfl, rfl⟩

theorem serve_started (handled : s.refusal services request ≠ none ∨ Known request.messageName)
    (started : (s.serve services request).2.connectionStarted = true) :
    s.connectionStarted = true ∨ Starts services request := by
  cases refused : s.refusal services request with
  | some error =>
    rw [serve_refused refused] at started
    exact .inl started
  | none =>
    obtain ⟨c, -, is_c⟩ := handled.resolve_left (· refused)
    have kept := @handle_started _ _ services _ (s.reading request) c is_c
    rw [serve_command refused is_c] at started
    generalize (s.reading request).handle services c request = called at kept started
    rcases called with ⟨returns, s'⟩
    cases returns with
    | true => exact kept started
    | false => exact kept started

theorem refusal_closed (closed : s.connectionStarted = false)
    (other : sameName request.messageName Command.startConnection.messageName = false) :
    s.refusal services request ≠ none := by
  rw [refusal, if_pos closed, if_neg (by simp [other])]
  nofun

theorem refusal_loggedOut (started : s.connectionStarted = true)
    (loggedOut : services.userLoggedIn s.world = false)
    (no_login : sameName request.messageName Command.userLogin.messageName = false)
    (no_end : sameName request.messageName Command.endConnection.messageName = false) :
    s.refusal services request ≠ none := by
  rw [refusal, if_neg (by simp [started]), if_neg (by simp [no_end]), if_pos loggedOut,
    if_neg (by simp [no_login])]
  nofun

/-! ## A whole connection -/

/-- What holds of a connection between requests. -/
structure Inv (services : Services A W) (s : Session A W) : Prop where
  started : s.connectionStarted = true → ∃ before ∈ s.served, Starts services before
  answered : List.Forall₂ Answers s.served s.sent

theorem Inv.accept (message : Option Response) (world : W) :
    Inv services (accept message world) where
  started opened := nomatch opened
  answered := .nil

theorem Inv.closeConnection (inv : Inv services s) : Inv services (s.closeConnection services) where
  started opened := nomatch opened
  answered := inv.answered

theorem Inv.serve (inv : Inv services s)
    (handled : s.refusal services request ≠ none ∨ Known request.messageName) :
    Inv services (s.serve services request).2 ∧ s.Serves services request := by
  obtain ⟨served, response, sent, name, error⟩ := serve_answers handled
  refine ⟨⟨fun opened => ?_, ?_⟩, inv.started, inv.answered, fun closed other => ?_,
    fun opened out no_login no_end => ?_, response, sent, name, fun refused => ?_⟩
  · rw [served]
    rcases serve_started handled opened with before | now
    · obtain ⟨earlier, here, starts⟩ := inv.started before
      exact ⟨earlier, mem_append_left _ here, starts⟩
    · exact ⟨request, mem_append_right _ mem_cons_self, now⟩
  · rw [served, sent]
    exact rel_append inv.answered (.cons ⟨response, rfl, name⟩ .nil)
  · exact serve_untouched (refusal_closed closed other)
  · exact serve_untouched (refusal_loggedOut opened out no_login no_end)
  · exact error (refused.elim id handled.resolve_right)

/-- The step: an event of a connection whose requests are all handled keeps the invariant. -/
theorem Inv.step (inv : Inv services s) {event : Event A W} (handled : s.Handled services event) :
    Inv services (s.step services event) ∧ s.Sound services event := by
  cases event with
  | elsewhere change => exact ⟨⟨inv.started, inv.answered⟩, trivial⟩
  | lost =>
    refine ⟨?_, trivial⟩
    rw [Session.step]
    split
    · exact inv.closeConnection
    · exact inv
  | request request taken =>
    rw [Session.step]
    split
    · rename_i running
      obtain ⟨kept, serves⟩ := inv.serve (handled running)
      refine ⟨?_, fun _ => serves⟩
      simp only
      split
      · exact kept
      · exact kept.closeConnection
    · rename_i ended
      exact ⟨inv, fun running => absurd running ended⟩

end

/-- In every run of a connection whose requests are refused or name a command, whatever the
handlers do, each request is served as it should be. -/
theorem run_answers (services : Services A W) (message : Option Response) (world : W)
    (events : List (Event A W))
    (handled : Trace.Always (step services) (Handled services) events (accept message world)) :
    Trace.Always (step services) (Sound services) events (accept message world) :=
  Trace.Always.of_invariant (Inv services) (fun inv ok => inv.step ok) (.accept message world)
    handled

/-- Services of a box with one user; the world is whether he is logged in. -/
def oneUser : Services Unit Bool where
  telesupUserName := "pos"
  telesupPassword := "1234"
  userLoggedIn := id
  logInUser user password world :=
    if user = "1111" ∧ password = "5231" then (.ok 1, true) else (.error .other, world)
  perform command _ world :=
    match command with
    | .userLogoff => (some ⟨"LogoffSuccess", ""⟩, false)
    | _ => (some ⟨"StatusSuccess", ""⟩, world)
  closeConnection _ := false

def posRequest (name user password : String) : Request Unit := ⟨name, user, password, ()⟩

/-- A connection with a refused request, a login, a status in other letters, and its end. -/
theorem run_answers_status :
    Trace.Always (step oneUser) (Sound oneUser)
      [.request (posRequest "getStatus" "" "") true,
        .request (posRequest "startConnection" "pos" "1234") true,
        .request (posRequest "userLogin" "1111" "5231") true,
        .request (posRequest "GETSTATUS" "" "") true,
        .request (posRequest "endConnection" "" "") true]
      (accept none false) :=
  have known (command : Command) {name : String}
      (same : name.toList.map Char.toLower = command.messageName.toList.map Char.toLower) :
      Known name := ⟨command, command.mem_all, sameName_iff_toList.2 same⟩
  run_answers oneUser none false
    [.request (posRequest "getStatus" "" "") true,
      .request (posRequest "startConnection" "pos" "1234") true,
      .request (posRequest "userLogin" "1111" "5231") true,
      .request (posRequest "GETSTATUS" "" "") true,
      .request (posRequest "endConnection" "" "") true]
    ⟨fun _ => .inr (known .getStatus rfl), fun _ => .inr (known .startConnection rfl),
      fun _ => .inr (known .userLogin rfl), fun _ => .inr (known .getStatus (by decide +kernel)),
      fun _ => .inr (known .endConnection rfl), trivial⟩

/-- A user is logged in and a request names no command: it is answered with the response to the
login. -/
theorem run_unknown :
    ¬ ∀ events : List (Event Unit Bool),
      Trace.Always (step oneUser) (Sound oneUser) events (accept none false) := by
  intro sound
  have served := sound
    [.request (posRequest "startConnection" "pos" "1234") true,
      .request (posRequest "userLogin" "1111" "5231") true,
      .request (posRequest "openDoor" "" "") true]
  obtain ⟨response, sent, name, -⟩ := (served.2.2.1 (by decide +kernel)).once
  have stale : response = ⟨"userLogin", "LoginSuccess", ""⟩ := by
    have last := congrArg List.getLast? sent
    rw [List.getLast?_concat] at last
    exact (Option.some.inj (Option.some.inj (last.symm.trans (by decide +kernel))))
  rw [stale] at name
  exact absurd name (by decide +kernel)

end Session

end CimArm
