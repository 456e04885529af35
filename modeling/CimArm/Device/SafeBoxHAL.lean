import CimArm.Lib.Trace
import Mathlib.Data.List.Nodup
import Mathlib.Logic.Function.Basic

/-!
# Commands and responses of the safe board

A call of the HAL queues a command for the safe board and waits for a response in the
queue of the command's device.  One thread, the manager, takes the commands in turn,
writes each to the port and reads one frame; the handler of the command turns the frame
into a response.  All calls on the board itself hold one mutex, the calls that unlock a
door hold none.

Neither the frames nor the wait name the command that is answered.  The model numbers the
commands, and every frame and response carries the number of the command it answers,
which the code does not see.

* `run_ownResponse`: while no response is left over and no late reply is read, every call
  takes the response to its own command.
-/

namespace CimArm.SafeBox

open List Function

/-! ## Commands -/

/-- The commands of the board, in the order of their codes. -/
inductive Command
  | noCmd | unlock | lock | actrl | addUsr | delUsr | editUsrPass
  | getUsrDev | setUsrDev | valUsr | getUsrInfo | usrFmt | version | model
  | shutdown | gr1 | blankFs | createFile | statusFile | readFile | writeFile
  | seekFile | reopenFile | closeFile | reinitFile | getFsInfo | tLock | tUnlockEnable
  | sboxFailure | sboxSuccess | sboxNack | valConfig | forceUser | syncFrameQty | hostPower
  | resetMcu | tUnlockEnableLocks | valPwr
deriving DecidableEq, Repr

/-- The byte that stands for a command in a frame. -/
def Command.code (cmd : Command) : UInt8 := UInt8.ofNat cmd.ctorIdx

def SBOX_FAILURE_CMD : UInt8 := Command.sboxFailure.code
def SBOX_SUCCESS_CMD : UInt8 := Command.sboxSuccess.code
def SBOX_NACK_CMD : UInt8 := Command.sboxNack.code
def ERR_COMMUNICATION_ERROR : UInt8 := 24

/-- The device of the board itself. -/
def SAFEBOX : UInt8 := 8

/-- The functions that handle the reply to a command. -/
inductive RtaFcn
  | safeBoxUnLockRta | safeBoxCommonRta | safeBoxDoGetVersion | safeBoxGr1GetStatus
  | safeBoxReady | valConfigApplied | safeBoxSyncFramesRta | resetMcuRta | generateResetDelay
deriving DecidableEq, Repr

/-- The table of reply handlers.  While the board's firmware is being updated, two of its
entries only wake the thread that sends the image. -/
def commandsRtaFcn (firmwareUpdate : Bool) : Command → Option RtaFcn
  | .unlock => some .safeBoxUnLockRta
  | .writeFile | .reinitFile =>
    if firmwareUpdate then some .safeBoxReady else some .safeBoxCommonRta
  | .addUsr | .delUsr | .editUsrPass | .getUsrDev | .setUsrDev | .valUsr | .getUsrInfo
  | .usrFmt | .blankFs | .createFile | .statusFile | .readFile | .seekFile
  | .reopenFile | .closeFile | .getFsInfo | .forceUser => some .safeBoxCommonRta
  | .version => some .safeBoxDoGetVersion
  | .gr1 => some .safeBoxGr1GetStatus
  | .valConfig => some .valConfigApplied
  | .syncFrameQty => some .safeBoxSyncFramesRta
  | .resetMcu => some .resetMcuRta
  | .valPwr => some .generateResetDelay
  | .noCmd | .lock | .actrl | .model | .shutdown | .tLock | .tUnlockEnable | .sboxFailure
  | .sboxSuccess | .sboxNack | .hostPower | .tUnlockEnableLocks => none

/-- A queued command; its data bytes play no part in what follows. -/
structure QueueElement : Type where
  id : Nat
  dev : UInt8
  cmd : Command
deriving DecidableEq, Repr

/-- A frame from the board: device, result and what memory holds from the data on. -/
structure Frame : Type where
  answers : Nat
  dev : UInt8
  rta : UInt8
  data : List UInt8
deriving DecidableEq, Repr

structure SafeBoxResponse : Type where
  answers : Nat
  cmd : Command
  rta : UInt8
  aditData : List UInt8
deriving DecidableEq, Repr

/-- The result and data of a frame, a `NACK` being turned into a failure. -/
def Frame.nackAsFailure (rta : Frame) : UInt8 × List UInt8 :=
  if rta.rta = SBOX_NACK_CMD then (SBOX_FAILURE_CMD, ERR_COMMUNICATION_ERROR :: rta.data.drop 1)
  else (rta.rta, rta.data)

/-- What the handler of a command hands to `actionCallback`, and for which device: `rta`
is the frame accepted, if any. -/
def response (firmwareUpdate : Bool) (elem : QueueElement) (rta : Option Frame) :
    Option (UInt8 × SafeBoxResponse) :=
  match commandsRtaFcn firmwareUpdate elem.cmd, rta with
  | some .safeBoxUnLockRta, some frame =>
    some (frame.dev,
      ⟨frame.answers, elem.cmd, frame.nackAsFailure.1, frame.nackAsFailure.2⟩)
  | some .safeBoxCommonRta, some frame =>
    some (SAFEBOX,
      ⟨frame.answers, elem.cmd, frame.nackAsFailure.1, frame.nackAsFailure.2⟩)
  | some .safeBoxCommonRta, none =>
    some (SAFEBOX, ⟨elem.id, elem.cmd, SBOX_FAILURE_CMD, [ERR_COMMUNICATION_ERROR]⟩)
  | _, _ => none

/-! ## The state -/

/-- The mutex of the calls on the board: free, held, or held by a call that waits for the
response to its command. -/
inductive MyMutex
  | free
  | locked
  | waiting (call : Nat)
deriving DecidableEq, Repr

/-- An `unLock` call that waits, on the device of its door. -/
structure UnLockCall : Type where
  call : Nat
  dev : UInt8
deriving DecidableEq, Repr

/-- The HAL, the manager, the port and the board. -/
structure State : Type where
  /-- The number of commands so far. -/
  issued : Nat
  /-- The manager's queue. -/
  queuedActions : List QueueElement
  /-- The command the manager has written and reads the reply of. -/
  current : Option QueueElement
  firmwareUpdate : Bool
  /-- The commands the board has not answered. -/
  pending : List QueueElement
  /-- The frames that lie unread in the port. -/
  input : List Frame
  /-- The response queue of each device. -/
  syncQueue : UInt8 → List SafeBoxResponse
  myMutex : MyMutex
  unLocks : List UnLockCall
  /-- The manager's thread ended on a full response queue. -/
  halted : Bool

def State.start : State :=
  ⟨0, [], none, false, [], [], fun _ => [], .free, [], false⟩

/-- One step of a thread, of the line or of the board. -/
inductive Op
  /-- A call on the board takes the mutex. -/
  | lock
  /-- It queues a command and starts to wait. -/
  | send (cmd : Command)
  /-- `waitForEvent` finds a response. -/
  | pop
  /-- `waitForEvent` runs out of time. -/
  | timeout
  /-- The call ends. -/
  | release
  | unLock (dev : UInt8)
  | unLockPop (call : UnLockCall)
  | unLockTimeout (call : UnLockCall)
  /-- A command that no call waits for. -/
  | post (dev : UInt8) (cmd : Command)
  | setFirmwareUpdate (firmwareUpdate : Bool)
  /-- The manager writes a command of its own. -/
  | reqStatus (cmd : Command)
  /-- The manager writes the first command of its queue. -/
  | processQueuedElem
  /-- The reply to one of the pending commands reaches the port. -/
  | arrive (at_ : Nat) (rta : UInt8) (data : List UInt8)
  /-- One of the pending commands stays without a reply. -/
  | lose (at_ : Nat)
  /-- The manager reads a frame. -/
  | commRead
  /-- The manager reads no frame, or a broken one; a serial port is then flushed. -/
  | commReadFails (flushed : Bool)

/-! ## The steps -/

/-- Add a command to the manager's queue, unless it is full. -/
def State.qAdd (s : State) (dev : UInt8) (cmd : Command) : Option State :=
  if s.queuedActions.length = 150 then none
  else some { s with
    issued := s.issued + 1
    queuedActions := s.queuedActions ++ [⟨s.issued, dev, cmd⟩] }

/-- Put a response into the queue of its device, if the device is mapped. -/
def State.actionCallback (mapped : UInt8 → Bool) (s : State) (devId : UInt8)
    (response : SafeBoxResponse) : State :=
  if mapped devId then
    if (s.syncQueue devId).length = 10 then { s with halted := true }
    else { s with
      syncQueue := Function.update s.syncQueue devId (s.syncQueue devId ++ [response]) }
  else s

/-- The end of `safeBoxWriteRead`: a frame of another device counts as no frame. -/
def State.handle (mapped : UInt8 → Bool) (s : State) (elem : QueueElement)
    (temp : Option Frame) : State :=
  let s := { s with current := none }
  match response s.firmwareUpdate elem (temp.filter (·.dev = elem.dev)) with
  | some (devId, rta) => s.actionCallback mapped devId rta
  | none => s

/-- Write a command to the port. -/
def State.commWrite (s : State) (elem : QueueElement) : State :=
  { s with current := some elem, pending := s.pending ++ [elem] }

/-- The commands that the calls on the board wait for. -/
def halCommands : List Command :=
  [.addUsr, .delUsr, .valUsr, .editUsrPass, .setUsrDev, .getUsrDev, .forceUser, .usrFmt,
   .blankFs, .createFile, .readFile, .writeFile, .seekFile, .reinitFile, .statusFile]

/-- The commands that the manager issues itself. -/
def statusCommands : List Command := [.version, .valConfig, .gr1]

variable (mapped : UInt8 → Bool)

/-- One step; a step that is not enabled changes nothing. -/
def step (op : Op) (s : State) : State :=
  match op with
  | .lock => if s.myMutex = .free then { s with myMutex := .locked } else s
  | .send cmd =>
    if s.myMutex = .locked ∧ cmd ∈ halCommands then
      match s.qAdd SAFEBOX cmd with
      | some s' => { s' with myMutex := .waiting s.issued }
      | none => { s with myMutex := .free }
    else s
  | .pop =>
    match s.myMutex, s.syncQueue SAFEBOX with
    | .waiting _, rta :: rest =>
      { s with
        syncQueue := Function.update s.syncQueue SAFEBOX rest
        myMutex := if rta.rta = SBOX_SUCCESS_CMD then .locked else .free }
    | _, _ => s
  | .timeout =>
    match s.myMutex with
    | .waiting _ => { s with myMutex := .free }
    | _ => s
  | .release => if s.myMutex = .locked then { s with myMutex := .free } else s
  | .unLock dev =>
    if mapped dev then
      match s.qAdd dev .unlock with
      | some s' => { s' with unLocks := s.unLocks ++ [⟨s.issued, dev⟩] }
      | none => s
    else s
  | .unLockPop call =>
    if call ∈ s.unLocks then
      match s.syncQueue call.dev with
      | _ :: rest =>
        { s with
          syncQueue := Function.update s.syncQueue call.dev rest
          unLocks := s.unLocks.erase call }
      | [] => s
    else s
  | .unLockTimeout call => { s with unLocks := s.unLocks.erase call }
  | .post dev cmd => (s.qAdd dev cmd).getD s
  | .setFirmwareUpdate firmwareUpdate => { s with firmwareUpdate }
  | .reqStatus cmd =>
    if s.halted = false ∧ s.current = none ∧ cmd ∈ statusCommands then
      { s.commWrite ⟨s.issued, SAFEBOX, cmd⟩ with issued := s.issued + 1 }
    else s
  | .processQueuedElem =>
    match s.current, s.queuedActions with
    | none, elem :: rest =>
      if s.halted then s else { s.commWrite elem with queuedActions := rest }
    | _, _ => s
  | .arrive at_ rta data =>
    match s.pending[at_]? with
    | some elem =>
      { s with
        pending := s.pending.eraseIdx at_
        input := s.input ++ [⟨elem.id, elem.dev, rta, data⟩] }
    | none => s
  | .lose at_ => { s with pending := s.pending.eraseIdx at_ }
  | .commRead =>
    match s.current, s.input with
    | some elem, frame :: rest => State.handle mapped { s with input := rest } elem (some frame)
    | _, _ => s
  | .commReadFails flushed =>
    match s.current with
    | some elem =>
      State.handle mapped { s with input := if flushed then [] else s.input } elem none
    | none => s

/-! ## Matching -/

/-- The call that a step gives a response to, and the response. -/
def taken (s : State) : Op → Option (Nat × SafeBoxResponse)
  | .pop =>
    match s.myMutex, s.syncQueue SAFEBOX with
    | .waiting call, rta :: _ => some (call, rta)
    | _, _ => none
  | .unLockPop call =>
    if call ∈ s.unLocks then (s.syncQueue call.dev).head?.map (call.call, ·) else none
  | _ => none

/-- The response that a call takes answers the command of the same call. -/
def OwnResponse (s : State) (op : Op) : Prop :=
  ∀ p ∈ taken s op, p.2.answers = p.1

instance (s : State) (op : Op) : Decidable (OwnResponse s op) :=
  inferInstanceAs (Decidable (∀ p ∈ taken s op, p.2.answers = p.1))

/-- The calls that wait for a response on a device. -/
def waiters (s : State) (dev : UInt8) : List Nat :=
  (match s.myMutex with
    | .waiting call => if dev = SAFEBOX then [call] else []
    | _ => []) ++ (s.unLocks.filter (·.dev = dev)).map (·.call)

/-- The command has a handler that may queue a response. -/
def Answered (cmd : Command) : Prop :=
  commandsRtaFcn false cmd = some .safeBoxUnLockRta ∨
    commandsRtaFcn false cmd = some .safeBoxCommonRta

instance (cmd : Command) : Decidable (Answered cmd) := inferInstanceAs (Decidable (_ ∨ _))

/-- The handler for what the manager reads queues a response only while the command's own
call is the only one that waits on the device. -/
def Awaited (s : State) (elem : QueueElement) (temp : Option Frame) : Prop :=
  ∀ p ∈ response s.firmwareUpdate elem (temp.filter (·.dev = elem.dev)),
    waiters s p.1 = [elem.id]

instance (s : State) (elem : QueueElement) (temp : Option Frame) :
    Decidable (Awaited s elem temp) :=
  inferInstanceAs (Decidable (∀ p ∈ response _ _ _, waiters s p.1 = [elem.id]))

/-- A step leaves no response behind and mixes up no replies: a call starts or gives up
only while no response lies in the queue of its device, a response is queued for the one
call that waits for it, and no reply to an earlier command of a device lies in the port,
or arrives there, while a command of the device is written and read. -/
def InTurn (s : State) : Op → Prop
  | .send _ | .timeout => s.syncQueue SAFEBOX = []
  | .unLock dev => s.syncQueue dev = []
  | .unLockTimeout call => s.syncQueue call.dev = []
  | .processQueuedElem =>
    ∀ elem ∈ s.queuedActions.head?, Answered elem.cmd → ∀ frame ∈ s.input, frame.dev ≠ elem.dev
  | .arrive at_ _ _ =>
    ∀ elem ∈ s.current, Answered elem.cmd →
      ∀ reply ∈ s.pending[at_]?, reply.dev = elem.dev → reply.id = elem.id
  | .commRead => ∀ elem ∈ s.current, ∀ frame ∈ s.input.head?, Awaited s elem (some frame)
  | .commReadFails _ => ∀ elem ∈ s.current, Awaited s elem none
  | _ => True

instance decidableInTurn (s : State) : (op : Op) → Decidable (InTurn s op)
  | .send _ | .timeout => inferInstanceAs (Decidable (s.syncQueue SAFEBOX = []))
  | .unLock dev => inferInstanceAs (Decidable (s.syncQueue dev = []))
  | .unLockTimeout call => inferInstanceAs (Decidable (s.syncQueue call.dev = []))
  | .processQueuedElem =>
    inferInstanceAs (Decidable (∀ elem ∈ s.queuedActions.head?, Answered elem.cmd →
      ∀ frame ∈ s.input, frame.dev ≠ elem.dev))
  | .arrive at_ _ _ =>
    inferInstanceAs (Decidable (∀ elem ∈ s.current, Answered elem.cmd →
      ∀ reply ∈ s.pending[at_]?, reply.dev = elem.dev → reply.id = elem.id))
  | .commRead =>
    inferInstanceAs (Decidable (∀ elem ∈ s.current, ∀ frame ∈ s.input.head?,
      Awaited s elem (some frame)))
  | .commReadFails _ => inferInstanceAs (Decidable (∀ elem ∈ s.current, Awaited s elem none))
  | .lock | .pop | .release | .unLockPop _ | .post _ _ | .setFirmwareUpdate _
  | .reqStatus _ | .lose _ => isTrue trivial

/-! ## The invariant -/

/-- The commands whose handler has not run. -/
def unhandled (s : State) : List Nat :=
  (s.current.toList ++ s.queuedActions).map (·.id)

/-- A queued response is alone in its queue, and answers the only call that waits there;
a frame in the port that the current command would accept answers it. -/
structure Matched (s : State) : Prop where
  awaited : ∀ dev, ∀ rta ∈ s.syncQueue dev, waiters s dev = [rta.answers]
  alone : ∀ dev, (s.syncQueue dev).length ≤ 1
  distinct : (unhandled s).Nodup
  issued : ∀ id ∈ unhandled s, id < s.issued
  handled : ∀ dev, ∀ rta ∈ s.syncQueue dev, rta.answers ∉ unhandled s ∧ rta.answers < s.issued
  line : ∀ elem ∈ s.current, Answered elem.cmd →
    ∀ frame ∈ s.input, frame.dev = elem.dev → frame.answers = elem.id

theorem Matched.start : Matched State.start where
  awaited := nofun
  alone _ := Nat.zero_le 1
  distinct := nodup_nil
  issued := nofun
  handled := nofun
  line := nofun

variable {mapped} {s s' : State}

theorem Matched.congr (inv : Matched s) (issued : s'.issued = s.issued)
    (unhandled_eq : unhandled s' = unhandled s)
    (queues : ∀ dev, s'.syncQueue dev = [] ∨
      s'.syncQueue dev = s.syncQueue dev ∧ waiters s' dev = waiters s dev)
    (line : ∀ elem ∈ s'.current, Answered elem.cmd →
      ∀ frame ∈ s'.input, frame.dev = elem.dev → frame.answers = elem.id) : Matched s' where
  awaited dev rta mem := by
    rcases queues dev with empty | ⟨same, waiting⟩
    · simp [empty] at mem
    · rw [waiting]
      exact inv.awaited dev rta (same ▸ mem)
  alone dev := by
    rcases queues dev with empty | ⟨same, -⟩
    · simp [empty]
    · exact same ▸ inv.alone dev
  distinct := unhandled_eq ▸ inv.distinct
  issued := by
    rw [unhandled_eq, issued]
    exact inv.issued
  handled dev rta mem := by
    rcases queues dev with empty | ⟨same, -⟩
    · simp [empty] at mem
    · rw [unhandled_eq, issued]
      exact inv.handled dev rta (same ▸ mem)
  line := line

variable {dev : UInt8} {rta : SafeBoxResponse}

theorem State.qAdd_eq {cmd : Command} (added : s.qAdd dev cmd = some s') : s' = { s with
      issued := s.issued + 1
      queuedActions := s.queuedActions ++ [⟨s.issued, dev, cmd⟩] } := by
  unfold State.qAdd at added
  split at added
  · cases added
  · exact (Option.some.inj added).symm

theorem Matched.issued_notMem (inv : Matched s) : s.issued ∉ unhandled s :=
  fun mem => Nat.lt_irrefl _ (inv.issued _ mem)

theorem Matched.number (inv : Matched s) (issued : s'.issued = s.issued + 1)
    (unhandled_perm : (unhandled s').Perm (s.issued :: unhandled s))
    (queues : ∀ dev, s'.syncQueue dev = s.syncQueue dev ∧
      (s'.syncQueue dev ≠ [] → waiters s' dev = waiters s dev))
    (line : ∀ elem ∈ s'.current, Answered elem.cmd →
      ∀ frame ∈ s'.input, frame.dev = elem.dev → frame.answers = elem.id) : Matched s' where
  awaited dev rta mem := by
    rw [(queues dev).2 (ne_nil_of_mem mem)]
    exact inv.awaited dev rta ((queues dev).1 ▸ mem)
  alone dev := (queues dev).1 ▸ inv.alone dev
  distinct := unhandled_perm.nodup_iff.mpr (nodup_cons.mpr ⟨inv.issued_notMem, inv.distinct⟩)
  issued id mem := by
    rw [issued]
    rcases mem_cons.mp (unhandled_perm.mem_iff.mp mem) with rfl | mem
    · omega
    · exact Nat.lt_succ_of_lt (inv.issued id mem)
  handled dev rta mem := by
    have old := inv.handled dev rta ((queues dev).1 ▸ mem)
    rw [unhandled_perm.mem_iff, issued]
    refine ⟨fun mem => ?_, by omega⟩
    rcases mem_cons.mp mem with eq | mem
    · omega
    · exact old.1 mem
  line := line

theorem Matched.qAdd {cmd : Command} (inv : Matched s) (added : s.qAdd dev cmd = some s')
    (myMutex : MyMutex) (unLocks : List UnLockCall)
    (queues : ∀ d, s.syncQueue d ≠ [] →
      waiters { s' with myMutex := myMutex, unLocks := unLocks } d = waiters s d) :
    Matched { s' with myMutex := myMutex, unLocks := unLocks } := by
  cases State.qAdd_eq added
  refine inv.number rfl ?_ (fun d => ⟨rfl, queues d⟩) inv.line
  simp only [unhandled, map_append, map_cons, map_nil, ← append_assoc]
  exact perm_append_singleton _ _

/-! ## The manager -/

/-- A response that a handler queues comes from the frame accepted or, without one, from
the command itself. -/
theorem answers_of_response {firmwareUpdate : Bool} {elem : QueueElement} {temp : Option Frame}
    {devId : UInt8} (handled : response firmwareUpdate elem temp = some (devId, rta)) :
    Answered elem.cmd ∧ (rta.answers = elem.id ∨ ∃ frame ∈ temp, rta.answers = frame.answers) := by
  have common : commandsRtaFcn firmwareUpdate elem.cmd = some .safeBoxCommonRta →
      commandsRtaFcn false elem.cmd = some .safeBoxCommonRta := by
    cases firmwareUpdate <;> cases elem.cmd <;> simp [commandsRtaFcn]
  have unLock : commandsRtaFcn firmwareUpdate elem.cmd = some .safeBoxUnLockRta →
      commandsRtaFcn false elem.cmd = some .safeBoxUnLockRta := by
    cases firmwareUpdate <;> cases elem.cmd <;> simp [commandsRtaFcn]
  unfold response at handled
  split at handled
  case h_1 frame fcn =>
    cases handled
    exact ⟨Or.inl (unLock fcn), Or.inr ⟨frame, rfl, rfl⟩⟩
  case h_2 frame fcn =>
    cases handled
    exact ⟨Or.inr (common fcn), Or.inr ⟨frame, rfl, rfl⟩⟩
  case h_3 fcn =>
    cases handled
    exact ⟨Or.inr (common fcn), Or.inl rfl⟩
  case h_4 => cases handled

theorem Matched.actionCallback {devId : UInt8} (inv : Matched s) (empty : s.syncQueue devId = [])
    (waiting : waiters s devId = [rta.answers])
    (new : rta.answers ∉ unhandled s ∧ rta.answers < s.issued) :
    Matched (s.actionCallback mapped devId rta) := by
  have queue (dev : UInt8) (r : SafeBoxResponse)
      (mem : r ∈ Function.update s.syncQueue devId (s.syncQueue devId ++ [rta]) dev) :
      r ∈ s.syncQueue dev ∨ dev = devId ∧ r = rta := by
    rcases eq_or_ne dev devId with rfl | other
    · simpa [empty] using mem
    · rw [update_of_ne other] at mem
      exact Or.inl mem
  unfold State.actionCallback
  split
  · rw [if_neg (by simp [empty])]
    refine ⟨fun dev r mem => ?_, fun dev => ?_, inv.distinct, inv.issued, fun dev r mem => ?_,
      inv.line⟩
    · rcases queue dev r mem with old | ⟨rfl, rfl⟩
      · exact inv.awaited dev r old
      · exact waiting
    · rcases eq_or_ne dev devId with rfl | other
      · simp [empty]
      · simpa [update_of_ne other] using inv.alone dev
    · rcases queue dev r mem with old | ⟨rfl, rfl⟩
      · exact inv.handled dev r old
      · exact new
  · exact inv

theorem Matched.handle {elem : QueueElement} {temp : Option Frame} {input : List Frame}
    (inv : Matched s) (current : s.current = some elem)
    (read : Answered elem.cmd → ∀ frame ∈ temp, frame.dev = elem.dev → frame.answers = elem.id)
    (awaited : Awaited s elem temp) :
    Matched (State.handle mapped { s with input := input } elem temp) := by
  have unhandled_eq : unhandled s = elem.id :: s.queuedActions.map (·.id) := by
    simp [unhandled, current]
  have distinct := inv.distinct
  rw [unhandled_eq, nodup_cons] at distinct
  -- with the command out of the manager's hands, only the queue is unhandled
  have kept : Matched { s with current := none, input := input } :=
    ⟨inv.awaited, inv.alone, distinct.2,
      fun id mem => inv.issued id (unhandled_eq ▸ mem_cons_of_mem _ mem),
      fun dev rta mem => ⟨fun late => (inv.handled dev rta mem).1
        (unhandled_eq ▸ mem_cons_of_mem _ late), (inv.handled dev rta mem).2⟩, nofun⟩
  unfold State.handle
  dsimp only
  split
  case h_2 => exact kept
  case h_1 devId rta handled =>
    have waiting : waiters s devId = [elem.id] := awaited (devId, rta) handled
    have answers : rta.answers = elem.id := by
      rcases answers_of_response handled with ⟨answered, own | ⟨frame, accepted, same⟩⟩
      · exact own
      · obtain ⟨mem, dev⟩ := Option.mem_filter_iff.mp accepted
        exact same.trans (read answered frame mem (by simpa using dev))
    refine kept.actionCallback ?_ (answers ▸ waiting) (answers ▸ ⟨distinct.1, ?_⟩)
    · -- a response that is there already would answer a command that is still unhandled
      refine eq_nil_iff_forall_not_mem.mpr fun old mem => ?_
      have same : [old.answers] = [elem.id] := (inv.awaited devId old mem).symm.trans waiting
      apply (inv.handled devId old mem).1
      rw [unhandled_eq, head_eq_of_cons_eq same]
      exact mem_cons_self
    · exact inv.issued elem.id (unhandled_eq ▸ mem_cons_self)

/-! ## The calls -/

/-- A call on the board stops waiting: only the queue of the board loses its waiter. -/
theorem waiters_myMutex {myMutex : MyMutex} {syncQueue : UInt8 → List SafeBoxResponse}
    (other : dev ≠ SAFEBOX) :
    waiters { s with syncQueue := syncQueue, myMutex := myMutex } dev = waiters s dev := by
  unfold waiters
  cases myMutex <;> cases s.myMutex <;> simp [other]

theorem waiters_erase {call : UnLockCall} {syncQueue : UInt8 → List SafeBoxResponse}
    (other : dev ≠ call.dev) :
    waiters { s with syncQueue := syncQueue, unLocks := s.unLocks.erase call } dev =
      waiters s dev := by
  unfold waiters
  dsimp only
  rw [← erase_filter, erase_of_not_mem]
  simp [other.symm]

theorem waiters_append {call : UnLockCall} (other : dev ≠ call.dev) :
    waiters { s with unLocks := s.unLocks ++ [call] } dev = waiters s dev := by
  simp [waiters, filter_append, other.symm]

theorem Matched.queue_tail (inv : Matched s) {rest : List SafeBoxResponse}
    (queue : s.syncQueue dev = rta :: rest) : rest = [] := by
  have alone := inv.alone dev
  rw [queue, length_cons] at alone
  exact length_eq_zero_iff.mp (by omega)

theorem Matched.ownResponse (inv : Matched s) (op : Op) : OwnResponse s op := by
  rintro ⟨call, rta⟩ took
  cases op with
  | pop =>
    simp only [taken] at took
    split at took
    case h_2 => cases took
    case h_1 _ _ waiting queue =>
      cases took
      have waits := inv.awaited SAFEBOX rta (queue ▸ mem_cons_self)
      simp only [waiters, waiting, if_true, cons_append, nil_append] at waits
      exact (head_eq_of_cons_eq waits).symm
  | unLockPop unLock =>
    simp only [taken] at took
    split at took
    case isFalse => cases took
    case isTrue waiting =>
      obtain ⟨_, head, eq⟩ := Option.map_eq_some_iff.mp took
      cases eq
      have waits := inv.awaited unLock.dev rta (mem_of_mem_head? head)
      have mem : unLock.call ∈ waiters s unLock.dev :=
        mem_append_right _ (mem_map_of_mem (mem_filter.mpr ⟨waiting, by simp⟩))
      rw [waits] at mem
      exact (mem_singleton.mp mem).symm
  | _ => cases took

theorem not_answered_of_status : ∀ cmd ∈ statusCommands, ¬ Answered cmd := by decide

/-! ## Runs -/

theorem Matched.step (inv : Matched s) {op : Op} (inTurn : InTurn s op) :
    Matched (step mapped op s) := by
  cases op with
  | lock =>
    simp only [SafeBox.step]
    split
    case isFalse => exact inv
    case isTrue free =>
      exact inv.congr rfl rfl (fun dev => Or.inr ⟨rfl, by simp [waiters, free]⟩) inv.line
  | send cmd =>
    simp only [SafeBox.step]
    split
    case isFalse => exact inv
    case isTrue locked =>
      split
      case h_1 s' added =>
        refine inv.qAdd added _ _ fun dev filled => ?_
        have other : dev ≠ SAFEBOX := fun eq => filled (eq ▸ inTurn)
        cases State.qAdd_eq added
        exact waiters_myMutex other
      case h_2 =>
        exact inv.congr rfl rfl (fun dev => Or.inr ⟨rfl, by simp [waiters, locked.1]⟩) inv.line
  | pop =>
    simp only [SafeBox.step]
    split
    case h_2 => exact inv
    case h_1 rta rest _ queue =>
      refine inv.congr rfl rfl (fun dev => ?_) inv.line
      rcases eq_or_ne dev SAFEBOX with rfl | other
      · exact Or.inl (by simpa using inv.queue_tail queue)
      · exact Or.inr ⟨update_of_ne other _ _, waiters_myMutex other⟩
  | timeout =>
    simp only [SafeBox.step]
    split
    case h_2 => exact inv
    case h_1 =>
      refine inv.congr rfl rfl (fun dev => ?_) inv.line
      rcases eq_or_ne dev SAFEBOX with rfl | other
      · exact Or.inl inTurn
      · exact Or.inr ⟨rfl, waiters_myMutex other⟩
  | release =>
    simp only [SafeBox.step]
    split
    case isFalse => exact inv
    case isTrue locked =>
      exact inv.congr rfl rfl (fun dev => Or.inr ⟨rfl, by simp [waiters, locked]⟩) inv.line
  | unLock dev =>
    simp only [SafeBox.step]
    split
    case isFalse => exact inv
    case isTrue =>
      split
      case h_2 => exact inv
      case h_1 s' added =>
        refine inv.qAdd added _ _ fun d filled => ?_
        have other : d ≠ dev := fun eq => filled (eq ▸ inTurn)
        cases State.qAdd_eq added
        exact waiters_append other
  | unLockPop call =>
    simp only [SafeBox.step]
    split
    case isFalse => exact inv
    case isTrue =>
      split
      case h_2 => exact inv
      case h_1 queue =>
        refine inv.congr rfl rfl (fun dev => ?_) inv.line
        rcases eq_or_ne dev call.dev with rfl | other
        · exact Or.inl (by simpa using inv.queue_tail queue)
        · exact Or.inr ⟨update_of_ne other _ _, waiters_erase other⟩
  | unLockTimeout call =>
    refine inv.congr rfl rfl (fun dev => ?_) inv.line
    rcases eq_or_ne dev call.dev with rfl | other
    · exact Or.inl inTurn
    · exact Or.inr ⟨rfl, waiters_erase other⟩
  | post dev cmd =>
    simp only [SafeBox.step]
    cases added : s.qAdd dev cmd with
    | none => exact inv
    | some s' =>
      refine inv.qAdd added s'.myMutex s'.unLocks fun d _ => ?_
      cases State.qAdd_eq added
      rfl
  | setFirmwareUpdate => exact inv.congr rfl rfl (fun dev => Or.inr ⟨rfl, rfl⟩) inv.line
  | reqStatus cmd =>
    simp only [SafeBox.step]
    split
    case isFalse => exact inv
    case isTrue idle =>
      rcases idle with ⟨-, idle, status⟩
      refine inv.number rfl ?_ (fun _ => ⟨rfl, fun _ => rfl⟩) ?_
      · simp [unhandled, State.commWrite, idle]
      · rintro elem ⟨⟩ answered
        exact absurd answered (not_answered_of_status cmd status)
  | processQueuedElem =>
    simp only [SafeBox.step]
    split
    case h_2 => exact inv
    case h_1 elem rest idle queue =>
      split
      · exact inv
      · refine inv.congr rfl ?_ (fun dev => Or.inr ⟨rfl, rfl⟩) ?_
        · simp [unhandled, State.commWrite, idle, queue]
        · rintro _ ⟨⟩ answered frame mem dev
          exact absurd dev (inTurn elem (by simp [queue]) answered frame mem)
  | arrive at_ rta data =>
    simp only [SafeBox.step]
    split
    case h_2 => exact inv
    case h_1 reply pending =>
      refine inv.congr rfl rfl (fun dev => Or.inr ⟨rfl, rfl⟩) ?_
      intro elem current answered frame mem dev
      rcases mem_append.mp mem with old | new
      · exact inv.line elem current answered frame old dev
      · cases mem_singleton.mp new
        exact inTurn elem current answered reply pending dev
  | lose => exact inv.congr rfl rfl (fun dev => Or.inr ⟨rfl, rfl⟩) inv.line
  | commRead =>
    simp only [SafeBox.step]
    split
    case h_2 => exact inv
    case h_1 elem frame rest current input =>
      refine inv.handle current ?_ (inTurn elem current frame (by simp [input]))
      rintro answered _ ⟨⟩ dev
      exact inv.line elem current answered frame (by simp [input]) dev
  | commReadFails flushed =>
    simp only [SafeBox.step]
    split
    case h_2 => exact inv
    case h_1 elem current => exact inv.handle current (fun _ => nofun) (inTurn elem current)

/-- Every response that a waiting call takes answers the command of the same call, in
every run that leaves no response behind and mixes up no replies. -/
theorem run_ownResponse {ops : List Op} (inTurn : Trace.Always (step mapped) InTurn ops .start) :
    Trace.Always (step mapped) OwnResponse ops .start :=
  Trace.Always.of_invariant Matched (fun inv ok => ⟨inv.step ok, inv.ownResponse _⟩)
    Matched.start inTurn

/-- A call that validates a user while its response arrives and is read in turn. -/
theorem run_ownResponse_valUsr :
    Trace.Always (step fun _ => true) OwnResponse
      [.lock, .send .valUsr, .reqStatus .gr1, .lose 0, .commReadFails true,
       .processQueuedElem, .arrive 0 SBOX_SUCCESS_CMD [0, 0, 0], .commRead, .pop, .release]
      .start :=
  run_ownResponse (by decide)

/-- A user is validated while the manager is busy, and the call gives up; the response is
then taken by the next call, which deletes another user. -/
theorem not_ownResponse_timeout :
    ¬ ∀ ops, Trace.Always (step fun _ => true) OwnResponse ops .start := by
  intro every
  have late := every
    [.lock, .send .valUsr, .timeout, .processQueuedElem, .arrive 0 SBOX_SUCCESS_CMD [0, 0, 0],
     .commRead, .lock, .send .delUsr, .pop]
  revert late
  decide

end CimArm.SafeBox
