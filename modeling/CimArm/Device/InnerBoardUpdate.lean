import CimArm.Device.SafeBoxHAL
import CimArm.Lib.Trace

/-!
# The firmware update of the inner board

One thread reads the image block by block, queues a command for each, and waits until it is
done; another polls the devices and executes the commands that are queued, of all threads.
While the image is open it does not poll.

The thread only waits for a reply to each command, whatever it says, so the update goes on
after a failure and returns a success.  And where the image is found to be wrong it stays open.

* `update_meets`: whenever the update has returned, it did as it should just in case the image
  could not be opened, or it was right and the board accepted every command.
* `polls_iff`: the devices are polled just in case no image is open.
* `wrong_image_open`: a wrong image is left open.
-/

namespace CimArm.InnerBoard

open List

open SafeBox (Command RtaFcn commandsRtaFcn SBOX_SUCCESS_CMD)

/-! ## The model -/

def UPD_FRAME_SIZE : Nat := 248

/-- The number of commands that can wait. -/
def queueSize : Nat := 150

/-- A command in the queue, with a mark on those of the update. -/
structure QueueElement : Type where
  cmd : Command
  data : List UInt8
  own : Bool
  deriving DecidableEq

/-- What is read after a command, its result and its data; none that is not from the device. -/
abbrev Rta : Type := Option (UInt8 × List UInt8)

def Rta.success (rta : Rta) : Bool := rta.any (·.1 = SBOX_SUCCESS_CMD)

/-- Where the thread of the update is. -/
inductive Place : Type
  | begins
  | waitReinit
  | nextFrame
  | waitFrame
  | reset
  | waitReset
  | waitVersion
  | returned (rta : UInt8)
  /-- The queue was full. -/
  | thrown
  deriving DecidableEq

structure State : Type where
  firmImage : Option (List UInt8)
  /-- What of the image was not read yet. -/
  unread : List UInt8
  /-- The handlers of the file commands are those of the update. -/
  updating : Bool
  isReady : Bool
  resetMcuCmdRta : Int
  initialized : Bool
  version : List UInt8
  valConfigPending : Bool
  /-- Both validators are known, and not configured. -/
  configDue : Bool
  safeBoxCommErrorStatus : Bool
  queuedActions : List QueueElement
  /-- What was written to the board, and read after it. -/
  executed : List (QueueElement × Rta)
  polls : Nat
  place : Place
  framesQty : Nat
  totalFrames : Nat
  lastProgressNotif : Nat
  tries : Nat
  progress : List UInt8

/-- The text of a version ends at the first zero. -/
def versionText (data : List UInt8) : List UInt8 := data.takeWhile (· ≠ 0)

/-- What the handlers of the replies do to the state; the others tell the application. -/
def RtaFcn.apply (fcn : RtaFcn) (rta : Rta) (s : State) : State :=
  match fcn with
  | .safeBoxReady => { s with isReady := true }
  | .resetMcuRta => { s with resetMcuCmdRta := if rta.success then 1 else 0 }
  | .safeBoxDoGetVersion =>
    if rta.success then { s with version := versionText ((rta.map (·.2)).getD []) } else s
  | .valConfigApplied => if rta.success then { s with valConfigPending := false } else s
  | .safeBoxGr1GetStatus =>
    if rta.success ∧ ((rta.map (·.2.length)).getD 0 = 16 ∨ (rta.map (·.2.length)).getD 0 = 9) then
      { s with safeBoxCommErrorStatus := false }
    else if s.safeBoxCommErrorStatus then s
    else { s with safeBoxCommErrorStatus := true, valConfigPending := true }
  | _ => s

def safeBoxWriteRead (elem : QueueElement) (rta : Rta) (s : State) : State :=
  let s := { s with executed := s.executed ++ [(elem, rta)] }
  match commandsRtaFcn s.updating elem.cmd with
  | some fcn => RtaFcn.apply fcn rta s
  | none => s

def safeBoxProcessQueuedElem (rta : Rta) (s : State) : State :=
  match s.queuedActions with
  | [] => s
  | elem :: queued => safeBoxWriteRead elem rta { s with queuedActions := queued }

/-- The version as long as it is not known, the configuration when it is due, or the status. -/
def safeBoxMgrGr1ReqStatus (rta : Rta) (s : State) : State :=
  if s.initialized = false ∨ s.version = [] then
    let s := safeBoxWriteRead ⟨.version, [], false⟩ rta s
    if s.version ≠ [] then { s with initialized := true } else s
  else if s.valConfigPending then safeBoxWriteRead ⟨.valConfig, [], false⟩ rta s
  else if s.configDue then
    safeBoxWriteRead ⟨.valConfig, [], false⟩ rta { s with configDue := false }
  else safeBoxWriteRead ⟨.gr1, [], false⟩ rta s

/-- A round of `safeBoxMgrRun`; the validators are polled too. -/
def safeBoxMgrRun (rta queued : Rta) (s : State) : State :=
  if s.firmImage = none then
    let s := safeBoxMgrGr1ReqStatus rta { s with polls := s.polls + 1 }
    if s.safeBoxCommErrorStatus then s else safeBoxProcessQueuedElem queued s
  else safeBoxProcessQueuedElem queued s

/-- The bytes behind the first two, added up in 16 bits. -/
def sumImage (image : List UInt8) : UInt16 :=
  (image.drop 2).foldl (fun (calcChk : UInt16) b => calcChk + b.toUInt16) 0

/-- `fileOk` on a file that is open: its size in 16 bits, or 0.  Of a file of one byte the
second is what `bufRead` held. -/
def fileOk (held : UInt8) (image : List UInt8) : Nat :=
  let size := image.length % 65536
  if 0 < size then
    let cheks := (image.getD 0 0).toUInt16 <<< 8 ||| (image.getD 1 held).toUInt16
    if 65535 - sumImage image = cheks then size else 0
  else 0

section

variable (file : Option (List UInt8)) (held : UInt8) (firmUpdProgress : Bool)

def qAdd (elem : QueueElement) (next : Place) (s : State) : State :=
  if s.queuedActions.length = queueSize then { s with place := .thrown }
  else { s with queuedActions := s.queuedActions ++ [elem], place := next }

/-- `innerBoardUpdate` to its first wait. -/
def begins (s : State) : State :=
  match file with
  | none => { s with firmImage := none, place := .returned 0 }
  | some image =>
    let s := { s with firmImage := some image }
    let size := fileOk held image
    if 0 < size then
      let s :=
        { s with
          unread := image
          framesQty := 1
          lastProgressNotif := 0
          totalFrames := size / UPD_FRAME_SIZE + 1
          updating := true
          isReady := false }
      qAdd ⟨.reinitFile, [10], true⟩ .waitReinit s
    else { s with place := .returned 0 }

/-- The next block of the image, or the end. -/
def nextFrame (s : State) : State :=
  let block := s.unread.take UPD_FRAME_SIZE
  if block ≠ [] then
    let s := { s with unread := s.unread.drop UPD_FRAME_SIZE, isReady := false }
    qAdd ⟨.writeFile, 10 :: UInt8.ofNat block.length :: block, true⟩ .waitFrame s
  else
    { s with
      progress :=
        if firmUpdProgress ∧ s.lastProgressNotif < 100 then s.progress ++ [100] else s.progress
      tries := 0
      place := .reset }

/-- The progress after a block. -/
def notifyProgress (s : State) : State :=
  let actualProgress := s.framesQty * 100 % 4294967296 / s.totalFrames
  let s :=
    if actualProgress ≠ s.lastProgressNotif ∧ firmUpdProgress then
      { s with
        progress := s.progress ++ [UInt8.ofNat actualProgress]
        lastProgressNotif := actualProgress }
    else s
  { s with framesQty := s.framesQty + 1, place := .nextFrame }

/-- After a reset was replied to: another try, or the end of the update. -/
def afterReset (s : State) : State :=
  let s := { s with tries := s.tries + 1 }
  if s.resetMcuCmdRta ≠ 1 ∧ s.tries < 3 then { s with place := .reset }
  else
    { s with
      updating := false
      firmImage := none
      initialized := false
      version := []
      place := .waitVersion }

/-- The thread of the update goes on to its next wait. -/
def innerBoardUpdate (s : State) : State :=
  match s.place with
  | .begins => begins file held s
  | .waitReinit => if s.isReady then { s with place := .nextFrame } else s
  | .nextFrame => nextFrame firmUpdProgress s
  | .waitFrame => if s.isReady then notifyProgress firmUpdProgress s else s
  | .reset => qAdd ⟨.resetMcu, [], true⟩ .waitReset { s with resetMcuCmdRta := -1 }
  | .waitReset => if s.resetMcuCmdRta = -1 then s else afterReset s
  | .waitVersion =>
    if s.version = [] then s else { s with valConfigPending := true, place := .returned 1 }
  | .returned _ | .thrown => s

inductive Op : Type
  | update
  | poll (rta queued : Rta)
  /-- Another thread queues a command; nobody else resets the board. -/
  | client (cmd : Command) (data : List UInt8)

def step : Op → State → State
  | .update, s => innerBoardUpdate file held firmUpdProgress s
  | .poll rta queued, s => safeBoxMgrRun rta queued s
  | .client cmd data, s =>
    if cmd = .resetMcu ∨ s.queuedActions.length = queueSize then s
    else { s with queuedActions := s.queuedActions ++ [⟨cmd, data, false⟩] }

/-- Before an update. -/
structure Idle (s : State) : Prop where
  place : s.place = .begins
  closed : s.firmImage = none
  others : ∀ elem ∈ s.queuedActions, elem.own = false ∧ elem.cmd ≠ .resetMcu
  fresh : ∀ entry ∈ s.executed, entry.1.own = false

/-! ## What the update should do -/

/-- The bytes of the image in a command. -/
def QueueElement.imageBytes (elem : QueueElement) : List UInt8 :=
  if elem.own ∧ elem.cmd = .writeFile then elem.data.drop 2 else []

/-- The bytes of the image that the board was sent, in their order. -/
def State.sent (s : State) : List UInt8 := s.executed.flatMap fun entry => entry.1.imageBytes

/-- The start or a block was not accepted. -/
def TransferFailed (s : State) : Prop :=
  ∃ entry ∈ s.executed, entry.1.own = true ∧
    (entry.1.cmd = .reinitFile ∨ entry.1.cmd = .writeFile) ∧ entry.2.success = false

/-- No reset was accepted. -/
def EndFailed (s : State) : Prop :=
  ∀ entry ∈ s.executed, entry.1.own = true → entry.1.cmd = .resetMcu → entry.2.success = false

/-- The image is there and right. -/
def Checked (image : List UInt8) : Prop := file = some image ∧ 0 < fileOk held image

/-- What should be when the update is ended: it returned an error and closed the image if
something failed, and where it returned a success the image was sent. -/
def Meets (s : State) (rta : Option UInt8) : Prop :=
  ((∀ image, ¬ Checked file held image) ∨ TransferFailed s ∨ EndFailed s →
    rta = some 0 ∧ s.firmImage = none) ∧
  (rta = some 1 → file = some s.sent)

/-- The update is ended, with its return value unless the queue was full. -/
def State.ended (s : State) : Option (Option UInt8) :=
  match s.place with
  | .returned rta => some (some rta)
  | .thrown => some none
  | _ => none

end

/-! ## Executing a command -/

/-- What executing a command does to what the update looks at. -/
structure Executes (elem : QueueElement) (rta : Rta) (s next : State) : Prop where
  place : next.place = s.place
  firmImage : next.firmImage = s.firmImage
  unread : next.unread = s.unread
  queuedActions : next.queuedActions = s.queuedActions
  executed : next.executed = s.executed ++ [(elem, rta)]
  resetMcuCmdRta : next.resetMcuCmdRta =
    if elem.cmd = .resetMcu then (if rta.success then 1 else 0) else s.resetMcuCmdRta
  polls : next.polls = s.polls

theorem executes_safeBoxWriteRead (elem : QueueElement) (rta : Rta) (s : State) :
    Executes elem rta s (safeBoxWriteRead elem rta s) := by
  obtain ⟨cmd, data, own⟩ := elem
  rw [safeBoxWriteRead]
  cases cmd
  case writeFile | reinitFile =>
    cases updating : s.updating <;> simp only [commandsRtaFcn] <;>
      exact ⟨rfl, rfl, rfl, rfl, rfl, rfl, rfl⟩
  case version =>
    simp only [commandsRtaFcn, RtaFcn.apply]
    split_ifs <;> exact ⟨rfl, rfl, rfl, rfl, rfl, rfl, rfl⟩
  case valConfig =>
    simp only [commandsRtaFcn, RtaFcn.apply]
    split_ifs <;> exact ⟨rfl, rfl, rfl, rfl, rfl, rfl, rfl⟩
  case gr1 =>
    simp only [commandsRtaFcn, RtaFcn.apply]
    split_ifs <;> exact ⟨rfl, rfl, rfl, rfl, rfl, rfl, rfl⟩
  all_goals exact ⟨rfl, rfl, rfl, rfl, rfl, rfl, rfl⟩

theorem executes_safeBoxMgrGr1ReqStatus (rta : Rta) (s : State) :
    ∃ elem : QueueElement, elem.own = false ∧ elem.cmd ≠ .resetMcu ∧
      Executes elem rta s (safeBoxMgrGr1ReqStatus rta s) := by
  rw [safeBoxMgrGr1ReqStatus]
  by_cases unknown : s.initialized = false ∨ s.version = []
  · obtain ⟨place, firmImage, unread, queued, executed, reset, polls⟩ :=
      executes_safeBoxWriteRead ⟨.version, [], false⟩ rta s
    refine ⟨⟨.version, [], false⟩, rfl, by decide, ?_⟩
    rw [if_pos unknown]
    dsimp only
    split_ifs
    · exact ⟨place, firmImage, unread, queued, executed, reset, polls⟩
    · exact ⟨place, firmImage, unread, queued, executed, reset, polls⟩
  rw [if_neg unknown]
  by_cases pending : s.valConfigPending = true
  · rw [if_pos pending]
    exact ⟨_, rfl, by decide, executes_safeBoxWriteRead ⟨.valConfig, [], false⟩ rta s⟩
  rw [if_neg pending]
  by_cases due : s.configDue = true
  · rw [if_pos due]
    obtain ⟨place, firmImage, unread, queued, executed, reset, polls⟩ :=
      executes_safeBoxWriteRead ⟨.valConfig, [], false⟩ rta { s with configDue := false }
    exact ⟨_, rfl, by decide, place, firmImage, unread, queued, executed, reset, polls⟩
  · rw [if_neg due]
    exact ⟨_, rfl, by decide, executes_safeBoxWriteRead ⟨.gr1, [], false⟩ rta s⟩

/-! ## The queue -/

def NoOwn (queued : List QueueElement) : Prop := ∀ elem ∈ queued, elem.own = false

def NoReset (queued : List QueueElement) : Prop := ∀ elem ∈ queued, elem.cmd ≠ .resetMcu

/-- A reset behind all commands of the update. -/
def ResetLast (queued : List QueueElement) : Prop :=
  ∃ before behind, queued = before ++ ⟨.resetMcu, [], true⟩ :: behind ∧
    NoReset before ∧ NoReset behind ∧ NoOwn behind

def queuedBytes (queued : List QueueElement) : List UInt8 :=
  queued.flatMap QueueElement.imageBytes

theorem NoOwn.queuedBytes {queued : List QueueElement} (noOwn : NoOwn queued) :
    queuedBytes queued = [] := by
  refine flatMap_eq_nil_iff.2 fun elem here => ?_
  rw [QueueElement.imageBytes, if_neg fun both => absurd ((noOwn elem here).symm.trans both.1) ?_]
  decide

theorem queuedBytes_append (queued : List QueueElement) (elem : QueueElement) :
    queuedBytes (queued ++ [elem]) = queuedBytes queued ++ elem.imageBytes := by
  rw [queuedBytes, flatMap_append]
  simp [queuedBytes]

theorem imageBytes_other {elem : QueueElement} (other : elem.own = false) :
    elem.imageBytes = [] :=
  if_neg fun both => absurd (other.symm.trans both.1) (by decide)

/-! ## The invariant -/

section

variable (file : Option (List UInt8)) (held : UInt8)

/-- The image is open, and what of it is not yet sent is in the queue or not yet read. -/
structure Sending (s : State) : Prop where
  image : ∃ image, Checked file held image ∧ s.firmImage = some image ∧
    s.sent ++ queuedBytes s.queuedActions ++ s.unread = image

/-- All was sent and the image is closed. -/
structure Done (s : State) : Prop where
  image : Checked file held s.sent
  closed : s.firmImage = none
  noOwn : NoOwn s.queuedActions

/-- The image was not there, or not right. -/
structure Refused (s : State) : Prop where
  unchecked : ∀ image, ¬ Checked file held image
  left : s.firmImage = file

def Inv (s : State) : Prop :=
  match s.place with
  | .begins => Idle s
  | .waitReinit | .nextFrame | .waitFrame =>
    Sending file held s ∧ NoReset s.queuedActions ∧ EndFailed s
  | .reset => Sending file held s ∧ NoReset s.queuedActions ∧ EndFailed s ∧ s.unread = []
  | .waitReset => Sending file held s ∧ s.unread = [] ∧
    (s.resetMcuCmdRta = -1 ∧ ResetLast s.queuedActions ∧ EndFailed s ∨
      s.resetMcuCmdRta ≠ -1 ∧ NoOwn s.queuedActions ∧ NoReset s.queuedActions ∧
        (s.resetMcuCmdRta ≠ 1 → EndFailed s))
  | .waitVersion => Done file held s
  | .returned rta => rta = 1 ∧ Done file held s ∨ rta = 0 ∧ Refused file held s
  | .thrown => NoReset s.queuedActions ∧ EndFailed s ∧ file ≠ none

end

section

variable {file : Option (List UInt8)} {held : UInt8} {s next : State} {elem : QueueElement}
  {rta : Rta} {queued : List QueueElement}

theorem Executes.sent (executes : Executes elem rta s next) :
    next.sent = s.sent ++ elem.imageBytes := by
  rw [State.sent, executes.executed, flatMap_append]
  simp [State.sent]

theorem Executes.endFailed (executes : Executes elem rta s next)
    (other : elem.cmd ≠ .resetMcu ∨ rta.success = false) (failed : EndFailed s) :
    EndFailed next := by
  intro entry here own reset
  rw [executes.executed] at here
  rcases mem_append.1 here with before | now
  · exact failed entry before own reset
  · obtain rfl := mem_singleton.1 now
    rcases other with other | refused
    · exact absurd reset other
    · exact refused

theorem Sending.pop (sending : Sending file held s) (queue : s.queuedActions = elem :: queued)
    (executes : Executes elem rta { s with queuedActions := queued } next) :
    Sending file held next := by
  obtain ⟨image, checked, isOpen, bytes⟩ := sending.image
  refine ⟨image, checked, executes.firmImage.trans isOpen, ?_⟩
  rw [executes.sent, executes.queuedActions, executes.unread, ← bytes, queue]
  show s.sent ++ _ ++ _ ++ _ = _
  rw [queuedBytes, queuedBytes, flatMap_cons]
  simp only [append_assoc]

theorem Done.pop (done : Done file held s) (queue : s.queuedActions = elem :: queued)
    (executes : Executes elem rta { s with queuedActions := queued } next) :
    Done file held next := by
  have noOwn := done.noOwn
  rw [queue] at noOwn
  have sent : next.sent = s.sent := by
    rw [executes.sent, imageBytes_other (noOwn elem mem_cons_self), append_nil]
    rfl
  refine ⟨sent ▸ done.image, executes.firmImage.trans done.closed, ?_⟩
  rw [executes.queuedActions]
  exact fun other here => noOwn other (mem_cons_of_mem elem here)

theorem NoReset.pop (noReset : NoReset s.queuedActions)
    (queue : s.queuedActions = elem :: queued)
    (executes : Executes elem rta { s with queuedActions := queued } next) :
    elem.cmd ≠ .resetMcu ∧ NoReset next.queuedActions := by
  rw [queue] at noReset
  rw [executes.queuedActions]
  exact ⟨noReset elem mem_cons_self,
    fun other here => noReset other (mem_cons_of_mem elem here)⟩

theorem ResetLast.pop (last : ResetLast (elem :: queued)) :
    elem.cmd ≠ .resetMcu ∧ ResetLast queued ∨
      elem.cmd = .resetMcu ∧ NoReset queued ∧ NoOwn queued := by
  obtain ⟨before, behind, queue, noReset, noReset', noOwn⟩ := last
  cases before with
  | nil =>
    obtain ⟨rfl, rfl⟩ := List.cons.inj queue
    exact .inr ⟨rfl, noReset', noOwn⟩
  | cons first before =>
    obtain ⟨rfl, rfl⟩ := List.cons.inj queue
    exact .inl ⟨noReset elem mem_cons_self, before, behind, rfl,
      fun other here => noReset other (mem_cons_of_mem elem here), noReset', noOwn⟩

theorem Inv.pop (inv : Inv file held s) (queue : s.queuedActions = elem :: queued)
    (executes : Executes elem rta { s with queuedActions := queued } next) :
    Inv file held next := by
  have place : next.place = s.place := executes.place
  have failed (other : elem.cmd ≠ .resetMcu) (failed : EndFailed s) : EndFailed next :=
    executes.endFailed (.inl other) failed
  unfold Inv at inv ⊢
  rw [place]
  cases here : s.place with
  | begins =>
    rw [here] at inv
    have first := inv.others elem (by rw [queue]; exact mem_cons_self)
    refine ⟨place.trans here, executes.firmImage.trans inv.closed, ?_, ?_⟩
    · rw [executes.queuedActions]
      exact fun other inside =>
        inv.others other (by rw [queue]; exact mem_cons_of_mem _ inside)
    · intro entry inside
      rw [executes.executed] at inside
      rcases mem_append.1 inside with before | now
      · exact inv.fresh entry before
      · obtain rfl := mem_singleton.1 now
        exact first.1
  | waitReinit | nextFrame | waitFrame =>
    rw [here] at inv
    obtain ⟨sending, noReset, endFailed⟩ := inv
    obtain ⟨other, noReset⟩ := noReset.pop queue executes
    exact ⟨sending.pop queue executes, noReset, failed other endFailed⟩
  | reset =>
    rw [here] at inv
    obtain ⟨sending, noReset, endFailed, unread⟩ := inv
    obtain ⟨other, noReset⟩ := noReset.pop queue executes
    exact ⟨sending.pop queue executes, noReset, failed other endFailed,
      executes.unread.trans unread⟩
  | waitReset =>
    rw [here] at inv
    obtain ⟨sending, unread, waits⟩ := inv
    refine ⟨sending.pop queue executes, executes.unread.trans unread, ?_⟩
    have reply := executes.resetMcuCmdRta
    rcases waits with ⟨waiting, last, endFailed⟩ | ⟨replied, noOwn, noReset, endFailed⟩
    · rw [queue] at last
      rcases last.pop with ⟨other, last⟩ | ⟨reset, noReset, noOwn⟩
      · rw [if_neg other] at reply
        exact .inl ⟨reply.trans waiting, by rw [executes.queuedActions]; exact last,
          failed other endFailed⟩
      · right
        rw [if_pos reset] at reply
        rw [reply, executes.queuedActions]
        refine ⟨by split_ifs <;> decide, noOwn, noReset, fun refused => ?_⟩
        refine executes.endFailed (.inr (Bool.eq_false_iff.2 fun success => ?_)) endFailed
        exact refused (if_pos success)
    · right
      obtain ⟨other, noReset⟩ := noReset.pop queue executes
      rw [if_neg other] at reply
      have same : next.resetMcuCmdRta = s.resetMcuCmdRta := reply
      rw [same, executes.queuedActions]
      refine ⟨replied, ?_, ?_, fun refused => failed other (endFailed refused)⟩
      · rw [queue] at noOwn
        exact fun other here => noOwn other (mem_cons_of_mem elem here)
      · rw [executes.queuedActions] at noReset
        exact noReset
  | waitVersion =>
    rw [here] at inv
    exact Done.pop inv queue executes
  | returned code =>
    rw [here] at inv
    rcases inv with ⟨success, done⟩ | ⟨error, refused⟩
    · exact .inl ⟨success, done.pop queue executes⟩
    · exact .inr ⟨error, refused.unchecked, executes.firmImage.trans refused.left⟩
  | thrown =>
    rw [here] at inv
    obtain ⟨noReset, endFailed, there⟩ := inv
    obtain ⟨other, noReset⟩ := noReset.pop queue executes
    exact ⟨noReset, failed other endFailed, there⟩

/-- What the invariant needs of a queue is kept where another has a command of another thread
more. -/
structure Beside (queued other : List QueueElement) : Prop where
  bytes : queuedBytes other = queuedBytes queued
  noOwn : NoOwn queued → NoOwn other
  noReset : NoReset queued → NoReset other
  resetLast : ResetLast queued → ResetLast other

theorem beside_front (own : elem.own = false) (reset : elem.cmd ≠ .resetMcu) :
    Beside queued (elem :: queued) where
  bytes := by rw [queuedBytes, flatMap_cons, imageBytes_other own]; rfl
  noOwn := fun noOwn => forall_mem_cons.2 ⟨own, noOwn⟩
  noReset := fun noReset => forall_mem_cons.2 ⟨reset, noReset⟩
  resetLast := by
    rintro ⟨before, behind, rfl, noReset, noReset', noOwn⟩
    exact ⟨elem :: before, behind, rfl, forall_mem_cons.2 ⟨reset, noReset⟩, noReset', noOwn⟩

theorem beside_back (own : elem.own = false) (reset : elem.cmd ≠ .resetMcu) :
    Beside queued (queued ++ [elem]) where
  bytes := by rw [queuedBytes_append, imageBytes_other own, append_nil]
  noOwn := fun noOwn => forall_mem_append.2 ⟨noOwn, forall_mem_singleton.2 own⟩
  noReset := fun noReset => forall_mem_append.2 ⟨noReset, forall_mem_singleton.2 reset⟩
  resetLast := by
    rintro ⟨before, behind, rfl, noReset, noReset', noOwn⟩
    exact ⟨before, behind ++ [elem], by simp, noReset,
      forall_mem_append.2 ⟨noReset', forall_mem_singleton.2 reset⟩,
      forall_mem_append.2 ⟨noOwn, forall_mem_singleton.2 own⟩⟩

theorem Inv.beside (inv : Inv file held s) (other : Beside s.queuedActions queued) (polls : Nat) :
    Inv file held { s with queuedActions := queued, polls := polls } := by
  have sending (sending : Sending file held s) :
      Sending file held { s with queuedActions := queued, polls := polls } := by
    obtain ⟨image, checked, isOpen, bytes⟩ := sending.image
    exact ⟨image, checked, isOpen, by dsimp only; rw [other.bytes]; exact bytes⟩
  obtain ⟨next, next_eq⟩ : ∃ next, next = { s with queuedActions := queued, polls := polls } :=
    ⟨_, rfl⟩
  have place : next.place = s.place := by rw [next_eq]
  rw [← next_eq] at sending ⊢
  unfold Inv at inv ⊢
  rw [place]
  cases here : s.place <;> rw [next_eq] at sending ⊢
  case begins =>
    rw [here] at inv
    have both := other.noOwn fun elem inside => (inv.others elem inside).1
    have reset := other.noReset fun elem inside => (inv.others elem inside).2
    exact ⟨here, inv.closed, fun elem inside => ⟨both elem inside, reset elem inside⟩, inv.fresh⟩
  case waitReinit | nextFrame | waitFrame =>
    rw [here] at inv
    exact ⟨sending inv.1, other.noReset inv.2.1, inv.2.2⟩
  case reset =>
    rw [here] at inv
    exact ⟨sending inv.1, other.noReset inv.2.1, inv.2.2⟩
  case waitReset =>
    rw [here] at inv
    refine ⟨sending inv.1, inv.2.1, ?_⟩
    rcases inv.2.2 with ⟨waiting, last, endFailed⟩ | ⟨replied, noOwn, noReset, endFailed⟩
    · exact .inl ⟨waiting, other.resetLast last, endFailed⟩
    · exact .inr ⟨replied, other.noOwn noOwn, other.noReset noReset, endFailed⟩
  case waitVersion =>
    rw [here] at inv
    exact ⟨inv.image, inv.closed, other.noOwn inv.noOwn⟩
  case returned code =>
    rw [here] at inv
    rcases inv with ⟨success, done⟩ | ⟨error, refused⟩
    · exact .inl ⟨success, done.image, done.closed, other.noOwn done.noOwn⟩
    · exact .inr ⟨error, refused.unchecked, refused.left⟩
  case thrown =>
    rw [here] at inv
    exact ⟨other.noReset inv.1, inv.2⟩

theorem Inv.processQueued (inv : Inv file held s) (rta : Rta) :
    Inv file held (safeBoxProcessQueuedElem rta s) := by
  rw [safeBoxProcessQueuedElem]
  cases queue : s.queuedActions with
  | nil => exact inv
  | cons elem queued => exact inv.pop queue (executes_safeBoxWriteRead elem rta _)

theorem Inv.poll (inv : Inv file held s) (rta queued : Rta) :
    Inv file held (safeBoxMgrRun rta queued s) := by
  rw [safeBoxMgrRun]
  by_cases closed : s.firmImage = none
  · rw [if_pos closed]
    obtain ⟨elem, own, reset, executes⟩ :=
      executes_safeBoxMgrGr1ReqStatus rta { s with polls := s.polls + 1 }
    have polled : Inv file held (safeBoxMgrGr1ReqStatus rta { s with polls := s.polls + 1 }) :=
      (inv.beside (beside_front own reset) (s.polls + 1)).pop rfl executes
    dsimp only
    split_ifs
    · exact polled
    · exact polled.processQueued queued
  · rw [if_neg closed]
    exact inv.processQueued queued

/-! ## The thread of the update -/

theorem Checked.there {image : List UInt8} (checked : Checked file held image) : file ≠ none :=
  fun none => absurd (checked.1.symm.trans none) (by simp)

theorem Sending.qAdd {image : List UInt8} (checked : Checked file held image)
    (isOpen : s.firmImage = some image)
    (bytes : s.sent ++ queuedBytes s.queuedActions ++ elem.imageBytes ++ s.unread = image)
    (noReset : NoReset s.queuedActions) (other : elem.cmd ≠ .resetMcu) (failed : EndFailed s)
    {place : Place} (waits : place = .waitReinit ∨ place = .waitFrame) :
    Inv file held (qAdd elem place s) := by
  rw [InnerBoard.qAdd]
  by_cases full : s.queuedActions.length = queueSize
  · rw [if_pos full]
    exact ⟨noReset, failed, checked.there⟩
  · rw [if_neg full]
    have sending : Sending file held
        { s with queuedActions := s.queuedActions ++ [elem], place := place } := by
      refine ⟨image, checked, isOpen, ?_⟩
      dsimp only
      rw [queuedBytes_append, ← append_assoc]
      exact bytes
    have still : NoReset (s.queuedActions ++ [elem]) :=
      forall_mem_append.2 ⟨noReset, forall_mem_singleton.2 other⟩
    rcases waits with rfl | rfl
    · exact ⟨sending, still, failed⟩
    · exact ⟨sending, still, failed⟩

theorem Idle.begins (idle : Idle s) : Inv file held (begins file held s) := by
  have noReset : NoReset s.queuedActions := fun elem here => (idle.others elem here).2
  have noOwn : NoOwn s.queuedActions := fun elem here => (idle.others elem here).1
  have endFailed : EndFailed s := fun entry here own =>
    absurd ((idle.fresh entry here).symm.trans own) (by decide)
  have sent : s.sent = [] :=
    flatMap_eq_nil_iff.2 fun entry here => imageBytes_other (idle.fresh entry here)
  cases file with
  | none => exact .inr ⟨rfl, fun image checked => absurd checked.1 (by simp), rfl⟩
  | some image =>
    rw [InnerBoard.begins]
    by_cases right : 0 < fileOk held image
    · rw [if_pos right]
      refine Sending.qAdd ⟨rfl, right⟩ ?_ ?_ ?_ ?_ ?_ (.inl rfl)
      · rfl
      · show s.sent ++ queuedBytes s.queuedActions ++ _ ++ image = image
        rw [sent, noOwn.queuedBytes]
        rfl
      · exact noReset
      · exact (by decide : Command.reinitFile ≠ Command.resetMcu)
      · exact endFailed
    · rw [if_neg right]
      refine .inr ⟨rfl, fun other checked => ?_, rfl⟩
      obtain rfl := Option.some.inj checked.1
      exact right checked.2

theorem Sending.nextFrame (sending : Sending file held s) (noReset : NoReset s.queuedActions)
    (endFailed : EndFailed s) (firmUpdProgress : Bool) :
    Inv file held (nextFrame firmUpdProgress s) := by
  obtain ⟨image, checked, isOpen, bytes⟩ := sending.image
  rw [InnerBoard.nextFrame]
  by_cases block : s.unread.take UPD_FRAME_SIZE ≠ []
  · rw [if_pos block]
    refine Sending.qAdd checked ?_ ?_ ?_ ?_ ?_ (.inr rfl)
    · exact isOpen
    · have here : QueueElement.imageBytes ⟨.writeFile,
          10 :: UInt8.ofNat (s.unread.take UPD_FRAME_SIZE).length :: s.unread.take UPD_FRAME_SIZE,
          true⟩ = s.unread.take UPD_FRAME_SIZE := rfl
      rw [here]
      show s.sent ++ queuedBytes s.queuedActions ++ _ ++ s.unread.drop UPD_FRAME_SIZE = image
      rw [append_assoc, take_append_drop]
      exact bytes
    · exact noReset
    · exact (by decide : Command.writeFile ≠ Command.resetMcu)
    · exact endFailed
  · rw [if_neg block]
    have read : s.unread = [] := by
      rcases take_eq_nil_iff.1 (not_not.mp block) with zero | read
      · exact absurd zero (by decide)
      · exact read
    exact ⟨⟨image, checked, isOpen, bytes⟩, noReset, endFailed, read⟩

theorem Inv.update (inv : Inv file held s) (firmUpdProgress : Bool) :
    Inv file held (innerBoardUpdate file held firmUpdProgress s) := by
  have unchanged := inv
  unfold Inv at inv
  rw [innerBoardUpdate]
  cases here : s.place <;> rw [here] at inv
  case begins => exact Idle.begins inv
  case waitReinit =>
    dsimp only
    split_ifs
    · obtain ⟨sending, noReset, endFailed⟩ := inv
      exact ⟨⟨sending.image⟩, noReset, endFailed⟩
    · exact unchanged
  case nextFrame =>
    exact Sending.nextFrame inv.1 inv.2.1 inv.2.2 firmUpdProgress
  case waitFrame =>
    dsimp only
    split_ifs
    · obtain ⟨sending, noReset, endFailed⟩ := inv
      rw [notifyProgress]
      split_ifs
      · exact ⟨⟨sending.image⟩, noReset, endFailed⟩
      · exact ⟨⟨sending.image⟩, noReset, endFailed⟩
    · exact unchanged
  case reset =>
    obtain ⟨sending, noReset, endFailed, unread⟩ := inv
    obtain ⟨image, checked, isOpen, bytes⟩ := sending.image
    dsimp only
    rw [qAdd]
    split_ifs
    · exact ⟨noReset, endFailed, checked.there⟩
    · refine ⟨⟨image, checked, isOpen, ?_⟩, unread, .inl ⟨rfl, ?_, endFailed⟩⟩
      · dsimp only
        rw [queuedBytes_append]
        exact (congrArg (· ++ s.unread) (congrArg (s.sent ++ ·) (append_nil _))).trans bytes
      · exact ⟨s.queuedActions, [], rfl, noReset, fun _ none => absurd none (by simp),
          fun _ none => absurd none (by simp)⟩
  case waitReset =>
    obtain ⟨sending, unread, waits⟩ := inv
    dsimp only
    by_cases waiting : s.resetMcuCmdRta = -1
    · rw [if_pos waiting]
      exact unchanged
    · rw [if_neg waiting]
      rcases waits with ⟨reply, _⟩ | ⟨_, noOwn, noReset, endFailed⟩
      · exact absurd reply waiting
      rw [afterReset]
      dsimp only
      split_ifs with again
      · exact ⟨⟨sending.image⟩, noReset, endFailed again.1, unread⟩
      · obtain ⟨image, checked, _, bytes⟩ := sending.image
        rw [noOwn.queuedBytes, unread, append_nil, append_nil] at bytes
        exact ⟨bytes.symm ▸ checked, rfl, noOwn⟩
  case waitVersion =>
    dsimp only
    split_ifs
    · exact unchanged
    · exact .inl ⟨rfl, inv.image, inv.closed, inv.noOwn⟩
  case returned code => exact unchanged
  case thrown => exact unchanged

theorem Inv.step (inv : Inv file held s) (firmUpdProgress : Bool) (op : Op) :
    Inv file held (step file held firmUpdProgress op s) := by
  cases op with
  | update => exact inv.update firmUpdProgress
  | poll rta queued => exact inv.poll rta queued
  | client cmd data =>
    rw [InnerBoard.step]
    split_ifs with ignored
    · exact inv
    · exact inv.beside (beside_back rfl fun reset => ignored (.inl reset)) s.polls

/-! ## Every run -/

theorem Inv.meets_ended_iff (inv : Inv file held s) {rta : Option UInt8} (ended : s.ended = some rta) :
    Meets file held s rta ↔
      file = none ∨ (∃ image, Checked file held image) ∧ ¬ TransferFailed s ∧ ¬ EndFailed s := by
  unfold Inv at inv
  rw [State.ended] at ended
  cases here : s.place <;> rw [here] at inv ended
  case returned code =>
    obtain rfl := Option.some.inj ended
    rcases inv with ⟨rfl, done⟩ | ⟨rfl, refused⟩
    · -- a success was returned
      have checked : ∃ image, Checked file held image := ⟨_, done.image⟩
      constructor
      · rintro ⟨error, -⟩
        refine .inr ⟨checked, fun failed => ?_, fun failed => ?_⟩
        · exact absurd (error (.inr (.inl failed))).1 (by decide)
        · exact absurd (error (.inr (.inr failed))).1 (by decide)
      · rintro (none | ⟨_, transfer, ending⟩)
        · exact absurd (none.symm.trans done.image.1) (by simp)
        · refine ⟨?_, fun _ => done.image.1⟩
          rintro (unchecked | failed | failed)
          · exact absurd done.image (unchecked _)
          · exact absurd failed transfer
          · exact absurd failed ending
    · -- an error was returned
      constructor
      · rintro ⟨error, -⟩
        exact .inl (refused.left.symm.trans (error (.inl refused.unchecked)).2)
      · rintro (none | ⟨⟨image, checked⟩, -⟩)
        · exact ⟨fun _ => ⟨rfl, refused.left.trans none⟩, fun success =>
            absurd success (by decide)⟩
        · exact absurd checked (refused.unchecked image)
  case thrown =>
    obtain rfl := Option.some.inj ended
    constructor
    · rintro ⟨error, -⟩
      exact absurd (error (.inr (.inr inv.2.1))).1 (by decide)
    · rintro (none | ⟨_, _, ending⟩)
      · exact absurd none inv.2.2
      · exact absurd inv.2.1 ending
  all_goals exact absurd ended (by simp)

/-- In every run the update, once it is ended, did as it should just in case there was no image,
or it was right and the board accepted the start, each block and a reset. -/
theorem update_meets (file : Option (List UInt8)) (held : UInt8) (firmUpdProgress : Bool)
    {s : State} (idle : Idle s) (ops : List Op) {rta : Option UInt8}
    (ended : (Trace.after (step file held firmUpdProgress) ops s).ended = some rta) :
    Meets file held (Trace.after (step file held firmUpdProgress) ops s) rta ↔
      file = none ∨ (∃ image, Checked file held image) ∧
        ¬ TransferFailed (Trace.after (step file held firmUpdProgress) ops s) ∧
        ¬ EndFailed (Trace.after (step file held firmUpdProgress) ops s) := by
  have start : Inv file held s := by
    unfold Inv
    rw [idle.place]
    exact idle
  have inv : Inv file held (Trace.after (step file held firmUpdProgress) ops s) :=
    Trace.after_of_invariant (Inv file held) (fun s op inv => inv.step firmUpdProgress op) ops start
  exact inv.meets_ended_iff ended

end

/-! ## Two images -/

instance (s : State) : Decidable (TransferFailed s) :=
  inferInstanceAs (Decidable (∃ entry ∈ s.executed, _ ∧ _ ∧ _))

instance (s : State) : Decidable (EndFailed s) :=
  inferInstanceAs (Decidable (∀ entry ∈ s.executed, _ → _ → _))

/-- The board is known and nothing is queued. -/
def newState : State :=
  { firmImage := none, unread := [], updating := false, isReady := false, resetMcuCmdRta := 0
    initialized := true, version := [0x31], valConfigPending := false, configDue := false
    safeBoxCommErrorStatus := false, queuedActions := [], executed := [], polls := 0
    place := .begins, framesQty := 0, totalFrames := 0, lastProgressNotif := 0, tries := 0
    progress := [] }

theorem idle_newState : Idle newState where
  place := rfl
  closed := rfl
  others := fun _ none => absurd none (by simp [newState])
  fresh := fun _ none => absurd none (by simp [newState])

/-- Every command is accepted, and the version comes after the update. -/
def accepted : List Op :=
  let success : Rta := some (SBOX_SUCCESS_CMD, [0x32, 0])
  [.update, .poll success success, .update, .update, .poll success success, .update, .update,
    .update, .poll success success, .update, .poll success success, .update]

theorem update_meets_accepted :
    Meets (some [0xFF, 0xFF]) 0
      (Trace.after (step (some [0xFF, 0xFF]) 0 true) accepted newState) (some 1) := by
  have ended : (Trace.after (step (some [0xFF, 0xFF]) 0 true) accepted newState).ended =
      some (some 1) := by
    decide +kernel
  exact (update_meets _ 0 true idle_newState accepted ended).2
    (.inr ⟨⟨[0xFF, 0xFF], rfl, by decide +kernel⟩, by decide +kernel, by decide +kernel⟩)

/-- An image with a wrong checksum: an error is returned, but the image stays open, and the
devices are not polled. -/
theorem wrong_image_open :
    (Trace.after (step (some [0, 0]) 0 true) [.update] newState).ended = some (some 0) ∧
    (Trace.after (step (some [0, 0]) 0 true) [.update, .poll none none] newState).polls = 0 ∧
    ¬ Meets (some [0, 0]) 0 (Trace.after (step (some [0, 0]) 0 true) [.update] newState)
      (some 0) := by
  refine ⟨by decide +kernel, by decide +kernel, fun meets => ?_⟩
  have closed := (meets.1 (.inr (.inr (by decide +kernel)))).2
  exact absurd closed (by decide +kernel)

end CimArm.InnerBoard
