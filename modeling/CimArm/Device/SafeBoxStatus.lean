import CimArm.Lib.Changes
import CimArm.Device.SafeBoxHAL

/-!
# The status reports of the safe board

The board is asked for its status all the time.  A report is compared with the status kept
field by field, and each field that changed is kept and told to the application by its device;
a plunger that changed with a lock that is open now is told first.  Some fields come from bits
of the one about the board itself.  While that one says that the system is down the locks
0 and 1, the stackers, the power and the battery are not looked at, and the locks 2 and 3 only
come from boards of the newer protocol.

A reply that is no report is a communication error, told once until the next report.

* `statusReports`: what the status and the notifications are after any reports and failures.
* `systemDown_notKept`: a report is not kept whole while the system is down.
-/

namespace CimArm.SafeBoxStatus

open Changes List Function
open SafeBox (SBOX_SUCCESS_CMD ERR_COMMUNICATION_ERROR)

/-! ## The model -/

inductive Field : Type
  | locker0 | plunger0 | locker1 | plunger1 | safeBox | stacker0 | stacker1
  | locker0Error | locker1Error | locker2 | locker3 | plunger2 | plunger3 | keySwitch
  | locker2Error | locker3Error | powerSupply | system | battery | memory
  deriving DecidableEq

/-- The bytes of a report are the first fields of a status, in their order. -/
abbrev Gr1Status : Type := Field → UInt8

/-- A reply from the board: the result, the length, and the data read as a status. -/
structure Reply : Type where
  rta : UInt8
  len : Nat
  data : Gr1Status

/-- What is kept about the board.  Both callbacks are set before the first report; the one for
the status is called with the device of a field and its value, and the notifications are the
calls so far. -/
structure SafeBox : Type where
  gr1Status : Watched Field UInt8
  safeBoxCommErrorStatus : Bool
  valConfigPending : Bool
  oldFirmProtocol : Bool
  oldFirmProtocolNotified : Bool
  commErrors : List UInt8

def ERR_INCOMPATIBLE_FIRMWARE : UInt8 := 5

/-- `safeBoxMgrInit`. -/
def SafeBox.init : SafeBox :=
  { gr1Status := { value := fun _ => 255, announced := [] }
    safeBoxCommErrorStatus := false
    valConfigPending := false
    oldFirmProtocol := false
    oldFirmProtocolNotified := false
    commErrors := [] }

/-- The fields that come from bits of the field about the board. -/
def Gr1Status.report (grStat : Gr1Status) : Gr1Status
  | .memory => grStat .safeBox >>> 3 &&& 0x03
  | .system => grStat .safeBox >>> 2 &&& 0x01
  | .powerSupply => grStat .safeBox >>> 7 &&& 0x01
  | .battery => grStat .safeBox &&& 0x03
  | field => grStat field

section

variable (grStat : Gr1Status)

/-- The memory is kept, but nobody is told. -/
def keepMemory (s : Watched Field UInt8) : Watched Field UInt8 :=
  let aux := grStat .safeBox >>> 3 &&& 0x03
  if aux ≠ s.value .memory then { s with value := Function.update s.value .memory aux } else s

/-- A lock and its plunger, which is told first when the lock is open. -/
def lockAndPlunger (locker plunger : Field) (s : Watched Field UInt8) : Watched Field UInt8 :=
  let s :=
    if grStat locker ≠ s.value locker then
      let s :=
        if grStat locker = 0 ∧ grStat plunger ≠ s.value plunger then
          { value := Function.update s.value plunger (grStat plunger)
            announced := s.announced ++ [(plunger, grStat plunger)] }
        else s
      { value := Function.update s.value locker (grStat locker)
        announced := s.announced ++ [(locker, grStat locker)] }
    else s
  s.observe plunger (grStat plunger)

/-- The fields of every report. -/
def firstFields (s : Watched Field UInt8) : Watched Field UInt8 :=
  let s := keepMemory grStat s
  let s := s.observe .system (grStat .safeBox >>> 2 &&& 0x01)
  if s.value .system = 0 then
    let s := lockAndPlunger grStat .locker0 .plunger0 s
    let s := lockAndPlunger grStat .locker1 .plunger1 s
    let s := s.observe .powerSupply (grStat .safeBox >>> 7 &&& 0x01)
    let s := s.observe .battery (grStat .safeBox &&& 0x03)
    let s := s.observe .stacker0 (grStat .stacker0)
    let s := s.observe .stacker1 (grStat .stacker1)
    let s := s.observe .locker0Error (grStat .locker0Error)
    s.observe .locker1Error (grStat .locker1Error)
  else s

/-- The fields of a report of the newer protocol. -/
def otherFields (s : Watched Field UInt8) : Watched Field UInt8 :=
  let s := lockAndPlunger grStat .locker2 .plunger2 s
  let s := lockAndPlunger grStat .locker3 .plunger3 s
  let s := s.observe .locker2Error (grStat .locker2Error)
  s.observe .locker3Error (grStat .locker3Error)

end

/-- A status report, and not a failure or the reply to something else. -/
def Reply.IsReport (newStatus : Reply) : Prop :=
  newStatus.rta = SBOX_SUCCESS_CMD ∧ (newStatus.len = 16 ∨ newStatus.len = 9)

instance (newStatus : Reply) : Decidable newStatus.IsReport :=
  inferInstanceAs (Decidable (_ ∧ _))

/-- A report ends a communication error. -/
def endCommError (mySafeBox : SafeBox) : SafeBox :=
  if mySafeBox.safeBoxCommErrorStatus then
    { mySafeBox with
      safeBoxCommErrorStatus := false, commErrors := mySafeBox.commErrors ++ [0] }
  else mySafeBox

/-- The older protocol is told once, as an error that is over. -/
def oldFirmware (mySafeBox : SafeBox) : SafeBox :=
  if mySafeBox.oldFirmProtocolNotified then { mySafeBox with oldFirmProtocol := true }
  else
    { mySafeBox with
      oldFirmProtocol := true
      oldFirmProtocolNotified := true
      commErrors := mySafeBox.commErrors ++ [ERR_INCOMPATIBLE_FIRMWARE, 0] }

/-- `safeBoxGr1GetStatus` on a report. -/
def getReport (newStatus : Reply) (mySafeBox : SafeBox) : SafeBox :=
  let mySafeBox := endCommError mySafeBox
  let mySafeBox :=
    { mySafeBox with gr1Status := firstFields newStatus.data mySafeBox.gr1Status }
  if newStatus.len = 16 then
    { mySafeBox with
      oldFirmProtocol := false
      gr1Status := otherFields newStatus.data mySafeBox.gr1Status }
  else oldFirmware mySafeBox

/-- `safeBoxGr1GetStatus` on anything else. -/
def getFailure (mySafeBox : SafeBox) : SafeBox :=
  if mySafeBox.safeBoxCommErrorStatus then mySafeBox
  else
    { mySafeBox with
      safeBoxCommErrorStatus := true
      valConfigPending := true
      commErrors := mySafeBox.commErrors ++ [ERR_COMMUNICATION_ERROR] }

/-- `safeBoxGr1GetStatus`; a reply that did not come is `none`. -/
def safeBoxGr1GetStatus (mySafeBox : SafeBox) : Option Reply → SafeBox
  | none => getFailure mySafeBox
  | some newStatus =>
    if newStatus.IsReport then getReport newStatus mySafeBox else getFailure mySafeBox

/-- The replies to one question after another. -/
def run (mySafeBox : SafeBox) (replies : List (Option Reply)) : SafeBox :=
  replies.foldl safeBoxGr1GetStatus mySafeBox

/-! ## What a report is compared with -/

/-- A lock and its plunger in the order in which they are told. -/
def pairOrder (grStat : Gr1Status) (locker plunger : Field) : List Field :=
  if grStat locker = 0 then [plunger, locker] else [locker, plunger]

/-- The fields that are looked at while the system is up. -/
def upFields (grStat : Gr1Status) : List Field :=
  pairOrder grStat .locker0 .plunger0 ++ pairOrder grStat .locker1 .plunger1 ++
    [.powerSupply, .battery, .stacker0, .stacker1, .locker0Error, .locker1Error]

/-- The fields of the newer protocol. -/
def newFields (grStat : Gr1Status) : List Field :=
  pairOrder grStat .locker2 .plunger2 ++ pairOrder grStat .locker3 .plunger3 ++
    [.locker2Error, .locker3Error]

/-- The fields of a report that are kept and told, in the order in which they are told. -/
def told (newStatus : Reply) : List Field :=
  .system :: (if newStatus.data.report .system = 0 then upFields newStatus.data else []) ++
    (if newStatus.len = 16 then newFields newStatus.data else [])

theorem told_nodup (newStatus : Reply) : (told newStatus).Nodup := by
  unfold told upFields newFields pairOrder
  split <;> split <;> (repeat' split) <;> decide

theorem memory_not_told (newStatus : Reply) : .memory ∉ told newStatus := by
  unfold told upFields newFields pairOrder
  split <;> split <;> (repeat' split) <;> decide

section

variable (grStat : Gr1Status)

/-- The lock and the plunger are compared in their order: an open lock looks at the plunger
first, and what was told then is not told again. -/
theorem lockAndPlunger_eq {locker plunger : Field} (apart : locker ≠ plunger)
    (direct : grStat.report locker = grStat locker ∧ grStat.report plunger = grStat plunger)
    (s : Watched Field UInt8) : lockAndPlunger grStat locker plunger s =
      s.observeAll grStat.report (pairOrder grStat locker plunger) := by
  unfold pairOrder
  by_cases isOpen : grStat locker = 0
  · rw [if_pos isOpen, Watched.observeAll_cons, Watched.observeAll_cons, Watched.observeAll_nil,
      direct.1, direct.2]
    have first : (if grStat locker = 0 ∧ grStat plunger ≠ s.value plunger then
        { value := Function.update s.value plunger (grStat plunger)
          announced := s.announced ++ [(plunger, grStat plunger)] }
        else s : Watched Field UInt8) = s.observe plunger (grStat plunger) := by
      by_cases pin : grStat plunger ≠ s.value plunger
      · rw [if_pos ⟨isOpen, pin⟩, Watched.observe, if_pos pin]
      · rw [if_neg fun both => pin both.2, Watched.observe, if_neg pin]
    unfold lockAndPlunger
    dsimp only
    rw [first]
    have old : (s.observe plunger (grStat plunger)).value locker = s.value locker := by
      rw [Watched.observe_value, update_of_ne apart]
    have now : (s.observe plunger (grStat plunger)).value plunger = grStat plunger := by
      rw [Watched.observe_value, update_self]
    by_cases lock : grStat locker ≠ s.value locker
    · rw [if_pos lock]
      generalize s.observe plunger (grStat plunger) = after at old now ⊢
      rw [Watched.observe_same _ (now.symm.trans (update_of_ne apart.symm ..).symm),
        Watched.observe, old, if_pos lock]
    · rw [if_neg lock, Watched.observe_same _ ((not_not.mp lock).trans old.symm)]
  · rw [if_neg isOpen, Watched.observeAll_cons, Watched.observeAll_cons, Watched.observeAll_nil,
      direct.1, direct.2]
    unfold lockAndPlunger
    dsimp only
    rw [if_neg (c := grStat locker = 0 ∧ _) fun both => isOpen both.1]
    rfl

theorem keepMemory_value (s : Watched Field UInt8) (field : Field) :
    (keepMemory grStat s).value field =
      if field = .memory then grStat.report .memory else s.value field := by
  unfold keepMemory
  dsimp only
  by_cases here : field = .memory
  · rw [if_pos here, here]
    split
    · exact update_self (Field.memory) _ s.value
    · next same => exact (not_not.mp same).symm
  · rw [if_neg here]
    split
    · exact update_of_ne here _ s.value
    · rfl

theorem keepMemory_announced (s : Watched Field UInt8) :
    (keepMemory grStat s).announced = s.announced := by
  unfold keepMemory
  dsimp only
  split <;> rfl

theorem firstFields_eq (s : Watched Field UInt8) : firstFields grStat s =
    (keepMemory grStat s).observeAll grStat.report
      (.system :: if grStat.report .system = 0 then upFields grStat else []) := by
  unfold firstFields
  dsimp only
  rw [Watched.observeAll_cons]
  have here : (keepMemory grStat s).observe .system (grStat .safeBox >>> 2 &&& 0x01) =
      (keepMemory grStat s).observe .system (grStat.report .system) :=
    rfl
  have value : ((keepMemory grStat s).observe .system (grStat.report .system)).value .system =
      grStat.report .system := by
    rw [Watched.observe_value, update_self]
  rw [here, value]
  by_cases up : grStat.report .system = 0
  · rw [if_pos up, if_pos up, upFields, Watched.observeAll_append, Watched.observeAll_append,
      ← lockAndPlunger_eq grStat (by decide) ⟨rfl, rfl⟩,
      ← lockAndPlunger_eq grStat (by decide) ⟨rfl, rfl⟩]
    rfl
  · rw [if_neg up, if_neg up]
    rfl

theorem otherFields_eq (s : Watched Field UInt8) :
    otherFields grStat s = s.observeAll grStat.report (newFields grStat) := by
  rw [newFields, Watched.observeAll_append, Watched.observeAll_append,
    ← lockAndPlunger_eq grStat (by decide) ⟨rfl, rfl⟩,
    ← lockAndPlunger_eq grStat (by decide) ⟨rfl, rfl⟩]
  rfl

end

/-! ## A report -/

section

variable (newStatus : Reply) (s : SafeBox)

theorem endCommError_status : (endCommError s).gr1Status = s.gr1Status := by
  unfold endCommError
  split <;> rfl

theorem oldFirmware_status : (oldFirmware s).gr1Status = s.gr1Status := by
  unfold oldFirmware
  split <;> rfl

theorem getReport_status : (getReport newStatus s).gr1Status =
    (keepMemory newStatus.data s.gr1Status).observeAll newStatus.data.report
      (told newStatus) := by
  unfold getReport told
  dsimp only
  by_cases newer : newStatus.len = 16
  · rw [if_pos newer, if_pos newer, Watched.observeAll_append, ← otherFields_eq,
      ← firstFields_eq, endCommError_status]
  · rw [if_neg newer, if_neg newer, append_nil, oldFirmware_status, ← firstFields_eq,
      endCommError_status]

theorem getReport_value (field : Field) : (getReport newStatus s).gr1Status.value field =
    if field = .memory ∨ field ∈ told newStatus then newStatus.data.report field
    else s.gr1Status.value field := by
  rw [getReport_status, Watched.observeAll_value, keepMemory_value]
  by_cases looked : field ∈ told newStatus
  · rw [if_pos looked, if_pos (.inr looked)]
  · rw [if_neg looked]
    by_cases memory : field = .memory
    · rw [if_pos memory, if_pos (.inl memory), memory]
    · rw [if_neg memory, if_neg (not_or.mpr ⟨memory, looked⟩)]

theorem getReport_announced : (getReport newStatus s).gr1Status.announced =
    s.gr1Status.announced ++
      changes newStatus.data.report s.gr1Status.value (told newStatus) := by
  rw [getReport_status, Watched.observeAll_announced _ _ (told_nodup newStatus),
    keepMemory_announced]
  refine congrArg _ (filterMap_congr fun field looked => ?_)
  have other : field ≠ .memory := fun here => memory_not_told newStatus (here ▸ looked)
  rw [keepMemory_value, if_neg other]

theorem endCommError_over : (endCommError s).safeBoxCommErrorStatus = false := by
  unfold endCommError
  split
  · rfl
  · next none => exact Bool.not_eq_true _ |>.mp none

theorem oldFirmware_commErrorStatus :
    (oldFirmware s).safeBoxCommErrorStatus = s.safeBoxCommErrorStatus := by
  unfold oldFirmware
  split <;> rfl

theorem getReport_over : (getReport newStatus s).safeBoxCommErrorStatus = false := by
  unfold getReport
  dsimp only
  split
  · exact endCommError_over s
  · rw [oldFirmware_commErrorStatus]
    exact endCommError_over s

theorem getReport_oldFirmware (older : newStatus.len ≠ 16) :
    oldFirmware (getReport newStatus s) = getReport newStatus s := by
  unfold getReport
  dsimp only
  rw [if_neg older]
  unfold oldFirmware
  by_cases known : (endCommError s).oldFirmProtocolNotified
  · rw [if_pos known, if_pos known]
  · rw [if_neg known, if_pos rfl]

theorem getReport_newFirmware (newer : newStatus.len = 16) :
    (getReport newStatus s).oldFirmProtocol = false := by
  unfold getReport
  dsimp only
  rw [if_pos newer]

theorem getReport_again :
    getReport newStatus (getReport newStatus s) = getReport newStatus s := by
  have value (field : Field) (looked : field = .memory ∨ field ∈ told newStatus) :
      newStatus.data.report field = (getReport newStatus s).gr1Status.value field := by
    rw [getReport_value, if_pos looked]
  have old := getReport_oldFirmware newStatus s
  have new := getReport_newFirmware newStatus s
  have isOver := getReport_over newStatus s
  generalize getReport newStatus s = after at value old new isOver ⊢
  have memory : keepMemory newStatus.data after.gr1Status = after.gr1Status :=
    if_neg (not_not.mpr (value .memory (.inl rfl)))
  have first : firstFields newStatus.data after.gr1Status = after.gr1Status := by
    rw [firstFields_eq, memory]
    refine Watched.observeAll_kept _ _ fun field looked => value field (.inr ?_)
    exact mem_append_left _ looked
  have noError : endCommError after = after := if_neg (by rw [isOver]; decide)
  unfold getReport
  rw [noError]
  dsimp only
  rw [first]
  by_cases newer : newStatus.len = 16
  · have other : otherFields newStatus.data after.gr1Status = after.gr1Status := by
      rw [otherFields_eq]
      refine Watched.observeAll_kept _ _ fun field looked => value field (.inr ?_)
      rw [told, if_pos newer]
      exact mem_append_right _ looked
    rw [if_pos newer, other, ← new newer]
  · rw [if_neg newer]
    exact old newer

end

/-! ## Communication errors -/

/-- A code that tells an error, and not the end of one. -/
def isError (cause : UInt8) : Bool := cause ≠ 0

/-- Errors and their ends are told in turn, and the last one told is what is kept. -/
structure Inv (s : SafeBox) : Prop where
  alternates : Alternates isError true s.commErrors
  turns : turn true s.commErrors = !s.safeBoxCommErrorStatus

namespace Inv

variable {s : SafeBox}

theorem init : Inv SafeBox.init := ⟨trivial, rfl⟩

theorem endCommError (inv : Inv s) : Inv (endCommError s) := by
  unfold SafeBoxStatus.endCommError
  split
  · next error =>
    have turns := inv.turns
    rw [error] at turns
    refine ⟨inv.alternates.append ?_, ?_⟩
    · rw [turns]
      exact ⟨rfl, trivial⟩
    · rw [turn_append, turns]
      rfl
  · exact inv

theorem oldFirmware (inv : Inv s) (isOver : s.safeBoxCommErrorStatus = false) :
    Inv (oldFirmware s) := by
  unfold SafeBoxStatus.oldFirmware
  split
  · exact ⟨inv.alternates, inv.turns⟩
  · have turns := inv.turns
    rw [isOver] at turns
    refine ⟨inv.alternates.append ?_, ?_⟩
    · rw [turns]
      exact ⟨rfl, rfl, trivial⟩
    · dsimp only
      rw [turn_append, turns, isOver]
      rfl

theorem getReport (inv : Inv s) (newStatus : Reply) : Inv (getReport newStatus s) := by
  have ended := inv.endCommError
  unfold SafeBoxStatus.getReport
  dsimp only
  split
  · exact ⟨ended.alternates, ended.turns⟩
  · exact oldFirmware ⟨ended.alternates, ended.turns⟩ (endCommError_over s)

theorem getFailure (inv : Inv s) : Inv (getFailure s) := by
  unfold SafeBoxStatus.getFailure
  split
  · exact inv
  · next none =>
    have turns := inv.turns
    rw [Bool.not_eq_true _ |>.mp none] at turns
    refine ⟨inv.alternates.append ?_, ?_⟩
    · rw [turns]
      exact ⟨rfl, trivial⟩
    · rw [turn_append, turns]
      rfl

theorem step (inv : Inv s) (reply : Option Reply) : Inv (safeBoxGr1GetStatus s reply) := by
  cases reply with
  | none => exact inv.getFailure
  | some newStatus =>
    by_cases isReport : newStatus.IsReport
    · rw [safeBoxGr1GetStatus, if_pos isReport]
      exact inv.getReport newStatus
    · rw [safeBoxGr1GetStatus, if_neg isReport]
      exact inv.getFailure

theorem run (inv : Inv s) (replies : List (Option Reply)) : Inv (run s replies) := by
  induction replies generalizing s with
  | nil => exact inv
  | cons reply replies ih => exact ih (inv.step reply)

end Inv

theorem failure_status (s : SafeBox) {reply : Option Reply}
    (none : ∀ newStatus, reply = some newStatus → ¬ newStatus.IsReport) :
    (safeBoxGr1GetStatus s reply).gr1Status = s.gr1Status := by
  have kept : (getFailure s).gr1Status = s.gr1Status := by
    unfold getFailure
    split <;> rfl
  cases reply with
  | none => exact kept
  | some newStatus =>
    rw [safeBoxGr1GetStatus, if_neg (none newStatus rfl)]
    exact kept

/-! ## Any reports and failures -/

/-- From the start on, whatever the replies are: errors and their ends are told in turn; a report
is kept in the memory and the fields looked at, and each of these fields that changed is
told once and no other; the same report again changes nothing; and a failure leaves the
status. -/
theorem statusReports (replies : List (Option Reply)) :
    let s := run SafeBox.init replies
    Alternates isError true s.commErrors ∧
      (∀ newStatus : Reply, newStatus.IsReport →
        let s' := safeBoxGr1GetStatus s (some newStatus)
        (∀ field, s'.gr1Status.value field =
          if field = .memory ∨ field ∈ told newStatus then newStatus.data.report field
          else s.gr1Status.value field) ∧
        (∃ announced : List (Field × UInt8),
          s'.gr1Status.announced = s.gr1Status.announced ++ announced ∧
          (announced.map Prod.fst).Nodup ∧
          ∀ field v, (field, v) ∈ announced ↔ field ∈ told newStatus ∧
            v = newStatus.data.report field ∧ v ≠ s.gr1Status.value field) ∧
        safeBoxGr1GetStatus s' (some newStatus) = s') ∧
      ∀ reply : Option Reply, (∀ newStatus, reply = some newStatus → ¬ newStatus.IsReport) →
        (safeBoxGr1GetStatus s reply).gr1Status = s.gr1Status := by
  intro s
  refine ⟨(Inv.init.run replies).alternates, fun newStatus isReport => ?_,
    fun reply none => failure_status s none⟩
  have step (t : SafeBox) : safeBoxGr1GetStatus t (some newStatus) = getReport newStatus t :=
    if_pos isReport
  dsimp only
  rw [step, step]
  exact ⟨getReport_value newStatus s,
    ⟨_, getReport_announced newStatus s, nodup_changes (told_nodup newStatus),
      fun _ _ => mem_changes⟩, getReport_again newStatus s⟩

/-- A first report that a board in order may send, with a lock open. -/
theorem statusReports_first :
    (safeBoxGr1GetStatus SafeBox.init
      (some ⟨SBOX_SUCCESS_CMD, 16, fun _ => 0⟩)).gr1Status.value .locker0 = 0 := by
  have report := (statusReports []).2.1 ⟨SBOX_SUCCESS_CMD, 16, fun _ => 0⟩ ⟨rfl, .inl rfl⟩
  rw [run, foldl_nil] at report
  rw [report.1 .locker0]
  rfl

/-- While the system is down a lock that is not the one kept is not looked at. -/
theorem systemDown_notKept :
    ¬ ∀ (replies : List (Option Reply)) (newStatus : Reply), newStatus.IsReport →
      (safeBoxGr1GetStatus (run SafeBox.init replies) (some newStatus)).gr1Status.value .locker0 =
        newStatus.data .locker0 := by
  intro always
  have kept := always [] ⟨SBOX_SUCCESS_CMD, 16, fun field => if field = .safeBox then 4 else 1⟩
    ⟨rfl, .inl rfl⟩
  revert kept
  decide +kernel

end CimArm.SafeBoxStatus
