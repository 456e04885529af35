import CimArm.Device.MeiStateMachine
import CimArm.Lib.Trace

/-!
# Stacked bills of an MEI validator

The driver notes a bill in escrow in the status file before it sends the command to stack
it, and the report of the stacked bill turns the note into that of a stacked bill.  When
the power fails in between, the driver brings the file up to date after the restart, and
the recovery of the deposit asks it for the number of bills and the last bill.

* `run_countedOnce`: every run counts each stacked bill once, power failures at any point
  included, as long as nothing wipes the file while it tells of a bill not counted yet, and
  reports and deposits keep the order they are meant for.
-/

namespace CimArm.MeiStateMachine

open Engine Jcm JcmBillAcceptData

/-! ## The recovery of a deposit -/

/-- The number of bills that `getLastStackedQtyMEI` returns, an `unsigned short`. -/
def lastStacked (file : TempValInfo) : Nat := (file.billStackedQty % 65536).toNat

def getLastStackedQtyMEI (self : JcmBillAcceptData) : JcmBillAcceptData :=
  { self with fileInfoRequested := true }.resetFileStatusMei

/-- What `recoverDepositForCash` makes of the driver's answer: the last bill, if the
deposit holds fewer bills of this validator.  It is added to the temporary deposit; without
one it is noted in the audit, with its amount. -/
def recovered (file : TempValInfo) (deposit : Nat) : List Credit :=
  if deposit < lastStacked file ∧ 0 < file.amount then [credit file.amount file.currencyId]
  else []

/-! ## Runs -/

/-- The driver, the bills of this validator in the stored temporary deposit, the bills the
validator has stacked, the one of them whose report is to come, and the money counted. -/
structure World : Type where
  sm : Machine
  deposit : Nat
  stacked : List Bill
  pending : Option Bill
  counted : List Credit

inductive Op
  /-- A request, or an answer read inside an action. -/
  | answer (cmd : Cmd) (read : Read)
  /-- The guard of the first state after the table or the version was missing. -/
  | resumeInitializing
  /-- `billAcceptorUpdate`, and the poll and the end of the transfer. -/
  | updateFirmware
  | pollTransfer (answered : Bool)
  | endTransfer
  | setStatus (newStatus : JcmStatus)
  | setDenomination (amount : Int) (disabled : Bool)
  /-- The validator stacks a bill. -/
  | stack (bill : Bill)
  /-- The application takes up a bill it was told of, and stores it. -/
  | takeUp
  | endDeposit
  /-- The application recovers the deposit. -/
  | recover
  | billAcceptorStart
  | billAcceptorStop
  /-- The power fails; the driver starts again in whatever memory there is. -/
  | powerFailure (memory : JcmBillAcceptData)

def start (sm : Machine) : Machine := gotoState meiStates sm .first

def setDenomination (amount : Int) (disabled : Bool) (self : JcmBillAcceptData) :
    JcmBillAcceptData :=
  match self.convertionTable.findIdx? (·.amount = amount) with
  | some i =>
    { self with convertionTable := self.convertionTable.modify i ({ · with disabled }) }
  | none => self

/-- A status frame that reports a stacked bill. -/
def Read.reportsStacked (cmd : Cmd) : Read → Bool
  | .frame true answer => cmd.event? = none ∧ answer.newState = .ID003_STACKED
  | _ => false

def step (op : Op) (w : World) : World :=
  match op with
  | .answer cmd read =>
    { w with
      sm := meiAcceptWriteRead cmd read w.sm
      pending := if read.reportsStacked cmd then none else w.pending }
  | .resumeInitializing => { w with sm := ⟨.initializing, w.sm.context⟩ }
  | .updateFirmware =>
    { w with sm := executeStateMachine meiStates w.sm .ID003_UPDATE_FIRM }
  | .pollTransfer answered =>
    let sm := onContext ({ · with transferAnswered := answered }) w.sm
    { w with sm := executeStateMachine meiStates sm .transfer }
  | .endTransfer => { w with sm := executeStateMachine meiStates w.sm .zero }
  | .setStatus newStatus =>
    if w.sm.context.canChangeStatus then
      { w with sm := onContext (billAcceptorSetStatus newStatus) w.sm }
    else w
  | .setDenomination amount disabled =>
    { w with sm := onContext (setDenomination amount disabled) w.sm }
  | .stack bill => { w with stacked := w.stacked ++ [bill], pending := some bill }
  | .takeUp =>
    match w.sm.context.billAccepted with
    | bill :: rest =>
      { w with
        sm := onContext ({ · with billAccepted := rest }) w.sm
        deposit := w.deposit + 1, counted := w.counted ++ [bill] }
    | [] => w
  | .endDeposit => { w with deposit := 0 }
  | .recover =>
    let bills := recovered w.sm.context.fpValStat w.deposit
    { w with
      sm := onContext getLastStackedQtyMEI w.sm
      deposit := w.deposit + bills.length, counted := w.counted ++ bills }
  | .billAcceptorStart => { w with sm := start w.sm }
  | .billAcceptorStop => { w with sm := gotoState meiStates w.sm .noComm }
  | .powerFailure memory =>
    let context := { memory with fpValStat := w.sm.context.fpValStat, billAccepted := [] }
    { w with sm := start ⟨.noComm, context⟩ }

/-- A driver that starts with an empty file. -/
def World.start (memory : JcmBillAcceptData) : World :=
  let context := { memory with fpValStat := .zero, billAccepted := [] }
  ⟨MeiStateMachine.start ⟨.noComm, context⟩, 0, [], none, []⟩

/-- What is on its way to be counted: the bills the application has been told of, or what
it will recover, and the bill whose report is to come. -/
def World.outstanding (w : World) : List Credit :=
  (if w.sm.context.fileInfoRequested then w.sm.context.billAccepted
    else recovered w.sm.context.fpValStat w.deposit) ++ (w.pending.map Bill.credit).toList

/-- Each stacked bill is counted once or on its way. -/
def CountedOnce (w : World) : Prop :=
  w.counted ++ w.outstanding = w.stacked.map Bill.credit

instance (w : World) : Decidable (CountedOnce w) := inferInstanceAs (Decidable (_ = _))

/-! ## The order of things -/

/-- A report of a stacked bill is about the bill whose report is to come: before the
recovery it is noted in the file, after it the application is told.  A report without a
bill to come finds no note of an escrow. -/
def Reported (w : World) (sm : Machine) : Prop :=
  match handling sm, w.pending with
  | .ignored, pending => pending = none
  | .powerUpBillAccepted, none => sm.context.fpValStat.status ≠ .ID003_ESCROW
  | .powerUpBillAccepted, some _ => sm.context.fileInfoRequested = false
  | .notifyBillAccepted, none =>
    sm.context.fpValStat.status ≠ .ID003_ESCROW ∧
      sm.context.answer.processCurrencyAssignmentMei.1 ≤ 0
  | .notifyBillAccepted, some bill =>
    sm.context.fileInfoRequested = true ∧
      if 0 < sm.context.answer.processCurrencyAssignmentMei.1 then
        sm.context.answer.processCurrencyAssignmentMei = (bill.amount, bill.currencyId)
      else bill.amount * MultipApp < 2147483648

instance (w : World) (sm : Machine) : Decidable (Reported w sm) :=
  match eq : handling sm, eq' : w.pending with
  | .ignored, pending =>
    decidable_of_iff (pending = none) (by simp [Reported, eq, eq'])
  | .powerUpBillAccepted, none =>
    decidable_of_iff (sm.context.fpValStat.status ≠ .ID003_ESCROW) (by simp [Reported, eq, eq'])
  | .powerUpBillAccepted, some _ =>
    decidable_of_iff (sm.context.fileInfoRequested = false) (by simp [Reported, eq, eq'])
  | .notifyBillAccepted, none =>
    decidable_of_iff (sm.context.fpValStat.status ≠ .ID003_ESCROW ∧
      sm.context.answer.processCurrencyAssignmentMei.1 ≤ 0) (by simp [Reported, eq, eq'])
  | .notifyBillAccepted, some bill =>
    decidable_of_iff (sm.context.fileInfoRequested = true ∧
      if 0 < sm.context.answer.processCurrencyAssignmentMei.1 then
        sm.context.answer.processCurrencyAssignmentMei = (bill.amount, bill.currencyId)
      else bill.amount * MultipApp < 2147483648) (by simp [Reported, eq, eq'])

/-- Every stacked bill is counted. -/
def World.Settled (w : World) : Prop :=
  w.pending = none ∧ recovered w.sm.context.fpValStat w.deposit = []

/-- What a machine does to the file at an event comes at the right time: no note is wiped
while a stacked bill waits for its report, the file is reset and a new bill noted only when
all bills are counted. -/
def Orderly (w : World) (sm : Machine) (event : Code) : Prop :=
  if event = .ID003_STACKED then Reported w sm
  else if event = .ID003_RETURNED then w.pending = none
  else
    (cleansOnError sm → w.pending = none) ∧
    (resetsFile sm → w.Settled) ∧
    (sm.currentState = .receivingBill → event = .ID003_ESCROW →
      0 < sm.context.answer.processCurrencyAssignmentMei.1 →
      sm.context.status ≠ .validateOnly ∧
        (notesEscrow sm.context → sm.context.fileInfoRequested = true ∧ w.Settled))

/-- The condition on a step. -/
def InOrder (w : World) : Op → Prop
  | .answer cmd read =>
    ∀ event ∈ (readEvent cmd read w.sm).2, Orderly w (readEvent cmd read w.sm).1 event
  | .updateFirmware => Orderly w w.sm .ID003_UPDATE_FIRM
  | .pollTransfer _ => Orderly w w.sm .transfer
  | .endTransfer => Orderly w w.sm .zero
  | .setStatus newStatus =>
    w.sm.context.status ≠ newStatus → newStatus = .enable ∨ newStatus = .validateOnly → w.Settled
  | .stack bill =>
    w.pending = none ∧ w.deposit < 65535 ∧
      w.sm.context.fpValStat = ⟨.ID003_ESCROW, w.deposit, bill.amount, bill.currencyId⟩
  | .endDeposit => w.pending = none ∧ lastStacked w.sm.context.fpValStat = 0
  | .recover => w.pending = none ∧ (w.sm.context.fileInfoRequested = true → w.Settled)
  | .billAcceptorStart =>
    w.sm.context.fileInfoRequested = true → recovered w.sm.context.fpValStat w.deposit = []
  | _ => True

instance (w : World) : Decidable w.Settled := inferInstanceAs (Decidable (_ ∧ _))

instance (w : World) (sm : Machine) (event : Code) : Decidable (Orderly w sm event) :=
  inferInstanceAs (Decidable (ite _ _ (ite _ _ _)))

instance (w : World) : (op : Op) → Decidable (InOrder w op)
  | .answer .. => inferInstanceAs (Decidable (∀ event ∈ Prod.snd _, Orderly w _ event))
  | .updateFirmware | .pollTransfer _ | .endTransfer =>
    inferInstanceAs (Decidable (Orderly w _ _))
  | .setStatus _ | .billAcceptorStart => inferInstanceAs (Decidable (_ → _))
  | .stack _ | .endDeposit | .recover => inferInstanceAs (Decidable (_ ∧ _))
  | .resumeInitializing | .setDenomination .. | .takeUp | .billAcceptorStop | .powerFailure _ =>
    inferInstanceAs (Decidable True)

/-! ## The invariant -/

/-- The file tells at any time which of the stacked bills would be lost if the power
failed.  The bills the application has not taken up yet are those the file would recover,
and a bill stacked but not reported is noted in it. -/
structure Kept (b : Books) (deposit : Nat) (stacked : List Bill) (pending : Option Bill)
    (counted : List Credit) : Prop where
  ledger : counted ++ recovered b.file deposit ++ (pending.map Bill.credit).toList =
    stacked.map Bill.credit
  billAccepted : b.billAccepted = if b.fileInfoRequested then recovered b.file deposit else []
  pending : ∀ bill ∈ pending, deposit < 65535 ∧
    b.file = ⟨.ID003_ESCROW, deposit, bill.amount, bill.currencyId⟩
  escrow : b.file.status = .ID003_ESCROW → lastStacked b.file ≤ deposit
  billDepositQty : b.fileInfoRequested = true → b.file.billStackedQty = b.billDepositQty
  deposit_ge : b.fileInfoRequested = true → lastStacked b.file ≤ deposit + b.billAccepted.length

theorem recovered_of_le {file : TempValInfo} {deposit : Nat} (le : lastStacked file ≤ deposit) :
    recovered file deposit = [] := by
  rw [recovered, if_neg (by omega)]

theorem recovered_of_amount {file : TempValInfo} (deposit : Nat) (amount : file.amount = 0) :
    recovered file deposit = [] := by
  rw [recovered, if_neg (by omega)]

theorem lastStacked_natCast {n : Nat} (fits : n < 65536) (status : Code) (amount currencyId : Int) :
    lastStacked ⟨status, n, amount, currencyId⟩ = n := by
  unfold lastStacked
  dsimp only
  omega

section Kept

variable {b : Books} {deposit : Nat} {stacked : List Bill} {pending : Option Bill}
  {counted : List Credit}

variable {bill : Bill}

theorem Kept.recovered_of_pending (kept : Kept b deposit stacked (some bill) counted) :
    recovered b.file deposit = [] := by
  rcases kept.pending bill rfl with ⟨fits, file⟩
  rw [file]
  refine recovered_of_le ?_
  rw [lastStacked_natCast (by omega)]

theorem Kept.clean (kept : Kept b deposit stacked none counted) :
    Kept b.clean deposit stacked none counted := by
  unfold Books.clean
  split
  next status =>
    have before := recovered_of_le (kept.escrow status)
    have after := @recovered_of_amount ⟨.zero, b.billDepositQty, 0, 0⟩ deposit rfl
    refine ⟨?_, ?_, nofun, nofun, fun _ => rfl, fun requested => ?_⟩
    · rw [after, ← before]
      exact kept.ledger
    · have billAccepted := kept.billAccepted
      rw [before] at billAccepted
      rw [after]
      exact billAccepted
    · have same : lastStacked ⟨.zero, b.billDepositQty, 0, 0⟩ = lastStacked b.file := by
        simp only [lastStacked, kept.billDepositQty requested]
      dsimp only
      rw [same]
      exact kept.deposit_ge requested
  next => exact kept

theorem Kept.reset (kept : Kept b deposit stacked none counted)
    (settled : recovered b.file deposit = []) : Kept b.reset deposit stacked none counted := by
  have after := @recovered_of_amount .zero deposit rfl
  refine ⟨?_, ?_, nofun, nofun, fun _ => rfl, fun _ => Nat.zero_le _⟩
  · have ledger := kept.ledger
    rw [settled] at ledger
    exact after ▸ ledger
  · have billAccepted := kept.billAccepted
    rw [settled] at billAccepted
    exact after ▸ billAccepted

theorem Kept.noteEscrow (kept : Kept b deposit stacked none counted)
    (requested : b.fileInfoRequested = true) (settled : recovered b.file deposit = [])
    (amount currencyId : Int) : Kept (b.escrow amount currencyId) deposit stacked none counted := by
  have none_told : b.billAccepted = [] := by
    rw [kept.billAccepted, settled, ite_self]
  have same : lastStacked (b.escrow amount currencyId).file = lastStacked b.file := by
    simp only [lastStacked, Books.escrow, kept.billDepositQty requested]
  have le : lastStacked (b.escrow amount currencyId).file ≤ deposit := by
    have ge := kept.deposit_ge requested
    rw [none_told] at ge
    rw [same]
    exact ge
  have after := recovered_of_le le
  refine ⟨?_, ?_, nofun, fun _ => le, fun _ => rfl, fun _ => Nat.le_add_right_of_le le⟩
  · rw [after, ← settled]
    exact kept.ledger
  · rw [after, ite_self]
    exact none_told

theorem recovered_reported {deposit : Nat} (fits : deposit < 65535) :
    recovered ⟨.ID003_STACKED, (deposit : Int) + 1, bill.amount, bill.currencyId⟩ deposit =
      [bill.credit] := by
  have stacked : lastStacked ⟨.ID003_STACKED, (deposit : Int) + 1, bill.amount, bill.currencyId⟩ =
      deposit + 1 := lastStacked_natCast (n := deposit + 1) (by omega) _ _ _
  rw [recovered, stacked, if_pos ⟨Nat.lt_succ_self _, bill.amount_pos⟩]
  rfl

theorem Kept.accept (kept : Kept b deposit stacked (some bill) counted)
    (requested : b.fileInfoRequested = true) :
    Kept (b.accept bill.amount bill.currencyId) deposit stacked none counted := by
  have before := kept.recovered_of_pending
  rcases kept.pending bill rfl with ⟨fits, file⟩
  have qty : b.billDepositQty = deposit := by
    rw [← kept.billDepositQty requested, file]
  have none_told : b.billAccepted = [] := by
    rw [kept.billAccepted, before, ite_self]
  have after := @recovered_reported bill deposit fits
  refine ⟨?_, ?_, nofun, nofun, fun _ => rfl, fun _ => ?_⟩
  · have ledger := kept.ledger
    rw [before] at ledger
    simp only [Books.accept, qty, after]
    simpa using ledger
  · simp only [Books.accept, qty, after, none_told, requested]
    rfl
  · simp only [Books.accept, qty, none_told]
    exact (@lastStacked_natCast (deposit + 1) (by omega) _ _ _).le

theorem Kept.powerUp (kept : Kept b deposit stacked (some bill) counted)
    (requested : b.fileInfoRequested = false) : Kept b.powerUp deposit stacked none counted := by
  have before := kept.recovered_of_pending
  rcases kept.pending bill rfl with ⟨fits, file⟩
  have after := @recovered_reported bill deposit fits
  have noted : b.powerUp.file =
      ⟨.ID003_STACKED, (deposit : Int) + 1, bill.amount, bill.currencyId⟩ := by
    rw [Books.powerUp, file]
  have unrequested : b.powerUp.fileInfoRequested = false := requested
  refine ⟨?_, ?_, nofun, ?_, fun requested => ?_, fun requested => ?_⟩
  · have ledger := kept.ledger
    rw [before] at ledger
    rw [noted, after]
    simpa using ledger
  · have billAccepted := kept.billAccepted
    rw [requested] at billAccepted
    rw [unrequested]
    exact billAccepted
  · rw [noted]
    exact nofun
  · rw [unrequested] at requested
    cases requested
  · rw [unrequested] at requested
    cases requested

theorem Kept.stack (kept : Kept b deposit stacked none counted) (fits : deposit < 65535)
    (file : b.file = ⟨.ID003_ESCROW, deposit, bill.amount, bill.currencyId⟩) :
    Kept b deposit (stacked ++ [bill]) (some bill) counted := by
  have settled := recovered_of_le (kept.escrow (by rw [file]))
  refine { kept with ledger := ?_, pending := ?_ }
  · have ledger := kept.ledger
    rw [settled] at ledger ⊢
    simpa using ledger
  · rintro _ ⟨⟩
    exact ⟨fits, file⟩

theorem Kept.takeUp {bill : Credit} {rest : List Credit}
    (kept : Kept b deposit stacked pending counted) (told : b.billAccepted = bill :: rest) :
    Kept { b with billAccepted := rest } (deposit + 1) stacked pending (counted ++ [bill]) := by
  have requested : b.fileInfoRequested = true := by
    by_contra not_requested
    have billAccepted := kept.billAccepted
    rw [told, if_neg not_requested] at billAccepted
    cases billAccepted
  have only : recovered b.file deposit = bill :: rest := by
    rw [← told, kept.billAccepted, if_pos requested]
  have no_rest : rest = [] := by
    unfold recovered at only
    split at only
    · cases only
      rfl
    · cases only
  subst no_rest
  cases pending with
  | some _ =>
    rw [kept.recovered_of_pending] at only
    cases only
  | none =>
    have le : lastStacked b.file ≤ deposit + 1 := by
      have ge := kept.deposit_ge requested
      rw [told] at ge
      exact ge
    have after := recovered_of_le le
    refine ⟨?_, ?_, nofun, fun _ => le, kept.billDepositQty, fun _ => le⟩
    · have ledger := kept.ledger
      rw [only] at ledger
      rw [after]
      simpa using ledger
    · rw [after, ite_self]

theorem Kept.endDeposit (kept : Kept b deposit stacked none counted)
    (reset : lastStacked b.file = 0) : Kept b 0 stacked none counted := by
  have before := @recovered_of_le b.file deposit (by omega)
  have after := @recovered_of_le b.file 0 (by omega)
  refine ⟨?_, ?_, nofun, fun _ => reset.le, kept.billDepositQty, fun _ => by omega⟩
  · rw [after, ← before]
    exact kept.ledger
  · have billAccepted := kept.billAccepted
    rw [before] at billAccepted
    rw [after]
    exact billAccepted

/-- The recovery counts what the file tells, which the application has not been told of. -/
theorem Kept.recover (kept : Kept b deposit stacked none counted)
    (told : b.billAccepted = []) :
    Kept { b.reset with fileInfoRequested := true }
      (deposit + (recovered b.file deposit).length) stacked none
      (counted ++ recovered b.file deposit) := by
  have after := fun deposit => @recovered_of_amount .zero deposit rfl
  refine ⟨?_, ?_, nofun, nofun, fun _ => rfl, fun _ => Nat.zero_le _⟩
  · simp only [Books.reset, after, List.append_nil]
    exact kept.ledger
  · simp only [Books.reset, after, ite_self]
    exact told

theorem Kept.restart (kept : Kept b deposit stacked pending counted) (billDepositQty : Int) :
    Kept ⟨b.file, billDepositQty, false, []⟩ deposit stacked pending counted :=
  ⟨kept.ledger, rfl, kept.pending, kept.escrow, nofun, nofun⟩

end Kept

/-! ## Runs -/

def World.Kept (w : World) : Prop :=
  MeiStateMachine.Kept (books w.sm.context) w.deposit w.stacked w.pending w.counted

theorem World.Kept.countedOnce {w : World} (kept : w.Kept) : CountedOnce w := by
  have told : (if w.sm.context.fileInfoRequested then w.sm.context.billAccepted
      else recovered w.sm.context.fpValStat w.deposit) =
        recovered w.sm.context.fpValStat w.deposit := by
    split
    next requested => exact kept.billAccepted.trans (if_pos requested)
    next => rfl
  rw [CountedOnce, World.outstanding, told, ← List.append_assoc]
  exact kept.ledger

section Steps

variable {w : World} {sm : Machine} {event : Code}

theorem Kept.report
    (found : MeiStateMachine.Kept (books sm.context) w.deposit w.stacked w.pending w.counted)
    (reported : Reported w sm) :
    MeiStateMachine.Kept (books (executeStateMachine meiStates sm .ID003_STACKED).context)
      w.deposit w.stacked none w.counted := by
  unfold Reported at reported
  cases handled : handling sm with
  | ignored =>
    rw [handled] at reported
    dsimp only at reported
    rw [execute_ignored handled, ← reported]
    exact found
  | powerUpBillAccepted =>
    rw [execute_powerUp handled, books_powerUp]
    cases pending : w.pending with
    | none =>
      rw [handled, pending] at reported
      rw [if_neg reported, ← pending]
      exact found
    | some bill =>
      rw [handled, pending] at reported
      rw [pending] at found
      have status : sm.context.fpValStat.status = .ID003_ESCROW :=
        congrArg TempValInfo.status (found.pending bill rfl).2
      rw [if_pos status]
      exact found.powerUp reported
  | notifyBillAccepted =>
    rw [execute_notify handled]
    cases pending : w.pending with
    | none =>
      rw [handled, pending] at reported
      rw [books_notifyBillAccepted_none _ reported.1 reported.2, ← pending]
      exact found
    | some bill =>
      rw [handled, pending] at reported
      rw [pending] at found
      have file : sm.context.fpValStat = _ := (found.pending bill rfl).2
      rw [books_notifyBillAccepted _ reported.2 (by simp [file]) bill.amount_pos]
      exact found.accept reported.1

theorem World.Kept.execute (kept : w.Kept) (same : books sm.context = books w.sm.context)
    (orderly : Orderly w sm event) :
    MeiStateMachine.Kept (books (executeStateMachine meiStates sm event).context) w.deposit
      w.stacked (if event = .ID003_STACKED then none else w.pending) w.counted := by
  have found : MeiStateMachine.Kept (books sm.context) w.deposit w.stacked w.pending w.counted :=
    same ▸ kept
  have file : sm.context.fpValStat = w.sm.context.fpValStat := congrArg Books.file same
  unfold Orderly at orderly
  split at orderly
  next stacked =>
    subst stacked
    rw [if_pos rfl]
    exact found.report orderly
  next stacked =>
    rw [if_neg stacked]
    split at orderly
    next returned =>
      subst returned
      rw [orderly] at found ⊢
      rcases @execute_returned sm with after | after
      · exact after ▸ found
      · exact after ▸ found.clean
    next returned =>
      rcases orderly with ⟨cleans, resets, escrows⟩
      rcases @execute_books sm event stacked returned with after | ⟨error, after⟩ | ⟨reset, after⟩ |
          ⟨name, escrow, after⟩
      · exact after ▸ found
      · rw [cleans error] at found ⊢
        exact after ▸ found.clean
      · rcases resets reset with ⟨none, settled⟩
        rw [none] at found ⊢
        exact after ▸ found.reset (by rw [← settled, ← file]; rfl)
      · have condition := escrows name escrow
        rw [books_requestStack _ fun pos => (condition pos).1] at after
        split at after
        next both =>
          rcases (condition both.1).2 both.2 with ⟨requested, none, settled⟩
          rw [none] at found ⊢
          exact after ▸ found.noteEscrow requested (by rw [← settled, ← file]; rfl) _ _
        next => exact after ▸ found

theorem books_readEvent (cmd : Cmd) (read : Read) :
    books (readEvent cmd read sm).1.context = books sm.context := by
  have taken (answer : Answer) : books (takeAnswer cmd answer sm.context) = books sm.context := by
    unfold takeAnswer
    dsimp only
    repeat' split
    all_goals rfl
  cases read with
  | nothing =>
    unfold readEvent
    dsimp only
    split <;> rfl
  | frame ack answer =>
    cases ack with
    | false =>
      unfold readEvent
      dsimp only
      split <;> rfl
    | true =>
      unfold readEvent
      dsimp only
      split
      · exact taken answer
      · exact taken answer

theorem reportsStacked_iff (cmd : Cmd) (read : Read) :
    read.reportsStacked cmd = true ↔ (readEvent cmd read sm).2 = some .ID003_STACKED := by
  cases read with
  | nothing =>
    unfold readEvent
    dsimp only
    split <;> simp [Read.reportsStacked]
  | frame ack answer =>
    cases ack with
    | false =>
      unfold readEvent
      dsimp only
      split <;> simp [Read.reportsStacked]
    | true =>
      unfold readEvent
      cases called : cmd.event? with
      | some event =>
        simp only [called, Read.reportsStacked]
        cases cmd <;> cases called <;> simp
      | none =>
        simp only [called, Read.reportsStacked]
        split
        next again => simp [again.2.1]
        next => simp

theorem World.Kept.answer {cmd : Cmd} {read : Read} (kept : w.Kept)
    (inOrder : InOrder w (.answer cmd read)) : (step (.answer cmd read) w).Kept := by
  have same := @books_readEvent w.sm cmd read
  have reports := @reportsStacked_iff w.sm cmd read
  have orderly : ∀ event ∈ (readEvent cmd read w.sm).2,
      Orderly w (readEvent cmd read w.sm).1 event := inOrder
  change MeiStateMachine.Kept (books (meiAcceptWriteRead cmd read w.sm).context) w.deposit
    w.stacked (if read.reportsStacked cmd then none else w.pending) w.counted
  unfold meiAcceptWriteRead
  rcases eq : readEvent cmd read w.sm with ⟨sm, found⟩
  rw [eq] at same reports orderly
  dsimp only at same reports orderly ⊢
  cases found with
  | none =>
    have silent : read.reportsStacked cmd = false := by
      simpa using reports
    rw [silent]
    exact same ▸ kept
  | some event =>
    have executed := kept.execute same (orderly event rfl)
    have reported : (if read.reportsStacked cmd then none else w.pending) =
        if event = .ID003_STACKED then none else w.pending := by
      simp only [reports, Option.some.injEq]
    exact reported ▸ executed

theorem World.Kept.internal (kept : w.Kept) (same : books sm.context = books w.sm.context)
    (stacked : event ≠ .ID003_STACKED) (orderly : Orderly w sm event) :
    World.Kept { w with sm := executeStateMachine meiStates sm event } := by
  have executed := kept.execute same orderly
  rwa [if_neg stacked] at executed

theorem books_setDenomination (amount : Int) (disabled : Bool) (c : JcmBillAcceptData) :
    books (setDenomination amount disabled c) = books c := by
  unfold setDenomination
  split <;> rfl

theorem World.Kept.start (kept : w.Kept) (inOrder : InOrder w .billAcceptorStart) :
    (step .billAcceptorStart w).Kept := by
  have none_told : w.sm.context.billAccepted = [] := by
    have told : w.sm.context.billAccepted = _ := kept.billAccepted
    rw [told]
    split
    next requested => exact inOrder requested
    next => rfl
  change MeiStateMachine.Kept
    ⟨w.sm.context.fpValStat, w.sm.context.billDepositQty, false, w.sm.context.billAccepted⟩
    w.deposit w.stacked w.pending w.counted
  rw [none_told]
  exact MeiStateMachine.Kept.restart kept _

theorem World.Kept.step {op : Op} (kept : w.Kept) (inOrder : InOrder w op) :
    (MeiStateMachine.step op w).Kept := by
  cases op with
  | answer cmd read => exact kept.answer inOrder
  | resumeInitializing => exact kept
  | updateFirmware => exact kept.internal rfl (by decide) inOrder
  | pollTransfer answered => exact kept.internal rfl (by decide) inOrder
  | endTransfer => exact kept.internal rfl (by decide) inOrder
  | setStatus newStatus =>
    unfold MeiStateMachine.step
    dsimp only
    split
    next =>
      unfold World.Kept
      dsimp only [onContext]
      rw [books_setStatus]
      split
      next enables =>
        rcases inOrder enables.1 enables.2 with ⟨none, settled⟩
        have found := kept
        unfold World.Kept at found
        rw [none] at found ⊢
        exact found.reset settled
      next => exact kept
    next => exact kept
  | setDenomination amount disabled =>
    unfold World.Kept MeiStateMachine.step
    dsimp only [onContext]
    rw [books_setDenomination]
    exact kept
  | stack bill =>
    rcases inOrder with ⟨none, fits, file⟩
    have found := kept
    unfold World.Kept at found
    rw [none] at found
    exact found.stack fits file
  | takeUp =>
    unfold MeiStateMachine.step
    dsimp only
    split
    next bill rest told => exact kept.takeUp told
    next => exact kept
  | endDeposit =>
    rcases inOrder with ⟨none, reset⟩
    have found := kept
    unfold World.Kept at found
    rw [none] at found
    change MeiStateMachine.Kept (books w.sm.context) 0 w.stacked w.pending w.counted
    rw [none]
    exact found.endDeposit reset
  | recover =>
    rcases inOrder with ⟨none, settled⟩
    have found := kept
    unfold World.Kept at found
    rw [none] at found
    change MeiStateMachine.Kept { (books w.sm.context).reset with fileInfoRequested := true }
      (w.deposit + (recovered w.sm.context.fpValStat w.deposit).length) w.stacked w.pending
      (w.counted ++ recovered w.sm.context.fpValStat w.deposit)
    rw [none]
    refine found.recover ?_
    rw [found.billAccepted]
    split
    next requested => exact (settled requested).2
    next => rfl
  | billAcceptorStart => exact kept.start inOrder
  | billAcceptorStop => exact kept
  | powerFailure memory => exact kept.restart _

end Steps

theorem World.Kept.of_start (memory : JcmBillAcceptData) : (World.start memory).Kept :=
  ⟨rfl, rfl, nofun, nofun, nofun, nofun⟩

/-- In every run whose steps meet the condition, each stacked bill is counted once or on
its way to be, at whatever points the power fails. -/
theorem run_countedOnce {memory : JcmBillAcceptData} {ops : List Op}
    (inOrder : Trace.Always step InOrder ops (.start memory)) :
    CountedOnce (Trace.after step ops (.start memory)) :=
  (Trace.Always.after_of_invariant World.Kept (fun kept ok => kept.step ok)
    (World.Kept.of_start memory) inOrder).countedOnce

/-- A validator's record as `billAcceptorNew` leaves it. -/
def newMemory : JcmBillAcceptData where
  status := .disable
  canChangeStatus := false
  actualState := .zero
  errorCause := .zero
  onPowerUp := false
  commErrQty := 0
  billDepositQty := 0
  fileInfoRequested := false
  statusFiledReseted := false
  notifyInitApp := false
  downloadMode := false
  billTableLoaded := false
  jcmVersion := 0
  convertionTable := []
  answer := ⟨0, [], 0, none⟩
  transferAnswered := false
  fpValStat := .zero
  sent := []
  billAccepted := []

/-- A poll that reads a status frame. -/
def poll (stat0 stat1 : UInt8) (assignment : Option (Int × Int)) : Op :=
  .answer .EVT_POLLSTATUS (.frame true ⟨0x20, [stat0, stat1, 0], 22, assignment⟩)

/-- The driver starts, learns of a bill of 10 and of the version, is enabled, and has a bill
of 10 stacked. -/
def stackTen : List Op :=
  [poll 0x01 0x10 none, .recover, poll 0x01 0x10 none,
   .answer .EVT_CURRENCY (.frame true ⟨0x70, [], 22, some (10, 32)⟩),
   .answer .EVT_CURRENCY (.frame true ⟨0x70, [], 22, none⟩),
   .answer .EVT_VERSION (.frame true ⟨0x60, [], 9, none⟩),
   .answer .EVT_VERSION (.frame true ⟨0x60, [], 9, none⟩),
   poll 0x01 0x10 none, .setStatus .enable, poll 0x01 0x10 none,
   poll 0x04 0x10 (some (10, 32)), poll 0x04 0x10 (some (10, 32)), .stack ⟨10, 32, by decide⟩]

/-- The power fails before the bill's report; the report comes after the restart, and the
bill is recovered. -/
theorem run_countedOnce_powerFailure :
    CountedOnce (Trace.after step
      (stackTen ++ [poll 0x08 0x10 none, .powerFailure newMemory, poll 0x10 0x10 none,
        poll 0x01 0x10 none, .recover])
      (.start newMemory)) :=
  run_countedOnce (by decide)

/-- The same with a status frame in between that says that the stacker is full now: it
wipes the note, and the bill is lost. -/
theorem not_countedOnce_stackerFull :
    ¬ CountedOnce (Trace.after step
      (stackTen ++ [poll 0x08 0x18 none, .powerFailure newMemory, poll 0x10 0x10 none,
        poll 0x01 0x10 none, .recover])
      (.start newMemory)) := by
  decide

end CimArm.MeiStateMachine
