import CimArm.Lib.Trace
import CimArm.System.SyncQueue

/-!
# The print spooler

`PrinterSpooler` prints the jobs of a queue in its own thread.  A job stays at the head while its
document is printed and the paper is advanced.  An error is notified, and the user answers with a
retry or a cancel; a job that ignores the lack of paper leaves the queue with some errors.

* `spooled`: the jobs leave in the order in which they were queued, each one printed, ignored or
  in a cancel that removes what was queued when it began.  A document is printed again after it was
  printed only if the paper advance behind it failed, and the thread ends with the exceptions that
  `run` does not know and with no others.
-/

namespace CimArm.Printer

open Trace Util List

/-! ## The spooler -/

structure PrintingJob (Tree : Type) : Type where
  type : Int
  copiesQty : Int
  ignorePaperOut : Bool
  tree : Tree
  additional : Nat
  deriving DecidableEq

inductive SpoolerAction : Type
  | REPRINT | CANCEL
  deriving DecidableEq

inductive PrinterState : Type
  | OUT_OF_LINE | PAPER_OUT | PRINTER_NEEDS_CLOSE_Z | PRINTER_FATAL_ERROR
  | PRINTER_INTERNAL_FATAL_ERROR | PRINTER_NOT_RESPONDING_BERIGUEL
  deriving DecidableEq

/-- The codes that `run` knows, and the others. -/
inductive PrinterExn : Type
  | PRINTER_OUT_OF_LINE_EX | PRINTER_OUT_OF_PAPER_EX | PRINTER_NEEDS_CLOSE_Z_EX
  | PRINTER_FATAL_ERROR_EX | PRINTER_INTERNAL_FATAL_ERROR_EX | PRINTER_MAX_RETRIES_QTY_EX
  | other (code : Int)
  deriving DecidableEq

/-- `ADVANCE_PAPER_PRT` -/
def advancePaperPrt : Int := 9

/-- `CIM_AUDIT_PRT` -/
def cimAuditPrt : Int := 27

/-- The statement the thread executes next. -/
inductive Pc (Tree : Type) : Type
  | getElement
  /-- `processPrintingAction` with the document of the job. -/
  | document (job : PrintingJob Tree)
  /-- `processPrintingAction` with the paper advance. -/
  | advance (job : PrintingJob Tree)
  /-- A state was notified and an action is waited for. -/
  | popBuffer
  | deletePendingJobs (i count : Nat)
  | popElement
  | ended (ex : PrinterExn)
  deriving DecidableEq

structure PrinterSpooler (Tree : Type) : Type where
  queue : SyncQueue (PrintingJob Tree)
  /-- Of one place. -/
  actionQueue : Option SpoolerAction
  /-- The state that was notified and not answered. -/
  notified : Option PrinterState
  myHasCancelJobs : Bool
  myAdvanceLineQty : Int
  pc : Pc Tree

/-- What the `CATCH` does with an exception. -/
inductive Handling : Type
  | notify (aPrinterState : PrinterState)
  | ignore
  | rethrow

def handling (pIgnorePaperOut : Bool) : PrinterExn → Handling
  | .PRINTER_OUT_OF_LINE_EX => if !pIgnorePaperOut then .notify .OUT_OF_LINE else .ignore
  | .PRINTER_OUT_OF_PAPER_EX => if !pIgnorePaperOut then .notify .PAPER_OUT else .ignore
  | .PRINTER_NEEDS_CLOSE_Z_EX => .notify .PRINTER_NEEDS_CLOSE_Z
  | .PRINTER_FATAL_ERROR_EX =>
    if !pIgnorePaperOut then .notify .PRINTER_FATAL_ERROR else .ignore
  | .PRINTER_INTERNAL_FATAL_ERROR_EX =>
    if !pIgnorePaperOut then .notify .PRINTER_INTERNAL_FATAL_ERROR else .ignore
  | .PRINTER_MAX_RETRIES_QTY_EX => .notify .PRINTER_NOT_RESPONDING_BERIGUEL
  | .other _ => .rethrow

/-- Whether the paper is advanced after the document; an audit report has several parts. -/
def advances {Tree : Type} (myAdvanceLineQty : Int) (job : PrintingJob Tree) : Bool :=
  (job.type ≠ cimAuditPrt ∨ job.type = cimAuditPrt ∧ job.additional = 2) ∧
    job.type ≠ advancePaperPrt ∧ myAdvanceLineQty > 0

namespace PrinterSpooler

variable {Tree : Type}

def new (myAdvanceLineQty : Int) : PrinterSpooler Tree :=
  ⟨.new, none, none, false, myAdvanceLineQty, .getElement⟩

variable (self : PrinterSpooler Tree)

def addPrintingJob (job : PrintingJob Tree) : PrinterSpooler Tree :=
  { self with queue := self.queue.pushElement job }

/-- `reprintLastJob` and `cancelLastJob`, in answer to a notification. -/
def pushAction (action : SpoolerAction) : PrinterSpooler Tree :=
  if self.notified.isSome then { self with actionQueue := some action, notified := none }
  else self

def catchException (job : PrintingJob Tree) (ex : PrinterExn) : PrinterSpooler Tree :=
  match handling job.ignorePaperOut ex with
  | .notify aPrinterState => { self with notified := some aPrinterState, pc := .popBuffer }
  | .ignore => { self with pc := .popElement }
  | .rethrow => { self with pc := .ended ex }

/-- One statement of `run`; the result is that of the print call, if it is one. -/
def run (result : Option PrinterExn) : PrinterSpooler Tree :=
  match self.pc with
  | .getElement =>
    match self.queue.getElement with
    | none => self
    | some job => { self with pc := .document job, myHasCancelJobs := false }
  | .document job =>
    match result with
    | none =>
      { self with pc := if advances self.myAdvanceLineQty job then .advance job else .popElement }
    | some ex => self.catchException job ex
  | .advance job =>
    match result with
    | none => { self with pc := .popElement }
    | some ex => self.catchException job ex
  | .popBuffer =>
    match self.actionQueue with
    | none => self
    | some .REPRINT => { self with actionQueue := none, pc := .getElement }
    | some .CANCEL =>
      { self with actionQueue := none, pc := .deletePendingJobs 0 self.queue.getCount }
  | .deletePendingJobs i count =>
    if i < count then
      match self.queue.popElement with
      | none => self
      | some (_, queue) => { self with queue, pc := .deletePendingJobs (i + 1) count }
    else { self with pc := .getElement, myHasCancelJobs := true }
  | .popElement =>
    match self.queue.popElement with
    | none => self
    | some (_, queue) => { self with queue, pc := .getElement }
  | .ended _ => self

end PrinterSpooler

/-! ## Runs -/

inductive Part : Type
  | document | advance
  deriving DecidableEq

/-- A call of `processPrintingAction` and how it ended. -/
structure PrintCall : Type where
  part : Part
  result : Option PrinterExn
  deriving DecidableEq

/-- How jobs left the queue. -/
inductive Departure (Tree : Type) : Type
  /-- A job, with the print calls made for it. -/
  | popped (job : PrintingJob Tree) (calls : List PrintCall)
  /-- A cancel: what was queued when it began, and what it removed. -/
  | cancelled (queued removed : List (PrintingJob Tree))

def Departure.jobs {Tree : Type} : Departure Tree → List (PrintingJob Tree)
  | .popped job _ => [job]
  | .cancelled _ removed => removed

/-- The spooler, and what happened: the jobs that were queued, the calls for the one at the head,
the departures, and what is queued and removed of the cancel under way. -/
structure Session (Tree : Type) : Type where
  spooler : PrinterSpooler Tree
  queued : List (PrintingJob Tree)
  calls : List PrintCall
  left : List (Departure Tree)
  cancel : Option (List (PrintingJob Tree) × List (PrintingJob Tree))

inductive Event (Tree : Type) : Type
  | addPrintingJob (job : PrintingJob Tree)
  | pushAction (action : SpoolerAction)
  | run (result : Option PrinterExn)

namespace Session

variable {Tree : Type}

def start (myAdvanceLineQty : Int) : Session Tree := ⟨.new myAdvanceLineQty, [], [], [], none⟩

/-- What is seen of a statement of `run`. -/
def observe (self : Session Tree) (result : Option PrinterExn) : Session Tree :=
  match self.spooler.pc with
  | .document _ => { self with calls := self.calls ++ [⟨.document, result⟩] }
  | .advance _ => { self with calls := self.calls ++ [⟨.advance, result⟩] }
  | .popElement =>
    match self.spooler.queue.popElement with
    | none => self
    | some (job, _) => { self with calls := [], left := self.left ++ [.popped job self.calls] }
  | .popBuffer =>
    if self.spooler.actionQueue = some .CANCEL then
      { self with calls := [], cancel := some (self.spooler.queue.myCollection, []) }
    else self
  | .deletePendingJobs i count =>
    match self.cancel with
    | none => self
    | some (queued, removed) =>
      if i < count then
        match self.spooler.queue.popElement with
        | none => self
        | some (job, _) => { self with cancel := some (queued, removed ++ [job]) }
      else { self with left := self.left ++ [.cancelled queued removed], cancel := none }
  | _ => self

def step : Event Tree → Session Tree → Session Tree
  | .addPrintingJob job, self =>
    { self with spooler := self.spooler.addPrintingJob job, queued := self.queued ++ [job] }
  | .pushAction action, self => { self with spooler := self.spooler.pushAction action }
  | .run result, self => { self.observe result with spooler := self.spooler.run result }

/-- The jobs that the cancel under way has removed. -/
def removing (self : Session Tree) : List (PrintingJob Tree) :=
  match self.cancel with
  | none => []
  | some (_, removed) => removed

end Session

open Session

/-! ## What the spooler is for -/

section

variable {Tree : Type}

/-- The last try printed the document, and advanced the paper if that is done. -/
def Printed (myAdvanceLineQty : Int) (job : PrintingJob Tree) (calls : List PrintCall) : Prop :=
  ∃ tries, calls = tries ++
    if advances myAdvanceLineQty job then [⟨.document, none⟩, ⟨.advance, none⟩]
    else [⟨.document, none⟩]

/-- The errors that do not matter to a job that ignores the lack of paper. -/
def PrinterExn.IsCovered (ex : PrinterExn) : Prop :=
  ex = .PRINTER_OUT_OF_LINE_EX ∨ ex = .PRINTER_OUT_OF_PAPER_EX ∨ ex = .PRINTER_FATAL_ERROR_EX ∨
    ex = .PRINTER_INTERNAL_FATAL_ERROR_EX

def Ignored (job : PrintingJob Tree) (calls : List PrintCall) : Prop :=
  job.ignorePaperOut = true ∧ ∃ tries part ex,
    calls = tries ++ [⟨part, some ex⟩] ∧ ex.IsCovered

/-- A job was printed or ignored; a cancel removed what was queued when it began. -/
def Departure.Allowed (myAdvanceLineQty : Int) : Departure Tree → Prop
  | .popped job calls => Printed myAdvanceLineQty job calls ∨ Ignored job calls
  | .cancelled queued removed => removed = queued

/-- A document that was printed is printed again only if the paper advance failed in between. -/
def PrintsAgain (calls : List PrintCall) : Prop :=
  ∀ (i j : Nat) (result : Option PrinterExn), i < j → calls[i]? = some ⟨.document, none⟩ →
    calls[j]? = some ⟨.document, result⟩ →
    ∃ (k : Nat) (ex : PrinterExn), i < k ∧ k < j ∧ calls[k]? = some ⟨.advance, some ex⟩

def PrinterExn.IsOther (ex : PrinterExn) : Prop := ∃ code, ex = .other code

structure Spooled (session : Session Tree) : Prop where
  /-- No job is lost, and they leave in the order in which they were queued. -/
  order : session.left.flatMap Departure.jobs ++ session.removing ++
    session.spooler.queue.myCollection = session.queued
  leaves : ∀ departure ∈ session.left, departure.Allowed session.spooler.myAdvanceLineQty
  /-- A cancel under way removes what was queued when it began. -/
  removes : ∀ queued removed, session.cancel = some (queued, removed) → removed <+: queued
  again : PrintsAgain session.calls
  popped : ∀ job calls, .popped job calls ∈ session.left → PrintsAgain calls
  ends : ∀ ex, session.spooler.pc = .ended ex ↔
    ex.IsOther ∧ ∃ part, ⟨part, some ex⟩ ∈ session.calls

end

/-! ## Print calls -/

section

variable {Tree : Type} {job : PrintingJob Tree} {calls : List PrintCall} {myAdvanceLineQty : Int}

/-- No try was made, or the last call failed. -/
def Failed (calls : List PrintCall) : Prop :=
  calls = [] ∨ ∃ tries part ex, calls = tries ++ [⟨part, some ex⟩]

theorem failed_append (calls : List PrintCall) (part : Part) (ex : PrinterExn) :
    Failed (calls ++ [⟨part, some ex⟩]) := .inr ⟨calls, part, ex, rfl⟩

theorem printsAgain_nil : PrintsAgain [] := by
  intro i j result less here
  cases here

/-- The document is printed after a call that failed; the paper is advanced at any time. -/
theorem PrintsAgain.append (again : PrintsAgain calls) {call : PrintCall}
    (retry : call.part = .document → Failed calls) : PrintsAgain (calls ++ [call]) := by
  intro i j result less printed second
  have inside : i < calls.length := by
    have bound := (List.getElem?_eq_some_iff.1 second).1
    rw [length_append, length_singleton] at bound
    omega
  rw [List.getElem?_append_left inside] at printed
  have widen {k : Nat} {c : PrintCall} (here : calls[k]? = some c) :
      (calls ++ [call])[k]? = some c := by
    rw [List.getElem?_append_left (List.getElem?_eq_some_iff.1 here).1]
    exact here
  have among {j : Nat} {result : Option PrinterExn} (less : i < j)
      (second : calls[j]? = some ⟨.document, result⟩) :
      ∃ (k : Nat) (ex : PrinterExn), i < k ∧ k < j ∧
        (calls ++ [call])[k]? = some ⟨.advance, some ex⟩ := by
    obtain ⟨k, ex, low, high, failed⟩ := again i j result less printed second
    exact ⟨k, ex, low, high, widen failed⟩
  rcases Nat.lt_or_ge j calls.length with old | new
  · rw [List.getElem?_append_left old] at second
    exact among less second
  · -- the call that is added follows one that failed
    rw [List.getElem?_append_right new, List.getElem?_eq_some_iff] at second
    obtain ⟨zero, same⟩ := second
    rw [getElem_singleton] at same
    rcases retry (by rw [same]) with rfl | ⟨tries, part, ex, rfl⟩
    · cases printed
    · rw [length_append, length_singleton] at inside new
      have last : (tries ++ [⟨part, some ex⟩])[tries.length]? = some ⟨part, some ex⟩ := by
        rw [List.getElem?_append_right (Nat.le_refl _), Nat.sub_self]
        rfl
      have before : i < tries.length := by
        rcases Nat.lt_succ_iff_lt_or_eq.1 inside with earlier | rfl
        · exact earlier
        · rw [last] at printed
          cases printed
      cases part with
      | document =>
        obtain ⟨k, ex', low, high, failed⟩ := among before last
        exact ⟨k, ex', low, by omega, failed⟩
      | advance => exact ⟨tries.length, ex, before, by omega, widen last⟩

theorem printed_document (once : advances myAdvanceLineQty job = false) :
    Printed myAdvanceLineQty job (calls ++ [⟨.document, none⟩]) := by
  refine ⟨calls, ?_⟩
  rw [once]
  rfl

theorem printed_advance (twice : advances myAdvanceLineQty job = true) :
    Printed myAdvanceLineQty job (calls ++ [⟨.document, none⟩] ++ [⟨.advance, none⟩]) := by
  refine ⟨calls, ?_⟩
  rw [twice, append_assoc]
  rfl

theorem handling_cases (pIgnorePaperOut : Bool) (ex : PrinterExn) :
    (¬ex.IsOther ∧ ∃ aPrinterState, handling pIgnorePaperOut ex = .notify aPrinterState) ∨
    (¬ex.IsOther ∧ ex.IsCovered ∧ pIgnorePaperOut = true ∧
      handling pIgnorePaperOut ex = .ignore) ∨
    ex.IsOther ∧ handling pIgnorePaperOut ex = .rethrow := by
  cases ex with
  | other code => exact .inr (.inr ⟨⟨code, rfl⟩, rfl⟩)
  | _ => cases pIgnorePaperOut <;> simp [PrinterExn.IsOther, PrinterExn.IsCovered, handling]

end

/-! ## The invariant -/

section

variable {Tree : Type} {session : Session Tree} {job : PrintingJob Tree}

/-- What holds where the thread is. -/
def At (session : Session Tree) : Pc Tree → Prop
  | .getElement => session.cancel = none ∧ Failed session.calls
  | .document job =>
    session.cancel = none ∧ session.spooler.queue.myCollection.head? = some job ∧
      Failed session.calls
  | .advance job =>
    session.cancel = none ∧ session.spooler.queue.myCollection.head? = some job ∧
      advances session.spooler.myAdvanceLineQty job = true ∧
        ∃ tries, session.calls = tries ++ [⟨.document, none⟩]
  | .popBuffer => session.cancel = none ∧ Failed session.calls
  | .deletePendingJobs i count =>
    session.calls = [] ∧ ∃ removed waiting, session.cancel = some (removed ++ waiting, removed) ∧
      waiting <+: session.spooler.queue.myCollection ∧ i = removed.length ∧
        count = removed.length + waiting.length
  | .popElement =>
    session.cancel = none ∧ ∃ job, session.spooler.queue.myCollection.head? = some job ∧
      (Printed session.spooler.myAdvanceLineQty job session.calls ∨ Ignored job session.calls)
  | .ended ex =>
    session.cancel = none ∧ ex.IsOther ∧ ∃ part, ⟨part, some ex⟩ ∈ session.calls

structure Inv (session : Session Tree) : Prop where
  order : session.left.flatMap Departure.jobs ++ session.removing ++
    session.spooler.queue.myCollection = session.queued
  leaves : ∀ departure ∈ session.left, departure.Allowed session.spooler.myAdvanceLineQty
  again : PrintsAgain session.calls
  popped : ∀ job calls, .popped job calls ∈ session.left → PrintsAgain calls
  known : ∀ part ex, ⟨part, some ex⟩ ∈ session.calls → ex.IsOther →
    session.spooler.pc = .ended ex
  place : At session session.spooler.pc

theorem inv_start (myAdvanceLineQty : Int) : Inv (start myAdvanceLineQty : Session Tree) where
  order := rfl
  leaves _ member := absurd member not_mem_nil
  again := printsAgain_nil
  popped _ _ member := absurd member not_mem_nil
  known _ _ member := absurd member not_mem_nil
  place := ⟨rfl, .inl rfl⟩

theorem Inv.shown (inv : Inv session) : Spooled session where
  order := inv.order
  leaves := inv.leaves
  removes queued removed cancel := by
    have place := inv.place
    cases pc : session.spooler.pc with
    | deletePendingJobs i count =>
      rw [pc] at place
      obtain ⟨-, removed', waiting, same, -⟩ := place
      rw [same] at cancel
      cases cancel
      exact prefix_append removed waiting
    | _ =>
      rw [pc] at place
      rw [place.1] at cancel
      cases cancel
  again := inv.again
  popped := inv.popped
  ends ex := by
    constructor
    · intro ended
      have place := inv.place
      rw [ended] at place
      exact place.2
    · intro raised
      obtain ⟨other, part, member⟩ := raised
      exact inv.known part ex member other

/-! ## Steps -/

theorem Inv.addPrintingJob (inv : Inv session) (job : PrintingJob Tree) :
    Inv (step (.addPrintingJob job) session) where
  order := by
    show session.left.flatMap Departure.jobs ++ session.removing ++
      (session.spooler.queue.myCollection ++ [job]) = session.queued ++ [job]
    rw [← append_assoc, inv.order]
  leaves := inv.leaves
  again := inv.again
  popped := inv.popped
  known := inv.known
  place := by
    have place := inv.place
    have head {first : PrintingJob Tree}
        (here : session.spooler.queue.myCollection.head? = some first) :
        (session.spooler.queue.myCollection ++ [job]).head? = some first := by
      rw [List.head?_append, here]
      rfl
    show At _ session.spooler.pc
    cases pc : session.spooler.pc with
    | getElement | popBuffer | ended =>
      rw [pc] at place
      exact place
    | document first | advance first =>
      rw [pc] at place
      exact ⟨place.1, head place.2.1, place.2.2⟩
    | deletePendingJobs i count =>
      rw [pc] at place
      obtain ⟨calls, removed, waiting, cancel, front, counts⟩ := place
      exact ⟨calls, removed, waiting, cancel, front.trans (prefix_append _ _), counts⟩
    | popElement =>
      rw [pc] at place
      obtain ⟨free, first, here, done⟩ := place
      exact ⟨free, first, head here, done⟩

theorem Inv.pushAction (inv : Inv session) (action : SpoolerAction) :
    Inv (step (.pushAction action) session) := by
  rw [step, PrinterSpooler.pushAction]
  split
  · exact ⟨inv.order, inv.leaves, inv.again, inv.popped, inv.known, inv.place⟩
  · exact inv

theorem Inv.called (inv : Inv session) {spooler : PrinterSpooler Tree}
    (alive : ∀ ex, session.spooler.pc ≠ .ended ex)
    (queue : spooler.queue = session.spooler.queue)
    (qty : spooler.myAdvanceLineQty = session.spooler.myAdvanceLineQty) {call : PrintCall}
    (retry : call.part = .document → Failed session.calls)
    (known : ∀ ex, call.result = some ex → ex.IsOther → spooler.pc = .ended ex)
    (place : At { session with calls := session.calls ++ [call], spooler } spooler.pc) :
    Inv { session with calls := session.calls ++ [call], spooler } where
  order := by
    rw [queue]
    exact inv.order
  leaves := by
    rw [qty]
    exact inv.leaves
  again := inv.again.append retry
  popped := inv.popped
  known part ex member other := by
    rcases mem_append.1 member with old | new
    · exact absurd (inv.known part ex old other) (alive ex)
    · rw [← mem_singleton.1 new] at known
      exact known ex rfl other
  place := place

theorem Inv.caught (inv : Inv session) (alive : ∀ ex, session.spooler.pc ≠ .ended ex) {part : Part}
    (ex : PrinterExn) (retry : part = .document → Failed session.calls)
    (free : session.cancel = none)
    (head : session.spooler.queue.myCollection.head? = some job) :
    Inv { session with
      calls := session.calls ++ [⟨part, some ex⟩]
      spooler := session.spooler.catchException job ex } := by
  have failed := failed_append session.calls part ex
  rw [PrinterSpooler.catchException]
  rcases handling_cases job.ignorePaperOut ex with
    ⟨mine, aPrinterState, notify⟩ | ⟨mine, covered, ignores, ignore⟩ | ⟨other, rethrow⟩
  · rw [notify]
    refine inv.called alive ?_ ?_ retry ?_ ?_
    · rfl
    · rfl
    · intro ex' same other
      cases same
      exact absurd other mine
    · exact ⟨free, failed⟩
  · rw [ignore]
    refine inv.called alive ?_ ?_ retry ?_ ?_
    · rfl
    · rfl
    · intro ex' same other
      cases same
      exact absurd other mine
    · exact ⟨free, job, head, .inr ⟨ignores, session.calls, part, ex, rfl, covered⟩⟩
  · rw [rethrow]
    refine inv.called alive ?_ ?_ retry ?_ ?_
    · rfl
    · rfl
    · intro ex' same other
      cases same
      rfl
    · exact ⟨free, other, part, mem_append_right _ (mem_singleton_self _)⟩

theorem Inv.alive (inv : Inv session) {pc : Pc Tree} (here : session.spooler.pc = pc)
    (alive : ∀ ex, pc ≠ .ended ex) (part : Part) (ex : PrinterExn)
    (member : ⟨part, some ex⟩ ∈ session.calls) : ¬ex.IsOther := by
  intro other
  exact alive ex (here.symm.trans (inv.known part ex member other))

theorem Inv.run_getElement (inv : Inv session) (pc : session.spooler.pc = .getElement)
    (result : Option PrinterExn) : Inv (step (.run result) session) := by
  have place := inv.place
  rw [pc] at place
  obtain ⟨free, failed⟩ := place
  simp only [step, observe, PrinterSpooler.run, pc, SyncQueue.getElement_eq]
  cases head : session.spooler.queue.myCollection.head? with
  | none => exact inv
  | some job =>
    have mine := inv.alive pc (fun ex same => by cases same)
    refine ⟨inv.order, inv.leaves, inv.again, inv.popped, ?_, free, head, failed⟩
    intro part ex member other
    exact absurd other (mine part ex member)

theorem Inv.run_document (inv : Inv session) (pc : session.spooler.pc = .document job)
    (result : Option PrinterExn) : Inv (step (.run result) session) := by
  have place := inv.place
  rw [pc] at place
  obtain ⟨free, head, failed⟩ := place
  have alive (ex : PrinterExn) : session.spooler.pc ≠ .ended ex := by
    rw [pc]
    intro same
    cases same
  simp only [step, observe, PrinterSpooler.run, pc]
  cases result with
  | some ex => exact inv.caught alive ex (fun _ => failed) free head
  | none =>
    refine inv.called alive ?_ ?_ (fun _ => failed) ?_ ?_
    · rfl
    · rfl
    · intro ex same
      cases same
    · dsimp only
      cases twice : advances session.spooler.myAdvanceLineQty job with
      | true => exact ⟨free, head, twice, session.calls, rfl⟩
      | false => exact ⟨free, job, head, .inl (printed_document twice)⟩

theorem Inv.run_advance (inv : Inv session) (pc : session.spooler.pc = .advance job)
    (result : Option PrinterExn) : Inv (step (.run result) session) := by
  have place := inv.place
  rw [pc] at place
  obtain ⟨free, head, twice, tries, printed⟩ := place
  have alive (ex : PrinterExn) : session.spooler.pc ≠ .ended ex := by
    rw [pc]
    intro same
    cases same
  have other : Part.advance = .document → Failed session.calls := by
    intro same
    cases same
  simp only [step, observe, PrinterSpooler.run, pc]
  cases result with
  | some ex => exact inv.caught alive ex other free head
  | none =>
    refine inv.called alive ?_ ?_ other ?_ ?_
    · rfl
    · rfl
    · intro ex same
      cases same
    · refine ⟨free, job, head, .inl ?_⟩
      show Printed _ job (session.calls ++ [⟨.advance, none⟩])
      rw [printed]
      exact printed_advance twice

theorem Inv.run_popBuffer (inv : Inv session) (pc : session.spooler.pc = .popBuffer)
    (result : Option PrinterExn) : Inv (step (.run result) session) := by
  have place := inv.place
  rw [pc] at place
  obtain ⟨free, failed⟩ := place
  have order := inv.order
  have mine := inv.alive pc (fun ex same => by cases same)
  simp only [step, observe, PrinterSpooler.run, pc]
  cases answer : session.spooler.actionQueue with
  | none => exact inv
  | some action =>
    cases action with
    | REPRINT =>
      refine ⟨inv.order, inv.leaves, inv.again, inv.popped, ?_, free, failed⟩
      intro part ex member other
      exact absurd other (mine part ex member)
    | CANCEL =>
      rw [removing, free] at order
      refine ⟨order, inv.leaves, printsAgain_nil, inv.popped, ?_, rfl, [], _, rfl, ?_, rfl, ?_⟩
      · intro part ex member
        cases member
      · exact prefix_refl _
      · exact (Nat.zero_add _).symm

theorem Inv.run_deletePendingJobs (inv : Inv session) {i count : Nat}
    (pc : session.spooler.pc = .deletePendingJobs i count) (result : Option PrinterExn) :
    Inv (step (.run result) session) := by
  have place := inv.place
  rw [pc] at place
  obtain ⟨calls, removed, waiting, cancel, front, rfl, rfl⟩ := place
  have order := inv.order
  rw [removing, cancel] at order
  dsimp only at order
  simp only [step, observe, PrinterSpooler.run, pc, cancel]
  cases waiting with
  | nil =>
    have done : ¬removed.length < removed.length + ([] : List (PrintingJob Tree)).length :=
      Nat.lt_irrefl _
    rw [if_neg done, if_neg done]
    refine ⟨?_, ?_, inv.again, ?_, ?_, rfl, .inl calls⟩
    · simp only [removing, flatMap_append, flatMap_cons, flatMap_nil, append_nil, Departure.jobs]
      exact order
    · intro departure member
      rcases mem_append.1 member with old | new
      · exact inv.leaves departure old
      · rw [mem_singleton.1 new]
        exact (append_nil removed).symm
    · intro job calls member
      rcases mem_append.1 member with old | new
      · exact inv.popped job calls old
      · cases mem_singleton.1 new
    · intro part ex member
      rw [calls] at member
      cases member
  | cons job waiting =>
    obtain ⟨rest, collection⟩ := front
    have more : removed.length < removed.length + (job :: waiting).length :=
      Nat.lt_add_of_pos_right (Nat.succ_pos _)
    rw [if_pos more, if_pos more, SyncQueue.popElement_cons collection.symm]
    refine ⟨?_, inv.leaves, inv.again, inv.popped, ?_, calls, removed ++ [job], waiting, ?_, ?_⟩
    · rw [← collection] at order
      show session.left.flatMap Departure.jobs ++ (removed ++ [job]) ++ (waiting ++ rest) = _
      rw [← order]
      simp
    · intro part ex member
      rw [calls] at member
      cases member
    · simp
    · refine ⟨prefix_append _ _, ?_, ?_⟩
      · rw [length_append, length_singleton]
      · rw [length_append, length_singleton, length_cons]
        omega

theorem Inv.run_popElement (inv : Inv session) (pc : session.spooler.pc = .popElement)
    (result : Option PrinterExn) : Inv (step (.run result) session) := by
  have place := inv.place
  rw [pc] at place
  obtain ⟨free, job, head, done⟩ := place
  obtain ⟨rest, collection⟩ := List.head?_eq_some_iff.1 head
  have order := inv.order
  rw [removing, free, collection] at order
  simp only [step, observe, PrinterSpooler.run, pc, SyncQueue.popElement_cons collection]
  refine ⟨?_, ?_, printsAgain_nil, ?_, ?_, free, .inl rfl⟩
  · rw [removing]
    simp only [free, flatMap_append, ← order]
    simp [Departure.jobs]
  · intro departure member
    rcases mem_append.1 member with old | new
    · exact inv.leaves departure old
    · rw [mem_singleton.1 new]
      exact done
  · intro job' calls member
    rcases mem_append.1 member with old | new
    · exact inv.popped job' calls old
    · cases mem_singleton.1 new
      exact inv.again
  · intro part ex member
    cases member

theorem Inv.step (inv : Inv session) (event : Event Tree) : Inv (step event session) := by
  cases event with
  | addPrintingJob job => exact inv.addPrintingJob job
  | pushAction action => exact inv.pushAction action
  | run result =>
    cases pc : session.spooler.pc with
    | getElement => exact inv.run_getElement pc result
    | document job => exact inv.run_document pc result
    | advance job => exact inv.run_advance pc result
    | popBuffer => exact inv.run_popBuffer pc result
    | deletePendingJobs i count => exact inv.run_deletePendingJobs pc result
    | popElement => exact inv.run_popElement pc result
    | ended ex =>
      simp only [Session.step, observe, PrinterSpooler.run, pc]
      exact inv

theorem spooled (myAdvanceLineQty : Int) (events : List (Event Tree)) :
    Spooled (after step events (start myAdvanceLineQty)) :=
  (after_of_invariant Inv (fun _ event inv => inv.step event) events
    (inv_start myAdvanceLineQty)).shown

/-- A document is printed and the paper ends at the advance; it is printed again, and then its
format is not found. -/
theorem not_spooled :
    let events : List (Event Unit) :=
      [.addPrintingJob ⟨1, 1, false, (), 0⟩, .run none, .run none,
        .run (some .PRINTER_OUT_OF_PAPER_EX), .pushAction .REPRINT, .run none, .run none,
        .run (some (.other 8005))]
    let session : Session Unit := after step events (start 3)
    ¬(∀ (i j : Nat) (result : Option PrinterExn), i < j →
      session.calls[i]? = some ⟨.document, none⟩ →
      session.calls[j]? ≠ some ⟨.document, result⟩) ∧
    ¬∀ ex : PrinterExn, session.spooler.pc ≠ .ended ex := by
  intro events session
  constructor
  · intro once
    exact once 0 2 (some (.other 8005)) (by decide) (by decide) (by decide)
  · intro alive
    exact alive (.other 8005) (by decide)

end

end CimArm.Printer
