import CimArm.System.Queue

/-!
# The queue of user-interface events

`JEventQueue`: a queue of at most `MAX_JEVENTS` events with a mutex, a semaphore that counts
the events and a count of messages.  A PAINT is not added behind another PAINT.

The last event is looked up with `qGetLastElement`, which reads the slot before the next free
one without wrapping.  While the next free slot is slot `0` that is memory before the buffer, and
it is what stands there that decides whether a PAINT is added.

* `merges_iff`: a run goes as it should if and only if no PAINT is put while the next free slot
  is slot `0`, what stands before the buffer reads as a PAINT and the last event is another one.
  The counts, the mutex and the other events are right in every run.
-/

namespace CimArm.Ui

open Trace Util List

/-- An event; the union of what a key and what other events tell is taken as it stands in
memory. -/
structure JEvent : Type where
  evtid : Int
  evtParam1 : Int
  event : UInt64
  deriving DecidableEq

/-- `JEventQueueMessage_PAINT` -/
def JEvent.isPaint (evt : JEvent) : Bool := evt.evtid == 2

/-- `MAX_JEVENTS` -/
def maxJEvents : Nat := 256

structure JEventQueue : Type where
  mySem : Nat
  myMutex : Bool
  myEventQueue : Queue JEvent
  myMessageCount : Int

/-- How a call ends, if it does not wait. -/
inductive JOutcome : Type
  | waits
  | raised (e : QueueExn)
  | returned (anEvent : Option JEvent)
  deriving DecidableEq

namespace JEventQueue

def new (memory : Int → JEvent) : JEventQueue := ⟨0, false, qNew memory maxJEvents, 0⟩

section

variable (self : JEventQueue)

/-- Whether an event is to be added. -/
def addevt (anEvent : JEvent) : Except QueueExn Bool :=
  if !self.myEventQueue.qIsEmpty && anEvent.isPaint then
    (self.myEventQueue.qGetLastElement true).map fun evt => !evt.any JEvent.isPaint
  else .ok true

/-- What `putJEvent` tries: the answer is whether the event was added. -/
def putTry (anEvent : JEvent) : Except QueueExn Bool × JEventQueue :=
  match self.addevt anEvent with
  | .error e => (.error e, self)
  | .ok false => (.ok false, self)
  | .ok true =>
    match self.myEventQueue.qAdd anEvent with
    | (.error e, queue) => (.error e, { self with myEventQueue := queue })
    | (.ok _, queue) =>
      (.ok true,
        { self with
          myEventQueue := queue
          myMessageCount := self.myMessageCount + 1 })

def putJEvent (anEvent : JEvent) : JOutcome × JEventQueue :=
  if self.myMutex then (.waits, self)
  else
    let (added, self) := { self with myMutex := true }.putTry anEvent
    let self := { self with myMutex := false }
    match added with
    | .error e => (.raised e, self)
    | .ok true => (.returned none, { self with mySem := self.mySem + 1 })
    | .ok false => (.returned none, self)

/-- An exception goes on to the caller, so that what comes after is for a removed event. -/
def getJEvent : JOutcome × JEventQueue :=
  if self.mySem = 0 then (.waits, self)
  else
    let self := { self with mySem := self.mySem - 1 }
    if self.myMutex then (.waits, self)
    else
      match self.myEventQueue.qRemove true with
      | (.error e, queue) => (.raised e, { self with myEventQueue := queue })
      | (.ok anEvent, queue) =>
        (.returned anEvent,
          { self with
            myEventQueue := queue
            myMessageCount := self.myMessageCount - 1 })

/-- Other code writes memory outside the buffer. -/
def writeElsewhere (memory : Int → JEvent) : JEventQueue :=
  { self with
    myEventQueue :=
      { self.myEventQueue with
        buf := fun slot =>
          if 0 ≤ slot ∧ slot < maxJEvents then self.myEventQueue.buf slot else memory slot } }

def elements : List JEvent := self.myEventQueue.elements

end

end JEventQueue

/-! ## Runs -/

inductive JCall : Type
  | putJEvent (anEvent : JEvent)
  | getJEvent
  | elsewhere (memory : Int → JEvent)

/-- The queue, the events that were put without an exception, and those that were returned. -/
structure JSession : Type where
  queue : JEventQueue
  accepted : List JEvent
  delivered : List JEvent

namespace JSession

def start (memory : Int → JEvent) : JSession := ⟨.new memory, [], []⟩

/-- Whether a put counts as one that did not raise. -/
def accepts (anEvent : JEvent) : JOutcome → List JEvent
  | .raised _ => []
  | _ => [anEvent]

def delivers : JOutcome → List JEvent
  | .returned (some anEvent) => [anEvent]
  | _ => []

def step : JCall → JSession → JSession
  | .putJEvent anEvent, s =>
    { s with
      queue := (s.queue.putJEvent anEvent).2
      accepted := s.accepted ++ accepts anEvent (s.queue.putJEvent anEvent).1 }
  | .getJEvent, s =>
    { s with
      queue := s.queue.getJEvent.2
      delivered := s.delivered ++ delivers s.queue.getJEvent.1 }
  | .elsewhere memory, s => { s with queue := s.queue.writeElsewhere memory }

/-- The mutex is free and the counts are the number of events. -/
structure Counted (queue : JEventQueue) : Prop where
  mutex : queue.myMutex = false
  sem : queue.elements.length = queue.mySem
  messages : queue.myMessageCount = queue.mySem
  count : queue.myEventQueue.count = queue.mySem

/-- The events other than PAINT. -/
def others (events : List JEvent) : List JEvent := events.filter fun evt => !evt.isPaint

/-- A PAINT is put and not added, though no exception is raised. -/
def Discards (queue : JEventQueue) (anEvent : JEvent) : Prop :=
  anEvent.isPaint = true ∧ (queue.putJEvent anEvent).1 = .returned none ∧
    (queue.putJEvent anEvent).2.elements ≠ queue.elements ++ [anEvent]

/-- What a call should do. -/
def Answers (queue : JEventQueue) : JCall → Prop
  | .putJEvent anEvent => Discards queue anEvent →
      ∃ last, queue.elements.getLast? = some last ∧ last.isPaint = true
  | .getJEvent => queue.elements ≠ [] → queue.getJEvent.1 = .returned queue.elements.head?
  | .elsewhere _ => True

structure Right (s : JSession) (call : JCall) : Prop where
  counted : Counted (step call s).queue
  delivered : others (step call s).accepted =
    others ((step call s).delivered ++ (step call s).queue.elements)
  answers : Answers s.queue call

/-- What stands before the buffer does not pass for a PAINT at its end. -/
def Merges (s : JSession) : JCall → Prop
  | .putJEvent anEvent => anEvent.isPaint = true → s.queue.elements ≠ [] →
      s.queue.myEventQueue.indexLast = 0 → (s.queue.myEventQueue.buf (-1)).isPaint = true →
      ∃ last, s.queue.elements.getLast? = some last ∧ last.isPaint = true
  | _ => True

/-! ## Calls -/

/-- The queue keeps a list of events, which the counts count. -/
structure Keeps (queue : JEventQueue) (f : Fifo JEvent maxJEvents) : Prop where
  represents : Represents queue.myEventQueue f
  mutex : queue.myMutex = false
  sem : queue.mySem = f.items.length
  messages : queue.myMessageCount = f.items.length

variable {queue : JEventQueue} {f : Fifo JEvent maxJEvents}

theorem Keeps.elements (keeps : Keeps queue f) : queue.elements = f.items :=
  keeps.represents.elements_eq

theorem Keeps.counted (keeps : Keeps queue f) : Counted queue where
  mutex := keeps.mutex
  sem := by rw [keeps.elements, keeps.sem]
  messages := by rw [keeps.messages, keeps.sem]
  count := by rw [keeps.represents.count, keeps.sem]

theorem qIsEmpty_iff (keeps : Keeps queue f) :
    queue.myEventQueue.qIsEmpty = true ↔ f.items = [] := by
  rw [keeps.represents.qIsEmpty, List.isEmpty_iff]

theorem qGetLastElement_eq (keeps : Keeps queue f) (nonempty : f.items ≠ []) :
    queue.myEventQueue.qGetLastElement true =
      .ok (some (queue.myEventQueue.buf (queue.myEventQueue.indexLast - 1))) := by
  have empty : ¬queue.myEventQueue.qIsEmpty = true := mt (qIsEmpty_iff keeps).1 nonempty
  rw [Queue.qGetLastElement, if_neg empty]
  rfl

/-- An event that is not to be added is a PAINT, and what is read as the last event is one. -/
theorem addevt_eq (keeps : Keeps queue f) (anEvent : JEvent) :
    queue.addevt anEvent = .ok (!(decide (f.items ≠ []) && anEvent.isPaint &&
      (queue.myEventQueue.buf (queue.myEventQueue.indexLast - 1)).isPaint)) := by
  rw [JEventQueue.addevt]
  by_cases empty : f.items = []
  · rw [(qIsEmpty_iff keeps).2 empty, decide_eq_false (not_not.2 empty)]
    rfl
  · have some_ : queue.myEventQueue.qIsEmpty = false :=
      Bool.eq_false_iff.2 (mt (qIsEmpty_iff keeps).1 empty)
    rw [some_, decide_eq_true empty, qGetLastElement_eq keeps empty]
    cases anEvent.isPaint
    · rfl
    · rfl

theorem addevt_false_iff (keeps : Keeps queue f) (anEvent : JEvent) :
    queue.addevt anEvent = .ok false ↔ f.items ≠ [] ∧ anEvent.isPaint = true ∧
      (queue.myEventQueue.buf (queue.myEventQueue.indexLast - 1)).isPaint = true := by
  rw [addevt_eq keeps]
  simp [and_assoc]

theorem putJEvent_eq (mutex : queue.myMutex = false) (anEvent : JEvent) {added : Bool}
    (decided : queue.addevt anEvent = .ok added) :
    queue.putJEvent anEvent =
      if added = false then (.returned none, queue)
      else if queue.myEventQueue.count = queue.myEventQueue.maxCount then
        (.raised .queueIsFull, queue)
      else
        (.returned none,
          { queue with
            mySem := queue.mySem + 1
            myMessageCount := queue.myMessageCount + 1
            myEventQueue := (queue.myEventQueue.qAdd anEvent).2 }) := by
  cases queue with
  | mk mySem myMutex myEventQueue myMessageCount =>
    dsimp only at mutex
    subst mutex
    have tries : JEventQueue.addevt ⟨mySem, true, myEventQueue, myMessageCount⟩ anEvent =
        .ok added := decided
    rw [JEventQueue.putJEvent, if_neg Bool.false_ne_true, JEventQueue.putTry, tries, Queue.qAdd]
    cases added with
    | false => rfl
    | true =>
      rw [if_neg Bool.true_eq_false.mp]
      by_cases full : myEventQueue.count = myEventQueue.maxCount
      · rw [if_pos full, if_pos full]
      · rw [if_neg full, if_neg full]

theorem qAdd_eq (represents : Represents queue.myEventQueue f) (anEvent : JEvent)
    (room : f.items.length < maxJEvents) :
    Represents (queue.myEventQueue.qAdd anEvent).2 (f.push anEvent room) := by
  have notFull : ¬queue.myEventQueue.count = queue.myEventQueue.maxCount := by
    rw [represents.count, represents.maxCount]
    omega
  rw [Queue.qAdd, if_neg notFull]
  exact represents.push anEvent room

theorem putJEvent_cases (keeps : Keeps queue f) (anEvent : JEvent) :
    (queue.addevt anEvent = .ok false ∧ queue.putJEvent anEvent = (.returned none, queue)) ∨
    (queue.addevt anEvent = .ok true ∧
      queue.putJEvent anEvent = (.raised .queueIsFull, queue)) ∨
    ∃ (room : f.items.length < maxJEvents) (queue' : JEventQueue),
      queue.addevt anEvent = .ok true ∧ queue.putJEvent anEvent = (.returned none, queue') ∧
        Keeps queue' (f.push anEvent room) := by
  obtain ⟨represents, mutex, sem, messages⟩ := keeps
  have decided := addevt_eq ⟨represents, mutex, sem, messages⟩ anEvent
  have eq := putJEvent_eq mutex anEvent decided
  generalize (!(decide (f.items ≠ []) && anEvent.isPaint &&
    (queue.myEventQueue.buf (queue.myEventQueue.indexLast - 1)).isPaint)) = added at decided eq
  cases added with
  | false => exact .inl ⟨decided, eq⟩
  | true =>
    right
    rw [if_neg Bool.true_eq_false.mp] at eq
    by_cases room : f.items.length < maxJEvents
    · have notFull : ¬queue.myEventQueue.count = queue.myEventQueue.maxCount := by
        rw [represents.count, represents.maxCount]
        omega
      rw [if_neg notFull] at eq
      refine .inr ⟨room, _, decided, eq, qAdd_eq represents anEvent room, mutex, ?_, ?_⟩
      · dsimp only [Fifo.push]
        rw [sem, length_append, length_singleton]
      · dsimp only [Fifo.push]
        rw [messages, length_append, length_singleton]
        rfl
    · have full : queue.myEventQueue.count = queue.myEventQueue.maxCount := by
        have bounded := f.bounded
        rw [represents.count, represents.maxCount]
        omega
      rw [if_pos full] at eq
      exact .inl ⟨decided, eq⟩

theorem getJEvent_cases (keeps : Keeps queue f) :
    (f.items = [] ∧ queue.getJEvent = (.waits, queue)) ∨
    ∃ (x : JEvent) (rest : List JEvent) (queue' : JEventQueue), f.items = x :: rest ∧
      queue.getJEvent = (.returned (some x), queue') ∧ Keeps queue' f.pop := by
  obtain ⟨represents, mutex, sem, messages⟩ := keeps
  cases items : f.items with
  | nil =>
    rw [items] at sem
    exact .inl ⟨rfl, if_pos sem⟩
  | cons x rest =>
    have positive : queue.mySem ≠ 0 := by
      rw [sem, items]
      exact Nat.succ_ne_zero _
    have removed : queue.myEventQueue.qRemove true = (.ok (some x),
        { queue.myEventQueue with
          count := queue.myEventQueue.count - 1
          indexFirst := (queue.myEventQueue.indexFirst + 1) % queue.myEventQueue.maxCount }) := by
      rw [Queue.qRemove, represents.retrieve items true]
      rfl
    right
    refine ⟨x, rest,
      { queue with
        mySem := queue.mySem - 1
        myMessageCount := queue.myMessageCount - 1
        myEventQueue := (queue.myEventQueue.qRemove true).2 }, rfl, ?_, ?_, mutex, ?_, ?_⟩
    · rw [JEventQueue.getJEvent, if_neg positive]
      dsimp only
      rw [if_neg (by rw [mutex]; exact Bool.false_ne_true), removed]
    · rw [removed]
      exact represents.pop items
    · dsimp only [Fifo.pop]
      rw [sem, items, length_cons, tail_cons, Nat.add_sub_cancel]
    · dsimp only [Fifo.pop]
      rw [messages, items, length_cons, tail_cons]
      omega

theorem Keeps.writeElsewhere (keeps : Keeps queue f) (memory : Int → JEvent) :
    Keeps (queue.writeElsewhere memory) f := by
  obtain ⟨represents, mutex, sem, messages⟩ := keeps
  refine ⟨⟨represents.maxCount, represents.count, represents.first, represents.last, ?_⟩,
    mutex, sem, messages⟩
  refine Eq.trans ?_ represents.elements
  apply Ring.window_congr _ _ _ _ (Nat.zero_lt_of_ne_zero (by decide))
  intro i less
  have inside : 0 ≤ (i : Int) ∧ (i : Int) < maxJEvents := by omega
  dsimp only [JEventQueue.writeElsewhere]
  rw [if_pos inside]

theorem others_append (a b : List JEvent) : others (a ++ b) = others a ++ others b :=
  filter_append _ _

theorem others_paint {anEvent : JEvent} (isPaint : anEvent.isPaint = true) :
    others [anEvent] = [] := by
  rw [others, filter_cons, isPaint]
  rfl

/-! ## Runs -/

/-- The queue keeps what was put and not yet delivered. -/
def Inv (s : JSession) : Prop :=
  ∃ f : Fifo JEvent maxJEvents, Keeps s.queue f ∧
    others s.accepted = others (s.delivered ++ f.items)

theorem inv_start (memory : Int → JEvent) : Inv (start memory) :=
  ⟨Fifo.empty, ⟨.qNew memory maxJEvents, rfl, rfl, rfl⟩, rfl⟩

variable {s : JSession}

theorem Inv.step (inv : Inv s) (call : JCall) : Inv (step call s) := by
  obtain ⟨f, keeps, ordered⟩ := inv
  cases call with
  | putJEvent anEvent =>
    rw [JSession.step]
    rcases putJEvent_cases keeps anEvent with ⟨skipped, put⟩ | ⟨-, put⟩ |
      ⟨room, queue', -, put, keeps'⟩
    · rw [put]
      refine ⟨f, keeps, ?_⟩
      have isPaint := ((addevt_false_iff keeps anEvent).1 skipped).2.1
      dsimp only [accepts]
      rw [others_append, others_paint isPaint, append_nil, ordered]
    · rw [put]
      refine ⟨f, keeps, ?_⟩
      dsimp only [accepts]
      rw [append_nil, ordered]
    · rw [put]
      refine ⟨f.push anEvent room, keeps', ?_⟩
      dsimp only [accepts, Fifo.push]
      rw [← append_assoc, others_append, others_append (_ ++ _), ordered]
  | getJEvent =>
    rw [JSession.step]
    rcases getJEvent_cases keeps with ⟨-, got⟩ | ⟨x, rest, queue', items, got, keeps'⟩
    · rw [got]
      refine ⟨f, keeps, ?_⟩
      dsimp only [delivers]
      rw [append_nil, ordered]
    · rw [got]
      refine ⟨f.pop, keeps', ?_⟩
      dsimp only [delivers, Fifo.pop]
      rw [ordered, items, tail_cons, append_assoc, singleton_append]
  | elsewhere memory => exact ⟨f, keeps.writeElsewhere memory, ordered⟩

theorem discards_iff (keeps : Keeps queue f) (anEvent : JEvent) :
    Discards queue anEvent ↔ queue.addevt anEvent = .ok false := by
  constructor
  · intro discards
    obtain ⟨-, returned, fewer⟩ := discards
    rcases putJEvent_cases keeps anEvent with ⟨skipped, -⟩ | ⟨-, put⟩ |
      ⟨room, queue', -, put, keeps'⟩
    · exact skipped
    · rw [put] at returned
      cases returned
    · rw [put, keeps'.elements, keeps.elements] at fewer
      exact absurd rfl fewer
  · intro skipped
    rcases putJEvent_cases keeps anEvent with ⟨-, put⟩ | ⟨added, -⟩ | ⟨room, queue', added, -⟩
    · refine ⟨((addevt_false_iff keeps anEvent).1 skipped).2.1, by rw [put], ?_⟩
      rw [put]
      intro same
      have length := congrArg List.length same
      rw [length_append, length_singleton] at length
      dsimp only at length
      omega
    · rw [skipped] at added
      cases added
    · rw [skipped] at added
      cases added

theorem answers_iff (inv : Inv s) (call : JCall) : Answers s.queue call ↔ Merges s call := by
  obtain ⟨f, keeps, -⟩ := inv
  have elements := keeps.elements
  cases call with
  | putJEvent anEvent =>
    rw [Answers, Merges, discards_iff keeps, addevt_false_iff keeps, elements]
    constructor
    · intro answers isPaint nonempty wraps before
      apply answers ⟨nonempty, isPaint, ?_⟩
      rw [wraps]
      exact before
    · intro merges skipped
      obtain ⟨nonempty, isPaint, read⟩ := skipped
      by_cases wraps : s.queue.myEventQueue.indexLast = 0
      · rw [wraps] at read
        exact merges isPaint nonempty wraps read
      · obtain ⟨front, last, items⟩ := f.items.eq_nil_or_concat.resolve_left nonempty
        rw [concat_eq_append] at items
        rw [keeps.represents.slot_last items wraps] at read
        exact ⟨last, by rw [items, List.getLast?_concat], read⟩
  | getJEvent =>
    refine iff_of_true ?_ trivial
    rw [Answers, elements]
    intro nonempty
    rcases getJEvent_cases keeps with ⟨empty, -⟩ | ⟨x, rest, queue', items, got, -⟩
    · exact absurd empty nonempty
    · rw [got, items]
      rfl
  | elsewhere memory => exact Iff.rfl

theorem right_iff (inv : Inv s) (call : JCall) : Right s call ↔ Merges s call := by
  constructor
  · intro right
    exact (answers_iff inv call).1 right.answers
  · intro merges
    obtain ⟨f, keeps, ordered⟩ := inv.step call
    refine ⟨keeps.counted, ?_, (answers_iff inv call).2 merges⟩
    rw [ordered, keeps.elements]

theorem merges_iff (memory : Int → JEvent) (calls : List JCall) :
    Always step Right calls (start memory) ↔ Always step Merges calls (start memory) := by
  have free : Always step (fun _ _ => True) calls (start memory) := Always.unconditional _ _
  refine Always.congr_of_invariant Inv ?_ ?_ (inv_start memory) free
  · intro s call inv _
    exact right_iff inv call
  · intro s call inv _ _
    exact inv.step call

/-- A key event. -/
def key : JEvent := ⟨3, 0, 0⟩

/-- The queue is filled with key events and one is taken. -/
def keys : List JCall := List.replicate maxJEvents (.putJEvent key) ++ [.getJEvent]

/-- The state after them, with a PAINT before the buffer. -/
def afterKeys : JEventQueue := (after step keys (start fun _ => ⟨2, 0, 0⟩)).queue

/-- A PAINT is put behind the key events. -/
theorem not_merges :
    ¬Always step Right (keys ++ [.putJEvent ⟨2, 0, 0⟩]) (start fun _ => ⟨2, 0, 0⟩) := by
  intro always
  obtain ⟨-, right, -⟩ := (Always.append_iff _ _ _).1 always
  have length : afterKeys.elements.length = 255 := by decide +kernel
  have as_before : (afterKeys.putJEvent ⟨2, 0, 0⟩).2.elements.length = 255 := by decide +kernel
  have discards : Discards afterKeys ⟨2, 0, 0⟩ := by
    refine ⟨rfl, by decide +kernel, ?_⟩
    intro same
    rw [same, length_append, length] at as_before
    cases as_before
  obtain ⟨last, same, isPaint⟩ := right.answers discards
  have isKey : afterKeys.elements.getLast? = some key := by decide +kernel
  have other := isKey.symm.trans same
  cases other
  cases isPaint

end JSession

end CimArm.Ui
