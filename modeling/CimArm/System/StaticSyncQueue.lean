import CimArm.Lib.Threads
import CimArm.System.Queue

/-!
# The blocking queue

`StaticSyncQueue`: a queue, a mutex around its operations, and a semaphore that counts its
elements.  Threads call `pushElement` and `popBuffer`, and are interleaved between any two
statements; a thread that finds the mutex held or the semaphore at zero does not go on.

`qAdd` raises when the queue is full.  Nothing catches the exception in `pushElement`, so that
the call ends with the mutex held, and nobody holds it who would give it back.

* `sound_of_room`: in every run in which no thread comes to `qAdd` with the queue full, the
  mutex is free and the semaphore counts the elements whenever no call is under way, and a call
  of `popBuffer` returns the oldest element; and once one does, the mutex is never free again.
-/

namespace CimArm.Util

open Trace Threads Simulation Function

variable {T α : Type} [DecidableEq T]

/-! ## The calls -/

/-- Where a thread is in a call: the statement it executes next. -/
inductive SyncPc (α : Type) : Type
  | idle
  | pushLock (aBuffer : α)
  | pushAdd (aBuffer : α)
  | pushUnLock (aBuffer : α)
  | pushPost (aBuffer : α)
  | popWait
  | popLock
  | popRemove
  | popUnLock (aBuffer : α)

/-- The queue and the threads that use it, with how the last call of each one ended. -/
structure StaticSyncQueue (T α : Type) : Type where
  queue : Queue α
  mySem : Nat
  myMutex : Option T
  pc : T → SyncPc α
  ended : T → Option (Except QueueExn α)

/-- A thread calls a method, or executes the next statement of its call. -/
inductive SyncOp (T α : Type) : Type
  | pushElement (t : T) (aBuffer : α)
  | popBuffer (t : T)
  | run (t : T)

namespace StaticSyncQueue

def initWithSize (memory : Int → α) (aMaxCount : Nat) : StaticSyncQueue T α :=
  ⟨qNew memory aMaxCount, 0, none, fun _ => .idle, fun _ => none⟩

variable (s : StaticSyncQueue T α)

def goto (t : T) (pc : SyncPc α) : StaticSyncQueue T α :=
  { s with pc := Function.update s.pc t pc }

/-- A thread that is in a call does not make another one. -/
def call (t : T) (pc : SyncPc α) : StaticSyncQueue T α :=
  match s.pc t with
  | .idle => { s.goto t pc with ended := Function.update s.ended t none }
  | _ => s

def return_ (t : T) (answer : Except QueueExn α) : StaticSyncQueue T α :=
  { s.goto t .idle with ended := Function.update s.ended t (some answer) }

/-- The next statement of a thread. -/
def execute (t : T) : StaticSyncQueue T α :=
  match s.pc t with
  | .idle => s
  | .pushLock aBuffer =>
    if s.myMutex.isNone then { s.goto t (.pushAdd aBuffer) with myMutex := some t } else s
  | .pushAdd aBuffer =>
    match s.queue.qAdd aBuffer with
    | (.ok _, queue) => { s.goto t (.pushUnLock aBuffer) with queue := queue }
    | (.error e, queue) => { s.return_ t (.error e) with queue := queue }
  | .pushUnLock aBuffer => { s.goto t (.pushPost aBuffer) with myMutex := none }
  | .pushPost aBuffer => { s.return_ t (.ok aBuffer) with mySem := s.mySem + 1 }
  | .popWait => if s.mySem = 0 then s else { s.goto t .popLock with mySem := s.mySem - 1 }
  | .popLock => if s.myMutex.isNone then { s.goto t .popRemove with myMutex := some t } else s
  | .popRemove =>
    match s.queue.qRemove true with
    | (.ok (some aBuffer), queue) => { s.goto t (.popUnLock aBuffer) with queue := queue }
    | (.ok none, queue) => { s.return_ t (.error .invalidPointer) with queue := queue }
    | (.error e, queue) => { s.return_ t (.error e) with queue := queue }
  | .popUnLock aBuffer => { s.return_ t (.ok aBuffer) with myMutex := none }

def step : SyncOp T α → StaticSyncQueue T α → StaticSyncQueue T α
  | .pushElement t aBuffer, s => s.call t (.pushLock aBuffer)
  | .popBuffer t, s => s.call t .popWait
  | .run t, s => s.execute t

/-! ## What it is for -/

/-- No call is under way but those that wait for an element. -/
def Resting : Prop := ∀ t, s.pc t = .idle ∨ s.pc t = .popWait

/-- The statements of a thread that calls `popBuffer` and is not interrupted. -/
def popAlone (t : T) : List (SyncOp T α) := [.popBuffer t, .run t, .run t, .run t, .run t]

/-- With no call under way the mutex is free and the semaphore counts the elements, and a call
of `popBuffer` takes the oldest one when there is one. -/
def Sound : Prop :=
  s.Resting → s.myMutex = none ∧ s.queue.count = s.mySem ∧
    s.queue.elements.length = s.mySem ∧
    ∀ t x rest, s.pc t = .idle → s.queue.elements = x :: rest →
      let s' := after step (popAlone t) s
      s'.ended t = some (.ok x) ∧ s'.queue.elements = rest ∧ s'.Resting ∧
        s'.myMutex = none

def adding : SyncPc α → Bool
  | .pushAdd _ => true
  | _ => false

/-- No thread comes to `qAdd` with the queue full. -/
def Room : SyncOp T α → Prop
  | .run t => adding (s.pc t) = true → s.queue.count ≠ s.queue.maxCount
  | _ => True

instance : (op : SyncOp T α) → Decidable (s.Room op)
  | .run _ => inferInstanceAs (Decidable (_ → _))
  | .pushElement .. | .popBuffer _ => isTrue trivial

/-! ## The invariant -/

/-- The places between `lock` and `unLock`. -/
def critical : SyncPc α → Bool
  | .pushAdd _ | .pushUnLock _ | .popRemove | .popUnLock _ => true
  | _ => false

/-- The places where the queue has an element that the semaphore does not count, not yet or no
longer. -/
def pending : SyncPc α → Nat
  | .pushUnLock _ | .pushPost _ | .popLock | .popRemove => 1
  | _ => 0

variable [Fintype T]

/-- The mutex belongs to the thread in the critical section, and the semaphore counts the
elements but those that calls have under way. -/
structure Inv {capacity : Nat} (f : Fifo α capacity) (s : StaticSyncQueue T α) : Prop where
  queue : Represents s.queue f
  mutex : Owned (critical · = true) s.myMutex s.pc
  count : f.items.length = s.mySem + total pending s.pc

section kept

variable {s : StaticSyncQueue T α} {capacity : Nat} {f : Fifo α capacity} {t : T}
  {aBuffer : α}

omit [DecidableEq T] in
theorem inv_initWithSize (memory : Int → α) (capacity : Nat) :
    Inv (Fifo.empty : Fifo α capacity) (initWithSize memory capacity : StaticSyncQueue T α) where
  queue := .qNew memory capacity
  mutex _ := ⟨nofun, nofun⟩
  count := by
    have none := @total_eq_zero T (SyncPc α) _ (fun _ => .idle) pending fun _ => rfl
    exact none.symm.trans (Nat.zero_add _).symm

theorem Inv.moves (inv : Inv f s) {pc : SyncPc α} {mySem : Nat}
    (ended : T → Option (Except QueueExn α)) (outside : critical pc = critical (s.pc t))
    (count : mySem + pending pc = s.mySem + pending (s.pc t)) :
    Inv f { s with
      pc := Function.update s.pc t pc, mySem := mySem, ended := ended } where
  queue := inv.queue
  mutex := inv.mutex.stay (by rw [outside])
  count := by
    have moved := total_update pending s.pc t pc
    have before := inv.count
    dsimp only
    omega

theorem Inv.locks (inv : Inv f s) {pc : SyncPc α} (free : s.myMutex = none)
    (enters : critical pc = true) (count : pending pc = pending (s.pc t)) :
    Inv f { s.goto t pc with myMutex := some t } where
  queue := inv.queue
  mutex := by
    have owned := inv.mutex
    rw [free] at owned
    exact owned.enter enters
  count := by
    have moved := total_update pending s.pc t pc
    have before := inv.count
    dsimp only [goto]
    omega

theorem Inv.unlocks (inv : Inv f s) {pc : SyncPc α} (ended : T → Option (Except QueueExn α))
    (here : critical (s.pc t) = true) (leaves : critical pc = false)
    (count : pending pc = pending (s.pc t)) :
    Inv f { s.goto t pc with myMutex := none, ended := ended } where
  queue := inv.queue
  mutex := inv.mutex.leave here (by rw [leaves]; exact Bool.false_ne_true)
  count := by
    have moved := total_update pending s.pc t pc
    have before := inv.count
    dsimp only [goto]
    omega

theorem Inv.adds (inv : Inv f s) (here : s.pc t = .pushAdd aBuffer)
    (room : s.queue.count ≠ s.queue.maxCount) :
    ∃ f' : Fifo α capacity, Inv f' (s.execute t) := by
  have size := inv.queue.count
  have most := inv.queue.maxCount
  have bounded := f.bounded
  have fits : f.items.length < capacity := by
    rw [size, most] at room
    omega
  refine ⟨f.push aBuffer fits, ?_⟩
  unfold execute
  rw [here]
  dsimp only [Queue.qAdd]
  rw [if_neg room]
  exact {
    queue := inv.queue.push aBuffer fits
    mutex := inv.mutex.stay (by rw [here]; rfl)
    count := by
      have moved := total_update pending s.pc t (.pushUnLock aBuffer)
      have before := inv.count
      rw [here] at moved
      dsimp only [pending, goto, Fifo.push] at moved ⊢
      rw [List.length_append, List.length_singleton]
      omega }

theorem Inv.removes (inv : Inv f s) (here : s.pc t = .popRemove) :
    ∃ x rest, f.items = x :: rest ∧ s.execute t = { s.goto t (.popUnLock x) with
      queue := { s.queue with
        count := s.queue.count - 1
        indexFirst := (s.queue.indexFirst + 1) % s.queue.maxCount } } ∧
      Inv f.pop (s.execute t) := by
  have least := le_total pending s.pc t
  have before := inv.count
  rw [here] at least
  dsimp only [pending] at least
  obtain ⟨x, rest, items⟩ := List.exists_cons_of_length_pos (show 0 < f.items.length by omega)
  have run : s.execute t = { s.goto t (.popUnLock x) with
      queue := { s.queue with
        count := s.queue.count - 1
        indexFirst := (s.queue.indexFirst + 1) % s.queue.maxCount } } := by
    unfold execute
    rw [here]
    dsimp only [Queue.qRemove]
    rw [inv.queue.retrieve items true]
    rfl
  refine ⟨x, rest, items, run, ?_⟩
  rw [run]
  exact {
    queue := inv.queue.pop items
    mutex := inv.mutex.stay (by rw [here]; rfl)
    count := by
      have moved := total_update pending s.pc t (.popUnLock x)
      rw [here] at moved
      dsimp only [pending, goto, Fifo.pop] at moved ⊢
      rw [List.length_tail]
      omega }

theorem Inv.execute (inv : Inv f s) (room : Room s (.run t)) :
    ∃ f' : Fifo α capacity, Inv f' (s.execute t) := by
  cases here : s.pc t with
  | idle =>
    unfold StaticSyncQueue.execute
    rw [here]
    exact ⟨f, inv⟩
  | pushLock aBuffer =>
    unfold StaticSyncQueue.execute
    rw [here]
    dsimp only
    split_ifs with free
    · exact ⟨f, inv.locks (Option.isNone_iff_eq_none.1 free) rfl (by rw [here]; rfl)⟩
    · exact ⟨f, inv⟩
  | pushAdd aBuffer => exact inv.adds here (room (by rw [here]; rfl))
  | pushUnLock aBuffer =>
    unfold StaticSyncQueue.execute
    rw [here]
    exact ⟨f, inv.unlocks s.ended (by rw [here]; rfl) rfl (by rw [here]; rfl)⟩
  | pushPost aBuffer =>
    unfold StaticSyncQueue.execute
    rw [here]
    exact ⟨f, inv.moves _ (by rw [here]; rfl) (by rw [here]; rfl)⟩
  | popWait =>
    unfold StaticSyncQueue.execute
    rw [here]
    dsimp only
    split_ifs with zero
    · exact ⟨f, inv⟩
    · exact ⟨f, inv.moves s.ended (by rw [here]; rfl) (by rw [here]; dsimp only [pending]; omega)⟩
  | popLock =>
    unfold StaticSyncQueue.execute
    rw [here]
    dsimp only
    split_ifs with free
    · exact ⟨f, inv.locks (Option.isNone_iff_eq_none.1 free) rfl (by rw [here]; rfl)⟩
    · exact ⟨f, inv⟩
  | popRemove =>
    obtain ⟨x, rest, -, -, kept⟩ := inv.removes here
    exact ⟨f.pop, kept⟩
  | popUnLock aBuffer =>
    unfold StaticSyncQueue.execute
    rw [here]
    exact ⟨f, inv.unlocks _ (by rw [here]; rfl) rfl (by rw [here]; rfl)⟩

theorem Inv.call (inv : Inv f s) {pc : SyncPc α} (outside : critical pc = false)
    (nothing : pending pc = 0) : Inv f (s.call t pc) := by
  unfold StaticSyncQueue.call
  split
  · next here =>
    exact inv.moves _ (by rw [here, outside]; rfl) (by rw [here, nothing]; rfl)
  · exact inv

theorem Inv.step (inv : Inv f s) {op : SyncOp T α} (room : Room s op) :
    ∃ f' : Fifo α capacity, Inv f' (step op s) := by
  cases op with
  | pushElement t aBuffer => exact ⟨f, inv.call rfl rfl⟩
  | popBuffer t => exact ⟨f, inv.call rfl rfl⟩
  | run t => exact inv.execute room

end kept

/-! ## With no call under way -/

section resting

variable {s : StaticSyncQueue T α} {capacity : Nat} {f : Fifo α capacity} {t : T}

omit [DecidableEq T] [Fintype T] in
theorem Resting.outside (resting : s.Resting) (t : T) :
    ¬ critical (s.pc t) = true ∧ pending (s.pc t) = 0 := by
  rcases resting t with here | here
  · rw [here]
    exact ⟨Bool.false_ne_true, rfl⟩
  · rw [here]
    exact ⟨Bool.false_ne_true, rfl⟩

omit [DecidableEq T] in
theorem Inv.resting (inv : Inv f s) (resting : s.Resting) :
    s.myMutex = none ∧ f.items.length = s.mySem := by
  have count := inv.count
  rw [total_eq_zero fun t => (resting.outside t).2] at count
  exact ⟨inv.mutex.free fun t => (resting.outside t).1, count⟩

theorem Inv.popAlone (inv : Inv f s) (resting : s.Resting) (idle : s.pc t = .idle) {x : α}
    {rest : List α} (items : f.items = x :: rest) :
    let s' := after StaticSyncQueue.step (popAlone t) s
    s'.ended t = some (.ok x) ∧ s'.queue.elements = rest ∧ s'.Resting ∧ s'.myMutex = none := by
  obtain ⟨free, count⟩ := inv.resting resting
  have positive : s.mySem ≠ 0 := by
    rw [← count, items]
    exact Nat.succ_ne_zero _
  have popped := inv.queue.pop items
  have ends : after StaticSyncQueue.step (StaticSyncQueue.popAlone t) s = {
      queue := { s.queue with
        count := s.queue.count - 1
        indexFirst := (s.queue.indexFirst + 1) % s.queue.maxCount }
      mySem := s.mySem - 1
      myMutex := none
      pc := s.pc
      ended := Function.update s.ended t (some (.ok x)) } := by
    have same : Function.update s.pc t .idle = s.pc := by rw [← idle, update_eq_self]
    have removes : s.queue.qGetElement true = .ok (some x) := inv.queue.retrieve items true
    simp [StaticSyncQueue.popAlone, after, StaticSyncQueue.step, StaticSyncQueue.call,
      StaticSyncQueue.execute, goto, return_, idle, positive, free, same, Queue.qRemove, removes]
  dsimp only
  rw [ends]
  refine ⟨update_self .., ?_, resting, rfl⟩
  rw [popped.elements_eq]
  exact congrArg List.tail items

theorem Inv.sound (inv : Inv f s) : s.Sound := by
  intro resting
  obtain ⟨free, count⟩ := inv.resting resting
  have elements := inv.queue.elements_eq
  refine ⟨free, inv.queue.count.trans (congrArg _ count), by rw [elements, count], ?_⟩
  intro t x rest idle items
  exact inv.popAlone resting idle (elements.symm.trans items)

end resting

/-! ## After an exception -/

section lockedOut

variable {s : StaticSyncQueue T α} {capacity : Nat} {f : Fifo α capacity}

/-- The mutex is held, and not by a thread that gives it back. -/
def LockedOut (s : StaticSyncQueue T α) : Prop :=
  s.myMutex ≠ none ∧ ∀ t, critical (s.pc t) = false

omit [Fintype T] in
theorem LockedOut.goto (locked : s.LockedOut) {pc : SyncPc α} (outside : critical pc = false)
    (t u : T) : critical (Function.update s.pc t pc u) = false := by
  rcases eq_or_ne u t with rfl | other
  · rw [update_self, outside]
  · rw [update_of_ne other, locked.2 u]

omit [Fintype T] in
theorem LockedOut.step (locked : s.LockedOut) (op : SyncOp T α) : (step op s).LockedOut := by
  have call (t : T) {pc : SyncPc α} (outside : critical pc = false) :
      (s.call t pc).LockedOut := by
    unfold StaticSyncQueue.call
    split
    · exact ⟨locked.1, locked.goto outside t⟩
    · exact locked
  cases op with
  | pushElement t aBuffer => exact call t rfl
  | popBuffer t => exact call t rfl
  | run t =>
    have held : ¬ s.myMutex.isNone = true := fun free =>
      locked.1 (Option.isNone_iff_eq_none.1 free)
    have outside := locked.2 t
    show (s.execute t).LockedOut
    unfold execute
    cases here : s.pc t with
    | idle => exact locked
    | pushLock aBuffer =>
      dsimp only
      rw [if_neg held]
      exact locked
    | pushPost aBuffer => exact ⟨locked.1, locked.goto rfl t⟩
    | popWait =>
      dsimp only
      split_ifs
      · exact locked
      · exact ⟨locked.1, locked.goto rfl t⟩
    | popLock =>
      dsimp only
      rw [if_neg held]
      exact locked
    | _ =>
      rw [here] at outside
      cases outside

/-- The exception of `qAdd` leaves the mutex to the thread that is no longer in the call. -/
theorem Inv.lockedOut (inv : Inv f s) {op : SyncOp T α} (full : ¬ s.Room op) :
    (StaticSyncQueue.step op s).LockedOut := by
  cases op with
  | pushElement => exact absurd trivial full
  | popBuffer => exact absurd trivial full
  | run t =>
    have isFull : s.queue.count = s.queue.maxCount := by
      by_contra room
      exact full fun _ => room
    have here : ∃ aBuffer, s.pc t = .pushAdd aBuffer := by
      by_contra elsewhere
      refine full fun adds => ?_
      cases here : s.pc t with
      | pushAdd aBuffer => exact absurd ⟨aBuffer, here⟩ elsewhere
      | _ =>
        rw [here] at adds
        cases adds
    obtain ⟨aBuffer, here⟩ := here
    have owner : s.myMutex = some t := (inv.mutex t).1 (by rw [here]; rfl)
    show (s.execute t).LockedOut
    unfold StaticSyncQueue.execute
    rw [here]
    dsimp only [Queue.qAdd]
    rw [if_pos isFull]
    refine ⟨fun free => Option.some_ne_none t (owner.symm.trans free), fun u => ?_⟩
    show critical (Function.update s.pc t .idle u) = false
    rcases eq_or_ne u t with rfl | other
    · rw [update_self]
      rfl
    · rw [update_of_ne other, ← Bool.not_eq_true]
      intro inside
      exact other (Option.some.inj (((inv.mutex u).1 inside).symm.trans owner))

end lockedOut

/-! ## In every run -/

theorem inv_after (memory : Int → α) (capacity : Nat) {ops : List (SyncOp T α)}
    (room : Always step Room ops (initWithSize memory capacity)) :
    ∃ f : Fifo α capacity, Inv f (after step ops (initWithSize memory capacity)) :=
  Always.after_of_invariant (fun s => ∃ f : Fifo α capacity, Inv f s)
    (fun inv here => inv.choose_spec.step here) ⟨_, inv_initWithSize memory capacity⟩ room

/-- As long as no thread comes to `qAdd` with the queue full, the mutex is free and the
semaphore counts the elements whenever no call is under way, and the oldest element is there for
a call of `popBuffer`; from then on the mutex is never free again. -/
theorem sound_of_room (memory : Int → α) (capacity : Nat) (ops : List (SyncOp T α))
    (room : Always step Room ops (initWithSize memory capacity)) :
    (after step ops (initWithSize memory capacity)).Sound ∧
      ∀ op more, ¬ (after step ops (initWithSize memory capacity)).Room op →
        (after step (op :: more) (after step ops (initWithSize memory capacity))).myMutex ≠ none := by
  obtain ⟨f, inv⟩ := inv_after memory capacity room
  refine ⟨inv.sound, fun op more full => ?_⟩
  exact (after_of_invariant LockedOut (fun _ op locked => locked.step op) more
    (inv.lockedOut full)).1

/-- Two threads and a queue of one element: a push, a pop, and a push that waits for the mutex. -/
theorem sound_of_room_two : (after step
    [.pushElement 0 7, .run 0, .pushElement 1 8, .run 1, .run 0, .run 0, .run 0, .popBuffer 0,
      .run 0, .run 0, .run 0, .run 0, .run 1, .run 1, .run 1, .run 1]
    (initWithSize (fun _ => 0) 1 : StaticSyncQueue (Fin 2) Nat)).Sound :=
  (sound_of_room (fun _ => 0) 1 _ (by decide)).1

/-- A push into a full queue raises, and with no call under way the mutex is not free. -/
theorem not_sound_of_full : ¬ (after step
    [.pushElement 0 7, .run 0, .run 0, .run 0, .run 0, .pushElement 0 8, .run 0, .run 0]
    (initWithSize (fun _ => 0) 1 : StaticSyncQueue (Fin 1) Nat)).Sound := by
  intro sound
  have free := (sound fun t => .inl (by
    rw [Fin.fin_one_eq_zero t]
    rfl)).1
  exact absurd free (by decide)

end StaticSyncQueue

end CimArm.Util
